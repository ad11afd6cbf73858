import Mathlib.Data.List.Induction

/-! Labelled, possibly nondeterministic systems: finite runs, the invariant
rule, runs restricted by a guard on the state before each step, and simulation
up to stuttering. Nothing here depends on what the states or the labels are. -/
namespace Omnipresent.Transition
variable {S T L M : Type*}

/-- A finite run with its labels, oldest first. -/
inductive Reaches (step : S → L → S → Prop) : S → List L → S → Prop where
  | refl (s) : Reaches step s [] s
  | next : Reaches step s labels t → step t label u → Reaches step s (labels ++ [label]) u

/-- The steps a guard on the label and the state before them lets through. -/
def guarded (step : S → L → S → Prop) (guard : S → L → Prop) : S → L → S → Prop :=
  fun s label t => guard s label ∧ step s label t

namespace Reaches
variable {step : S → L → S → Prop}

theorem single (first : step s label t) : Reaches step s [label] t :=
  .next (.refl s) first

theorem trans (first : Reaches step s labels t) (second : Reaches step t labels' u) :
    Reaches step s (labels ++ labels') u := by
  induction second with
  | refl => simpa only [List.append_nil] using first
  | next earlier last ih => simpa only [List.append_assoc] using Reaches.next ih last

theorem invariant {P : S → Prop} (preserves : ∀ {s label t}, P s → step s label t → P t)
    (run : Reaches step s labels t) (initial : P s) : P t := by
  induction run with
  | refl => exact initial
  | next _ last ih => exact preserves ih last

theorem mono {step' : S → L → S → Prop} (weaker : ∀ {s label t}, step s label t → step' s label t)
    (run : Reaches step s labels t) : Reaches step' s labels t := by
  induction run with
  | refl => exact .refl _
  | next _ last ih => exact ih.next (weaker last)

theorem unguarded {guard : S → L → Prop} (run : Reaches (guarded step guard) s labels t) :
    Reaches step s labels t :=
  run.mono And.right

/-- A guard on the labels alone holds of a run when it holds of its labels. -/
theorem guard (run : Reaches step s labels t) (admits : L → Prop) (admitted : ∀ label ∈ labels, admits label) :
    Reaches (guarded step fun _ label => admits label) s labels t := by
  induction run with
  | refl => exact .refl _
  | next _ last ih =>
    refine (ih fun label earlier => admitted label (List.mem_append_left _ earlier)).next ⟨?_, last⟩
    exact admitted _ (List.mem_append_right _ (List.mem_singleton_self _))

/-- A run followed on the abstract side, where a step may also be matched by
no step at all. The relation between the two states is the invariant. -/
theorem simulates {step' : T → M → T → Prop} {R : S → T → Prop}
    (matched : ∀ {s label t a}, R s a → step s label t →
      ∃ b, R t b ∧ (b = a ∨ ∃ label', step' a label' b))
    (run : Reaches step s labels t) (related : R s a) :
    ∃ b labels', R t b ∧ Reaches step' a labels' b := by
  induction run with
  | refl => exact ⟨a, [], related, .refl a⟩
  | next _ last ih =>
    obtain ⟨b, labels', before, earlier⟩ := ih
    obtain ⟨c, after, rfl | ⟨label', step⟩⟩ := matched before last
    · exact ⟨c, labels', after, earlier⟩
    · exact ⟨c, labels' ++ [label'], after, earlier.next step⟩

/-- The progress rule: where one kind of step always leads on, and closer by some
measure until it is done, repeating it gets there. -/
theorem descends {P Done : S → Prop} (measure : S → Nat)
    (progress : ∀ {s}, P s → Done s ∨ ∃ t, step s label t ∧ P t ∧ measure t < measure s) (initial : P s) :
    ∃ count t, Reaches step s (List.replicate count label) t ∧ P t ∧ Done t := by
  induction remaining : measure s using Nat.strongRecOn generalizing s with
  | _ n ih =>
    rcases progress initial with done | ⟨t, first, kept, closer⟩
    · exact ⟨0, s, .refl s, initial, done⟩
    · obtain ⟨count, u, rest, last⟩ := ih _ (remaining ▸ closer) kept rfl
      exact ⟨count + 1, u, (single first).trans rest, last⟩

theorem of_nil (run : Reaches step s [] t) : s = t := by
  generalize same : [] = labels at run
  cases run with
  | refl => rfl
  | next earlier last => simp at same

theorem of_single (run : Reaches step s [label] t) : step s label t := by
  generalize same : [label] = labels at run
  cases run with
  | refl => cases same
  | next earlier last =>
    obtain ⟨rfl, same⟩ := List.append_eq_singleton_iff.mp same.symm |>.resolve_right (by simp)
    obtain rfl := List.singleton_inj.mp same
    exact earlier.of_nil ▸ last

theorem split (run : Reaches step s (labels ++ labels') u) :
    ∃ t, Reaches step s labels t ∧ Reaches step t labels' u := by
  induction labels' using List.reverseRecOn generalizing u with
  | nil => exact ⟨u, by simpa only [List.append_nil] using run, .refl u⟩
  | append_singleton earlier label ih =>
    rw [← List.append_assoc] at run
    generalize same : labels ++ earlier ++ [label] = all at run
    cases run with
    | refl => simp at same
    | next before last =>
      obtain ⟨rfl, rfl⟩ := List.append_inj' same rfl |>.imp_right List.singleton_inj.mp
      obtain ⟨t, first, rest⟩ := ih before
      exact ⟨t, first, rest.next last⟩

/-- The ladder rule: where one state of affairs lasts until a label leads on to the next, a run
with that label in it gets there, with what comes after it still to come. -/
theorem climb {P Q : S → Prop} {rungs : List L} (run : Reaches step s labels t)
    (ladder : List.Sublist (label :: rungs) labels) (initial : P s)
    (lasts : ∀ {s label t}, P s → step s label t → P t) (lasts' : ∀ {s label t}, Q s → step s label t → Q t)
    (leads : ∀ {s t}, P s → step s label t → Q t) :
    ∃ u later, Q u ∧ List.Sublist rungs later ∧ Reaches step u later t := by
  obtain ⟨first, later, rfl, found, rest⟩ := List.cons_sublist_iff.mp ladder
  obtain ⟨before, after, rfl⟩ := List.append_of_mem found
  obtain ⟨u, run, last⟩ := run.split
  obtain ⟨v, start, passed⟩ := run.split
  rw [← List.singleton_append] at passed
  obtain ⟨w, once, onward⟩ := passed.split
  have there : Q w := leads (start.invariant lasts initial) once.of_single
  exact ⟨u, later, onward.invariant lasts' there, rest, last⟩

/-- A partial executor that only makes real steps turns an evaluated run into
a run of the system. -/
theorem of_foldlM {exec : S → L → Option S}
    (sound : ∀ {s label t}, exec s label = some t → step s label t)
    (evaluated : labels.foldlM exec s = some t) : Reaches step s labels t := by
  induction labels using List.reverseRecOn generalizing t with
  | nil =>
    obtain rfl : s = t := by simpa using evaluated
    exact .refl s
  | append_singleton earlier label ih =>
    simp only [List.foldlM_append, List.foldlM_cons, List.foldlM_nil, bind_pure,
      Option.bind_eq_bind, Option.bind_eq_some_iff] at evaluated
    obtain ⟨u, first, last⟩ := evaluated
    exact (ih first).next (sound last)

/-- An evaluated run together with a test of the state it ends in. -/
theorem of_any {exec : S → L → Option S}
    (sound : ∀ {s label t}, exec s label = some t → step s label t)
    (evaluated : (labels.foldlM exec s).any test = true) :
    ∃ t, Reaches step s labels t ∧ test t = true := by
  obtain ⟨t, ran, tested⟩ := (Option.any_eq_true test _).mp evaluated
  exact ⟨t, of_foldlM sound ran, tested⟩

/-- An evaluated run where the guard is about the state before its first step, and
lets the labels of the others through whatever the state. -/
theorem of_any_guarded {exec : S → L → Option S} {guard : S → L → Prop}
    (sound : ∀ {s label t}, exec s label = some t → step s label t)
    (first : guard s label) (rest : ∀ label ∈ labels, ∀ t, guard t label)
    (evaluated : ((label :: labels).foldlM exec s).any test = true) :
    ∃ t, Reaches (guarded step guard) s (label :: labels) t ∧ test t = true := by
  obtain ⟨t, ran, tested⟩ := (Option.any_eq_true test _).mp evaluated
  rw [List.foldlM_cons, Option.bind_eq_bind, Option.bind_eq_some_iff] at ran
  obtain ⟨u, stepped, ran⟩ := ran
  have later := (of_foldlM sound ran).guard (fun label => ∀ t, guard t label) rest
  exact ⟨t, (single ⟨first, sound stepped⟩).trans (later.mono fun ⟨all, step⟩ => ⟨all _, step⟩), tested⟩

end Reaches

section Along
variable {step : S → L → S → Prop} {Inv : S → Prop} {Q : S → L → S → Prop} {guard : S → L → Prop} {labels : List L}

/-- Every step of every run with these labels is one of these. -/
def Along (step : S → L → S → Prop) (s : S) (labels : List L) (Q : S → L → S → Prop) : Prop :=
  ∀ before label t u, before ++ [label] <+: labels → Reaches step s before t → step t label u → Q t label u

theorem Reaches.along (initial : Inv s)
    (kept : ∀ {s label t}, Inv s → guard s label → step s label t → Inv t)
    (admitted : ∀ before label t u, before ++ [label] <+: labels → Reaches step s before t → step t label u →
      Inv t → guard t label)
    (run : Reaches step s before t) (start : before <+: labels) : Inv t := by
  induction run with
  | refl => exact initial
  | next earlier last ih =>
    have invariant := ih ((List.prefix_append _ _).trans start)
    exact kept invariant (admitted _ _ _ _ start earlier last invariant) last

/-- The exactness rule: where a guard tells of each step from a state of the invariant
whether it is one of these, and keeps the invariant where it lets the step through,
all steps of a run are of these exactly if it lets them all through. -/
theorem along_iff (initial : Inv s) (exact' : ∀ {s label t}, Inv s → step s label t → (Q s label t ↔ guard s label))
    (kept : ∀ {s label t}, Inv s → guard s label → step s label t → Inv t) :
    Along step s labels Q ↔ Along step s labels fun s label _ => guard s label := by
  constructor
  · intro along before label t u start run last
    have invariant := run.along initial kept
      (fun before label t u start run last invariant =>
        (exact' invariant last).mp (along before label t u start run last))
      ((List.prefix_append _ _).trans start)
    exact (exact' invariant last).mp (along before label t u start run last)
  · intro along before label t u start run last
    have invariant := run.along initial kept
      (fun before label t u start run last _ => along before label t u start run last)
      ((List.prefix_append _ _).trans start)
    exact (exact' invariant last).mpr (along before label t u start run last)

/-- Where the guard tells of each step whether it keeps the invariant, that holds in every
state of a run exactly if the guard lets all its steps through. -/
theorem always_iff (initial : Inv s)
    (exact' : ∀ {s label t}, Inv s → step s label t → (Inv t ↔ guard s label)) :
    (∀ before t, before <+: labels → Reaches step s before t → Inv t) ↔
      Along step s labels fun s label _ => guard s label := by
  have exactly : Along step s labels (fun _ _ t => Inv t) ↔ Along step s labels fun s label _ => guard s label :=
    along_iff initial exact' fun invariant admitted last => (exact' invariant last).mpr admitted
  rw [← exactly]
  constructor
  · intro always before label t u start run last
    exact always _ u start (run.next last)
  · intro along before t start run
    cases run with
    | refl => exact initial
    | next earlier last => exact along _ _ _ _ start earlier last

end Along

/-- An executor gives out on a sequence of labels exactly where it gives out on
one of them, after the ones before it. -/
theorem foldlM_eq_none {exec : S → L → Option S} {labels : List L} : labels.foldlM exec s = none ↔
    ∃ before label after t, labels = before ++ label :: after ∧ before.foldlM exec s = some t ∧
      exec t label = none := by
  induction labels generalizing s with
  | nil => simp
  | cons first rest ih =>
    rw [List.foldlM_cons]
    constructor
    · intro gaveOut
      cases stepped : exec s first with
      | none => exact ⟨[], first, rest, s, rfl, rfl, stepped⟩
      | some u =>
        simp only [stepped, Option.bind_eq_bind, Option.bind_some] at gaveOut
        obtain ⟨before, label, after, t, rfl, ran, stuck⟩ := ih.mp gaveOut
        refine ⟨first :: before, label, after, t, rfl, ?_, stuck⟩
        rw [List.foldlM_cons, stepped, Option.bind_eq_bind, Option.bind_some, ran]
    · rintro ⟨before, label, after, t, split, ran, stuck⟩
      cases before with
      | nil =>
        cases split
        cases ran
        rw [stuck, Option.bind_eq_bind, Option.bind_none]
      | cons _ before =>
        cases split
        rw [List.foldlM_cons, Option.bind_eq_bind, Option.bind_eq_some_iff] at ran
        obtain ⟨u, stepped, ran⟩ := ran
        rw [stepped, Option.bind_eq_bind, Option.bind_some]
        exact ih.mpr ⟨before, label, after, t, rfl, ran, stuck⟩

end Omnipresent.Transition
