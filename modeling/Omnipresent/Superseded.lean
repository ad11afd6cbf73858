import Mathlib.Data.List.Chain
import Mathlib.Data.List.Induction

/-! Queues in which some entries supersede those like them right before: what the others
mean depends on the last of these before each, and taking the superseded ones out
leaves that alone, however the queue is cut up. -/
namespace Omnipresent.Superseded
variable {α : Type} {p : α → Bool} {out : List α} {a : α}

/-- An entry at the end of a queue, in place of the last one if that is superseded. -/
def push (p : α → Bool) (out : List α) (a : α) : List α :=
  if p a && out.getLast?.any p then out.dropLast ++ [a] else out ++ [a]

def collapse (p : α → Bool) (queue : List α) : List α := queue.foldl (push p) []

theorem collapse_append (queue : List α) (a : α) : collapse p (queue ++ [a]) = push p (collapse p queue) a := by
  rw [collapse, List.foldl_append]
  rfl

/-- What an entry follows is superseded, and goes, or it is put behind it. -/
theorem push_cases (p : α → Bool) (out : List α) (a : α) :
    (∃ front last, out = front ++ [last] ∧ p last = true ∧ p a = true ∧ push p out a = front ++ [a]) ∨
      ((p a = true → ∀ last ∈ out.getLast?, p last = false) ∧ push p out a = out ++ [a]) := by
  rw [push]
  split
  · rename_i both
    obtain ⟨own, found⟩ := Bool.and_eq_true_iff.mp both
    obtain ⟨last, isLast, superseded⟩ := (Option.any_eq_true p _).mp found
    obtain ⟨front, rfl⟩ := List.getLast?_eq_some_iff.mp isLast
    exact .inl ⟨front, last, rfl, superseded, own, by rw [List.dropLast_concat]⟩
  · rename_i either
    refine .inr ⟨fun own last isLast => ?_, rfl⟩
    rw [Option.mem_def] at isLast
    rw [own, isLast, Option.any_some, Bool.true_and] at either
    exact Bool.eq_false_iff.mpr either

/-- No two such entries are left side by side. -/
theorem collapse_isChain (queue : List α) :
    (collapse p queue).IsChain fun first second => ¬ (p first = true ∧ p second = true) := by
  induction queue using List.reverseRecOn with
  | nil => exact .nil
  | append_singleton queue a ih =>
    rw [collapse_append]
    obtain ⟨front, last, split, superseded, own, pushed⟩ | ⟨apart, pushed⟩ := push_cases p (collapse p queue) a
    · -- The one put in takes the place of one like it.
      rw [split, List.isChain_append] at ih
      rw [pushed, List.isChain_append]
      refine ⟨ih.1, .singleton _, fun before isLast first isFirst => ?_⟩
      cases isFirst
      rintro ⟨earlier, _⟩
      exact ih.2.2 before isLast last rfl ⟨earlier, superseded⟩
    · rw [pushed, List.isChain_append]
      refine ⟨ih, .singleton _, fun last isLast first isFirst => ?_⟩
      cases isFirst
      rintro ⟨superseded, own⟩
      rw [apart own last isLast] at superseded
      cases superseded

/-- The other entries, each with the last such entry before it, and the last one of all. -/
structure Placed (α : Type) where
  entries : List (Option α × α)
  latest : Option α

def Placed.mark (p : α → Bool) (placed : Placed α) (a : α) : Placed α :=
  if p a then { placed with latest := some a } else { placed with entries := placed.entries ++ [(placed.latest, a)] }

def placed (p : α → Bool) (queue : List α) : Placed α := queue.foldl (Placed.mark p) ⟨[], none⟩

theorem foldl_push (before : Placed α) (out : List α) (a : α) :
    (push p out a).foldl (Placed.mark p) before = (out ++ [a]).foldl (Placed.mark p) before := by
  obtain ⟨front, last, rfl, superseded, own, pushed⟩ | ⟨_, pushed⟩ := push_cases p out a
  · rw [pushed]
    simp only [List.foldl_append, List.foldl_cons, List.foldl_nil, Placed.mark, superseded, own, if_true]
  · rw [pushed]

/-- Whatever came before a queue, collapsed it means the same. -/
theorem foldl_collapse (before : Placed α) (queue : List α) :
    (collapse p queue).foldl (Placed.mark p) before = queue.foldl (Placed.mark p) before := by
  induction queue using List.reverseRecOn with
  | nil => rfl
  | append_singleton queue a ih =>
    rw [collapse_append, foldl_push, List.foldl_append, List.foldl_append, ih]

theorem placed_collapse (queue : List α) : placed p (collapse p queue) = placed p queue := foldl_collapse _ queue

/-- So it does where it is collapsed piece by piece. -/
theorem placed_pieces (pieces : List (List α)) :
    placed p (pieces.map (collapse p)).flatten = placed p pieces.flatten := by
  have each : ∀ before : Placed α, (pieces.map (collapse p)).flatten.foldl (Placed.mark p) before =
      pieces.flatten.foldl (Placed.mark p) before := by
    induction pieces with
    | nil => exact fun _ => rfl
    | cons piece rest ih =>
      intro before
      rw [List.map_cons, List.flatten_cons, List.flatten_cons, List.foldl_append, List.foldl_append, foldl_collapse,
      ih]
  exact each _

theorem entries_placed (queue : List α) : (placed p queue).entries.map Prod.snd = queue.filter (!p ·) := by
  induction queue using List.reverseRecOn with
  | nil => rfl
  | append_singleton queue a ih =>
    rw [placed, List.foldl_append, List.filter_append, ← ih, placed]
    change (Placed.mark p _ a).entries.map _ = _
    rw [Placed.mark]
    cases own : p a with
    | true => simp [own]
    | false => simp [own]

theorem filter_collapse (queue : List α) : (collapse p queue).filter (!p ·) = queue.filter (!p ·) := by
  rw [← entries_placed, placed_collapse, entries_placed]

section UpTo
variable {stop : α → Bool} {queue : List α}

/-- A queue read up to and with the first entry that ends it. -/
def upTo (stop : α → Bool) : List α → List α
  | [] => []
  | a :: rest => if stop a then [a] else a :: upTo stop rest

theorem upTo_append_open (open' : ∀ a ∈ queue, stop a = false) (more : List α) :
    upTo stop (queue ++ more) = queue ++ upTo stop more := by
  induction queue with
  | nil => rfl
  | cons a rest ih =>
    rw [List.cons_append, upTo, open' a (List.mem_cons_self ..), 
      ih fun b member => open' b (List.mem_cons_of_mem _ member)]
    rfl

theorem upTo_concat_open (open' : ∀ a ∈ queue, stop a = false) (a : α) : upTo stop (queue ++ [a]) = queue ++ [a] := by
  rw [upTo_append_open open', upTo, upTo, ite_self]

theorem upTo_append_ended (member : a ∈ queue) (ends : stop a = true) (more : List α) :
    upTo stop (queue ++ more) = upTo stop queue := by
  induction queue with
  | nil => cases member
  | cons first rest ih =>
    rw [List.cons_append, upTo, upTo]
    split
    · rfl
    · rename_i goesOn
      rcases List.mem_cons.mp member with rfl | later
      · exact absurd ends goesOn
      · rw [ih later]

theorem open_or_ended (stop : α → Bool) (queue : List α) :
    (∀ a ∈ queue, stop a = false) ∨ ∃ a ∈ queue, stop a = true := by
  rw [or_iff_not_imp_right]
  intro goesOn a member
  exact Bool.eq_false_iff.mpr fun ends => goesOn ⟨a, member, ends⟩

theorem mem_collapse (lasting : p a = false) : a ∈ collapse p queue ↔ a ∈ queue := by
  have same : a ∈ (collapse p queue).filter (!p ·) ↔ a ∈ queue.filter (!p ·) := by rw [filter_collapse]
  simpa [lasting] using same

theorem collapse_open (lasting : ∀ a, stop a = true → p a = false) (open' : ∀ a ∈ queue, stop a = false) :
    ∀ a ∈ collapse p queue, stop a = false := by
  intro a member
  refine Bool.eq_false_iff.mpr fun ends => ?_
  exact Bool.false_ne_true ((open' a ((mem_collapse (lasting a ends)).mp member)).symm.trans ends)

/-- Reading up to the end and collapsing go either way round. -/
theorem upTo_collapse (lasting : ∀ a, stop a = true → p a = false) (queue : List α) :
    upTo stop (collapse p queue) = collapse p (upTo stop queue) := by
  induction queue using List.reverseRecOn with
  | nil => rfl
  | append_singleton queue a ih =>
    rcases open_or_ended stop queue with goesOn | ⟨b, member, ends⟩
    · have collapsed := collapse_open lasting goesOn
      rw [upTo_concat_open goesOn, collapse_append]
      obtain ⟨front, last, split, _, _, pushed⟩ | ⟨_, pushed⟩ := push_cases p (collapse p queue) a
      · rw [split] at collapsed
        rw [pushed, upTo_concat_open fun b member => collapsed b (List.mem_append_left _ member)]
      · rw [pushed, upTo_concat_open collapsed]
    · rw [upTo_append_ended member ends, ← ih, collapse_append]
      have ended := (mem_collapse (lasting b ends)).mpr member
      obtain ⟨front, last, split, superseded, _, pushed⟩ | ⟨_, pushed⟩ := push_cases p (collapse p queue) a
      · have inFront : b ∈ front := by
          rw [split] at ended
          rcases List.mem_append.mp ended with inFront | isLast
          · exact inFront
          · rw [← List.mem_singleton.mp isLast, lasting b ends] at superseded
            cases superseded
        rw [pushed, split, upTo_append_ended inFront ends, upTo_append_ended inFront ends]
      · rw [pushed, upTo_append_ended ended ends]

/-- However the queue is cut up, collapsing its pieces leaves alone what it means up to its end. -/
theorem placed_upTo_pieces (lasting : ∀ a, stop a = true → p a = false) (pieces : List (List α)) :
    placed p (upTo stop (pieces.map (collapse p)).flatten) = placed p (upTo stop pieces.flatten) := by
  have each : ∀ before : Placed α, (upTo stop (pieces.map (collapse p)).flatten).foldl (Placed.mark p) before =
      (upTo stop pieces.flatten).foldl (Placed.mark p) before := by
    induction pieces with
    | nil => exact fun _ => rfl
    | cons piece rest ih =>
      intro before
      rw [List.map_cons, List.flatten_cons, List.flatten_cons]
      rcases open_or_ended stop piece with goesOn | ⟨b, member, ends⟩
      · rw [upTo_append_open goesOn, upTo_append_open (collapse_open lasting goesOn), List.foldl_append,
          List.foldl_append, foldl_collapse, ih]
      · rw [upTo_append_ended member ends, upTo_append_ended ((mem_collapse (lasting b ends)).mpr member) ends,
          upTo_collapse lasting, foldl_collapse]
  exact each _

end UpTo

end Omnipresent.Superseded
