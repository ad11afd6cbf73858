import Mathlib.Data.Nat.Init
import Mathlib.Order.Nat
import Omnipresent.Transition

/-! Endless runs of a labelled system, and what is bound to happen in them. Nothing here
depends on what the states or the labels are. -/
namespace Omnipresent.Transition
variable {S L : Type*} {step : S → L → S → Prop}

/-- An endless run. Anything may take its time, so that at some moments nothing happens. -/
structure Execution (step : S → L → S → Prop) where
  state : ℕ → S
  label : ℕ → Option L
  idles : label n = none → state (n + 1) = state n
  steps : label n = some happening → step (state n) happening (state (n + 1))

namespace Execution
variable {run : Execution step} {P Done : S → Prop} {A : L → Prop}

theorem always (initial : P (run.state n))
    (kept : ∀ {k label}, n ≤ k → run.label k = some label → P (run.state k) → P (run.state (k + 1)))
    (later : n ≤ m) : P (run.state m) := by
  induction m, later using Nat.le_induction with
  | base => exact initial
  | succ k later ih =>
    cases happening : run.label k with
    | none => exact run.idles happening ▸ ih
    | some label => exact kept later happening ih

/-- What lasts until something awaited happens is still so right before that. -/
theorem awaits (due : ∃ m ≥ n, ∃ label, run.label m = some label ∧ A label) (initial : P (run.state n))
    (lasts : ∀ {k label}, run.label k = some label → ¬ A label → P (run.state k) → P (run.state (k + 1))) :
    ∃ m ≥ n, ∃ label, run.label m = some label ∧ A label ∧ P (run.state m) := by
  obtain ⟨m, later, label, happening, here⟩ := due
  obtain ⟨distance, rfl⟩ := Nat.exists_eq_add_of_le later
  induction distance generalizing n with
  | zero => exact ⟨n, le_rfl, label, happening, here, initial⟩
  | succ distance ih =>
    by_cases now : ∃ first, run.label n = some first ∧ A first
    · obtain ⟨first, happening, here⟩ := now
      exact ⟨n, le_rfl, first, happening, here, initial⟩
    · have next : P (run.state (n + 1)) := by
        cases first : run.label n with
        | none => exact run.idles first ▸ initial
        | some other => exact lasts first (fun here => now ⟨other, first, here⟩) initial
      rw [← Nat.succ_add_eq_add_succ] at happening
      obtain ⟨m, later, found⟩ := ih next (Nat.le_add_right _ _) happening
      exact ⟨m, (Nat.le_succ n).trans later, found⟩

/-- The progress rule: what always comes closer again, by some measure until it is done, gets there. -/
theorem arrives (measure : S → ℕ)
    (closer : ∀ {k}, n ≤ k → P (run.state k) → Done (run.state k) ∨
      ∃ m ≥ k, P (run.state m) ∧ measure (run.state m) < measure (run.state k))
    (initial : P (run.state n)) : ∃ m ≥ n, P (run.state m) ∧ Done (run.state m) := by
  suffices ∀ {k}, n ≤ k → P (run.state k) → ∃ m ≥ k, P (run.state m) ∧ Done (run.state m) from this le_rfl initial
  intro k later here
  induction remaining : measure (run.state k) using Nat.strongRecOn generalizing k with
  | _ distance ih =>
    rcases closer later here with done | ⟨m, after, there, less⟩
    · exact ⟨k, le_rfl, here, done⟩
    · obtain ⟨last, afterwards, arrived⟩ := ih _ (remaining ▸ less) (later.trans after) there rfl
      exact ⟨last, after.trans afterwards, arrived⟩

/-- An evaluated run, after which nothing happens any more. -/
def idling {exec : S → L → Option S} (sound : ∀ {s label t}, exec s label = some t → step s label t) (s : S)
    (labels : List L) (ran : (labels.foldlM exec s).isSome) : Execution step where
  state n := ((labels.take n).foldlM exec s).getD s
  label n := labels[n]?
  idles {n} passed := by
    have short := List.getElem?_eq_none_iff.mp passed
    rw [List.take_of_length_le short, List.take_of_length_le (short.trans (Nat.le_succ n))]
  steps {n label} happening := by
    obtain ⟨last, ran⟩ := Option.isSome_iff_exists.mp ran
    have taken : labels.take (n + 1) = labels.take n ++ [label] := by
      rw [List.take_add_one, happening, Option.toList_some]
    rw [← List.take_append_drop (n + 1) labels, taken, List.append_assoc, List.foldlM_append,
      Option.bind_eq_bind, Option.bind_eq_some_iff] at ran
    obtain ⟨here, before, rest⟩ := ran
    rw [List.singleton_append, List.foldlM_cons, Option.bind_eq_bind, Option.bind_eq_some_iff] at rest
    obtain ⟨there, stepped, _⟩ := rest
    rw [taken, List.foldlM_append, before]
    simpa [stepped] using sound stepped

theorem idling_state {exec : S → L → Option S} (sound : ∀ {s label t}, exec s label = some t → step s label t)
    {labels : List L} (ran : (labels.foldlM exec s).isSome) (done : labels.length ≤ n) :
    (idling sound s labels ran).state n = (labels.foldlM exec s).get ran := by
  simp only [idling, List.take_of_length_le done]
  exact (Option.get_eq_getD _).symm

end Execution
end Omnipresent.Transition
