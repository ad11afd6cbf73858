import Mathlib.Data.List.Chain

/-! Entries that go on from the ones before them, or start anew: how many of the last ones are
of one streak. Nothing here depends on what going on means. -/
namespace Omnipresent
variable {α : Type} {R : α → α → Prop} {entries : List α} {last next : α} {count : Nat}

/-- The last so many entries, one at least, each go on from the one before, and the first of them
does not. -/
def Streak (R : α → α → Prop) (entries : List α) (count : Nat) : Prop :=
  ∃ before first rest, entries = before ++ first :: rest ∧ rest.length + 1 = count ∧ (first :: rest).IsChain R ∧
    ∀ last ∈ before.getLast?, ¬ R last first

namespace Streak

theorem ne_zero (streak : Streak R entries count) : count ≠ 0 := by
  obtain ⟨before, first, rest, _, rfl, _⟩ := streak
  exact Nat.succ_ne_zero _

theorem first (entry : α) : Streak R [entry] 1 :=
  ⟨[], entry, [], rfl, rfl, .singleton _, nofun⟩

theorem anew (ended : entries.getLast? = some last) (apart : ¬ R last next) : Streak R (entries ++ [next]) 1 := by
  refine ⟨entries, next, [], rfl, rfl, .singleton _, fun last' isLast => ?_⟩
  cases ended.symm.trans isLast
  exact apart

theorem goOn (streak : Streak R entries count) (ended : entries.getLast? = some last) (goes : R last next) :
    Streak R (entries ++ [next]) (count + 1) := by
  obtain ⟨before, first, rest, rfl, rfl, chain, apart⟩ := streak
  refine ⟨before, first, rest ++ [next], ?_, ?_, ?_, apart⟩
  · rw [List.append_assoc, List.cons_append]
  · rw [List.length_append, List.length_singleton]
  · rw [List.getLast?_append_of_ne_nil _ (List.cons_ne_nil _ _)] at ended
    rw [← List.cons_append]
    refine List.isChain_append.mpr ⟨chain, .singleton _, fun x isLast y isNext => ?_⟩
    cases ended.symm.trans isLast
    cases isNext
    exact goes

end Streak

end Omnipresent
