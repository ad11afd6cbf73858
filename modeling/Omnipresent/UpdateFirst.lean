import Mathlib.Data.List.Basic

/-! Rewriting the first entry of a list that passes a test, as `iter_mut().find`
does, and finding the same entry again afterwards. -/
namespace Omnipresent
variable {α : Type*}

/-- The list with its first match rewritten, or `none` without a match. -/
def updateFirst (test : α → Bool) (f : α → α) : List α → Option (List α)
  | [] => none
  | a :: rest =>
    if test a then some (f a :: rest) else (updateFirst test f rest).map (a :: ·)

variable {test : α → Bool} {f : α → α}

theorem updateFirst_eq_none : updateFirst test f l = none ↔ ∀ a ∈ l, test a = false := by
  induction l with
  | nil => simp [updateFirst]
  | cons a rest ih =>
    cases tested : test a <;> simp [updateFirst, tested, ih]

theorem updateFirst_eq_some (found : updateFirst test f l = some l') :
    ∃ before a after, l = before ++ a :: after ∧ l' = before ++ f a :: after ∧
      test a = true ∧ ∀ b ∈ before, test b = false := by
  induction l generalizing l' with
  | nil => simp [updateFirst] at found
  | cons a rest ih =>
    cases tested : test a with
    | true =>
      simp only [updateFirst, tested, if_true, Option.some.injEq] at found
      exact ⟨[], a, rest, rfl, found.symm, tested, by simp⟩
    | false =>
      simp only [updateFirst, tested, Bool.false_eq_true, if_false, Option.map_eq_some_iff] at found
      obtain ⟨updated, later, rfl⟩ := found
      obtain ⟨before, b, after, rfl, rfl, hit, misses⟩ := ih later
      refine ⟨a :: before, b, after, rfl, rfl, hit, ?_⟩
      intro c member
      rcases List.mem_cons.mp member with rfl | member
      · exact tested
      · exact misses c member

end Omnipresent
