import Mathlib.Logic.Basic

/-! One bit of a word: when a mask of it finds it set, and what setting, clearing and turning
it leaves of the others. -/
namespace Omnipresent.Bits
variable {w i : Nat}

theorem twoPow_ne_zero (inside : i < w) : BitVec.twoPow w i ≠ 0#w := by
  intro zero
  have set := BitVec.getLsbD_twoPow (w := w) i i
  rw [zero, BitVec.getLsbD_zero, decide_eq_true inside, decide_eq_true rfl] at set
  cases set

/-- A mask of one bit finds it alone, or nothing. -/
theorem and_twoPow_iff (inside : i < w) (x : BitVec w) :
    (x &&& BitVec.twoPow w i = BitVec.twoPow w i ↔ x.getLsbD i = true) ∧
      (x &&& BitVec.twoPow w i ≠ 0#w ↔ x.getLsbD i = true) := by
  have nonzero := twoPow_ne_zero inside
  rw [BitVec.and_twoPow]
  cases x.getLsbD i with
  | true => exact ⟨iff_of_true rfl rfl, iff_of_true nonzero rfl⟩
  | false =>
    exact ⟨iff_of_false nonzero.symm Bool.false_ne_true, iff_of_false (not_not_intro rfl) Bool.false_ne_true⟩

theorem getLsbD_or_twoPow (inside : i < w) (x : BitVec w) (j : Nat) :
    (x ||| BitVec.twoPow w i).getLsbD j = (x.getLsbD j || decide (i = j)) := by
  rw [BitVec.getLsbD_or, BitVec.getLsbD_twoPow, decide_eq_true inside, Bool.true_and]

theorem getLsbD_and_not_twoPow (inside : i < w) (x : BitVec w) (j : Nat) :
    (x &&& ~~~BitVec.twoPow w i).getLsbD j = (x.getLsbD j && !decide (i = j)) := by
  rw [BitVec.getLsbD_and, BitVec.getLsbD_not, BitVec.getLsbD_twoPow, decide_eq_true inside, Bool.true_and]
  by_cases within : j < w
  · rw [decide_eq_true within, Bool.true_and]
  · rw [BitVec.getLsbD_of_ge x j (Nat.le_of_not_lt within), Bool.false_and, Bool.false_and]

/-- Clearing a bit that is set and setting one that is clear turn it, and no other. -/
theorem getLsbD_turned (inside : i < w) (x : BitVec w) (j : Nat) :
    (if x.getLsbD i then x &&& ~~~BitVec.twoPow w i else x ||| BitVec.twoPow w i).getLsbD j =
      (x.getLsbD j ^^ decide (i = j)) := by
  by_cases same : i = j
  · subst same
    cases set : x.getLsbD i <;>
      simp [getLsbD_or_twoPow inside, getLsbD_and_not_twoPow inside, set]
  · cases x.getLsbD i <;>
      simp [getLsbD_or_twoPow inside, getLsbD_and_not_twoPow inside, same]

end Omnipresent.Bits
