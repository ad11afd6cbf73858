import Mathlib.Algebra.Order.Ring.Int
import Mathlib.Algebra.Order.Ring.Nat

/-! Machine arithmetic whose failures are panics: `none` is a panic, as an
overflow is in a checked build, a subtraction below zero, or a clamp between
bounds that have crossed. -/
namespace Omnipresent.Checked

/-- An `i64` result, or the panic of an overflow. -/
def i64 (value : Int) : Option Int :=
  if -2 ^ 63 ≤ value ∧ value < 2 ^ 63 then some value else none

def i32 (value : Int) : Option Int :=
  if -2 ^ 31 ≤ value ∧ value < 2 ^ 31 then some value else none

def mulU64 (a b : Nat) : Option Nat := if a * b < 2 ^ 64 then some (a * b) else none

def mul (bits a b : Nat) : Option Nat := if a * b < 2 ^ bits then some (a * b) else none

def sub (a b : Nat) : Option Nat := if b ≤ a then some (a - b) else none

/-- Division by zero panics; a signed quotient truncates towards zero. -/
def div (a b : Nat) : Option Nat := if b = 0 then none else some (a / b)

def tdiv (a : Int) (b : Nat) : Option Int := if b = 0 then none else some (a.tdiv b)

def divI32 (a b : Int) : Option Int := if b = 0 then none else i32 (a.tdiv b)

/-- `Ord::clamp`, which asserts that its bounds are in order. -/
def clamp (value lo hi : Int) : Option Int :=
  if lo ≤ hi then some (max lo (min value hi)) else none

theorem i64_of_mem (lower : -2 ^ 63 ≤ value) (upper : value < 2 ^ 63) : i64 value = some value :=
  if_pos ⟨lower, upper⟩

theorem i32_of_mem (lower : -2 ^ 31 ≤ value) (upper : value < 2 ^ 31) : i32 value = some value :=
  if_pos ⟨lower, upper⟩

theorem mulU64_of_lt (fits : a * b < 2 ^ 64) : mulU64 a b = some (a * b) := if_pos fits

theorem mul_eq_some : mul bits a b = some product ↔ product = a * b ∧ a * b < 2 ^ bits := by
  rw [mul, Option.ite_none_right_eq_some, Option.some.injEq, eq_comm, and_comm]

theorem sub_of_le (smaller : b ≤ a) : sub a b = some (a - b) := if_pos smaller

theorem div_of_pos (positive : 0 < b) : div a b = some (a / b) := if_neg (by omega)

theorem tdiv_of_pos (positive : 0 < b) : tdiv a b = some (a.tdiv b) := if_neg (by omega)

theorem divI32_of_mem (nonzero : b ≠ 0) (lower : -2 ^ 31 ≤ a.tdiv b) (upper : a.tdiv b < 2 ^ 31) :
    divI32 a b = some (a.tdiv b) := by
  rw [divI32, if_neg nonzero, i32_of_mem lower upper]

theorem clamp_of_le (ordered : lo ≤ hi) : clamp value lo hi = some (max lo (min value hi)) :=
  if_pos ordered

theorem clamp_eq_none : clamp value lo hi = none ↔ hi < lo := by
  rw [clamp]
  split <;> simp <;> omega

/-- Of two clamps in a row, either one's bounds may have crossed. -/
theorem clamp_clamp_eq_none {lastX lastY : Int} (crossed : lastX < 0 ∨ lastY < 0) (x y : Int)
    (f : Int → Int → Option α) :
    ((clamp x 0 lastX).bind fun x => (clamp y 0 lastY).bind fun y => f x y) = none := by
  rcases crossed with narrow | flat
  · rw [clamp_eq_none.mpr narrow, Option.bind_none]
  · simp only [clamp_eq_none.mpr flat, Option.bind_none, Option.bind_fun_none]

/-- Factors of 31 and 32 bits never overflow an `i64`. -/
theorem mul_mem_i64 {a : Int} {b : Nat} (lower : -2 ^ 31 ≤ a) (upper : a ≤ 2 ^ 31) (bound : b < 2 ^ 32) :
    -2 ^ 63 ≤ a * b ∧ a * b < 2 ^ 63 := by
  have magnitude : (b : Int) ≤ 2 ^ 32 - 1 := by omega
  constructor
  · calc (-2 ^ 63 : Int) ≤ -2 ^ 31 * (2 ^ 32 - 1) := by decide
      _ ≤ -2 ^ 31 * b := Int.mul_le_mul_of_nonpos_left (by decide) magnitude
      _ ≤ a * b := Int.mul_le_mul_of_nonneg_right lower (by omega)
  · calc a * b ≤ 2 ^ 31 * b := Int.mul_le_mul_of_nonneg_right upper (by omega)
      _ ≤ 2 ^ 31 * (2 ^ 32 - 1) := Int.mul_le_mul_of_nonneg_left magnitude (by decide)
      _ < 2 ^ 63 := by decide

theorem mul_mem_i64_of_i32 {a b : Int} (small : a.natAbs ≤ 2 ^ 31) (small' : b.natAbs ≤ 2 ^ 31) :
    -2 ^ 63 ≤ a * b ∧ a * b < 2 ^ 63 := by
  have magnitude : (a * b).natAbs ≤ 2 ^ 31 * 2 ^ 31 := by
    rw [Int.natAbs_mul]
    exact Nat.mul_le_mul small small'
  omega

theorem mul_lt_u64 {a b : Nat} (boundA : a < 2 ^ 32) (boundB : b < 2 ^ 32) : a * b < 2 ^ 64 :=
  calc a * b < 2 ^ 32 * 2 ^ 32 := Nat.mul_lt_mul'' boundA boundB
    _ = 2 ^ 64 := by decide

end Omnipresent.Checked
