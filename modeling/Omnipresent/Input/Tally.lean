import Omnipresent.Checked
import Omnipresent.Input.Scroll

/-! What a scale keeps of everything it was ever given: the wholes it gave out and the rest
it still has, however the values change sign, and no step of it can fail. -/
namespace Omnipresent
open Transition

/-- What a truncating division leaves is on the dividend's side of zero. -/
theorem tmod_between (a b : Int) :
    (0 ≤ a → 0 ≤ a.tmod b ∧ a.tmod b ≤ a) ∧ (a ≤ 0 → a ≤ a.tmod b ∧ a.tmod b ≤ 0) := by
  have part : (a.tmod b).natAbs ≤ a.natAbs := by
    rw [Int.natAbs_tmod]
    exact Nat.mod_le _ _
  constructor
  · intro natural
    have same := Int.tmod_nonneg b natural
    omega
  · intro negative
    have same := Int.tmod_nonneg b (Int.neg_nonneg_of_nonpos negative)
    rw [Int.neg_tmod] at same
    omega

namespace Scaled

/-- The same call where every operation that could fail is checked. -/
def takeChecked (self : Scaled) (value numerator denominator : Int32) : Option (Int32 × Scaled) :=
  if denominator ≤ 0 then some (0, self)
  else do
    let scaled ← Checked.i64 (value.toInt * numerator.toInt)
    let clamped ← Checked.clamp (saturatingAddI64 self.pending.toInt scaled) (-2 ^ 31) (2 ^ 31 - 1)
    let pending := Int32.ofInt clamped
    let whole ← Checked.divI32 pending.toInt denominator.toInt
    let taken ← Checked.i32 (whole * denominator.toInt)
    let left ← Checked.i32 (pending.toInt - taken)
    some (Int32.ofInt whole, ⟨Int32.ofInt left⟩)

/-- Nothing overflows and nothing is divided by zero, whatever the values. -/
theorem takeChecked_eq (self : Scaled) (value numerator denominator : Int32) :
    self.takeChecked value numerator denominator = some (self.take value numerator denominator) := by
  rw [takeChecked, take]
  split
  · rfl
  · rename_i above
    have positive : 0 < denominator.toInt := by
      rw [Int32.le_iff_toInt_le, Int32.toInt_zero] at above
      omega
    have lower := value.le_toInt
    have upper := value.toInt_lt
    have lower' := numerator.le_toInt
    have upper' := numerator.toInt_lt
    obtain ⟨low, high⟩ := Checked.mul_mem_i64_of_i32 (show value.toInt.natAbs ≤ 2 ^ 31 by omega)
      (show numerator.toInt.natAbs ≤ 2 ^ 31 by omega)
    rw [Checked.i64_of_mem low high, Option.bind_eq_bind, Option.bind_some, Checked.clamp_of_le (by omega),
      Option.bind_some, Int.min_comm]
    dsimp only
    generalize Int32.ofInt _ = pending
    obtain ⟨whole, rest⟩ := toInt_div_mul pending positive
    have quotient : -2 ^ 31 ≤ pending.toInt.tdiv denominator.toInt ∧
        pending.toInt.tdiv denominator.toInt < 2 ^ 31 := by
      rw [← whole]
      exact ⟨Int32.le_toInt _, Int32.toInt_lt _⟩
    have split := Int.tdiv_mul_add_tmod pending.toInt denominator.toInt
    obtain ⟨natural, negative⟩ := tmod_between pending.toInt denominator.toInt
    have lowest := pending.le_toInt
    have highest := pending.toInt_lt
    have left : pending.toInt - pending.toInt.tdiv denominator.toInt * denominator.toInt =
        pending.toInt.tmod denominator.toInt := by omega
    rw [Checked.divI32_of_mem (by omega) quotient.1 quotient.2, Option.bind_some,
      Checked.i32_of_mem (by omega) (by omega), Option.bind_some, left, Checked.i32_of_mem (by omega) (by omega),
      Option.bind_some, ← whole, ← rest, Int32.ofInt_toInt, Int32.ofInt_toInt]

theorem take_short (self : Scaled) (value numerator : Int32) (positive : 0 < denominator.toInt) :
    (self.take value numerator denominator).2.pending.toInt.natAbs < denominator.toInt.natAbs := by
  have above : ¬ denominator ≤ 0 := by
    rw [Int32.le_iff_toInt_le, Int32.toInt_zero]
    omega
  rw [take, if_neg above]
  dsimp only
  rw [(toInt_div_mul _ positive).2, Int.natAbs_tmod]
  exact Nat.mod_lt _ (by omega)

end Scaled

/-- A scale with all it has been given and all it has given out. -/
structure Tally where
  scaled : Scaled
  taken : Int
  given : Int
deriving DecidableEq, Repr

namespace Tally

def start : Tally := ⟨.new, 0, 0⟩

def take (self : Tally) (numerator denominator value : Int32) : Tally :=
  let (whole, scaled) := self.scaled.take value numerator denominator
  ⟨scaled, self.taken + value.toInt, self.given + whole.toInt⟩

/-- What has been given is what went out and what is left, which is less than one of what
goes out. -/
structure Even (numerator denominator : Int32) (tally : Tally) : Prop where
  conserved : tally.given * denominator.toInt + tally.scaled.pending.toInt = numerator.toInt * tally.taken
  short : tally.scaled.pending.toInt.natAbs < denominator.toInt.natAbs

variable {numerator denominator : Int32} {tally : Tally}

theorem Even.take (even : tally.Even numerator denominator) (positive : 0 < denominator.toInt)
    (fits : tally.scaled.Fits value numerator) :
    (tally.take numerator denominator value).Even numerator denominator := by
  obtain ⟨exact', short⟩ := Scaled.take_exact fits positive
  have before := even.conserved
  refine ⟨?_, short⟩
  have turned := Int.mul_comm denominator.toInt (tally.scaled.take value numerator denominator).1.toInt
  simp only [Tally.take, Int.add_mul, Int.mul_add]
  omega

/-- Of every sequence of values none of which is clamped nothing is lost, after each of
them, and no call ever fails or leaves as much as one of what goes out. -/
theorem take_conserves (numerator denominator : Int32) :
    (0 < denominator.toInt → ∀ values tally,
      Reaches (guarded (fun s value t => t = s.take numerator denominator value)
          fun s value => s.scaled.Fits value numerator) start values tally →
        tally.given * denominator.toInt + tally.scaled.pending.toInt = numerator.toInt * tally.taken ∧
          tally.scaled.pending.toInt.natAbs < denominator.toInt.natAbs) ∧
    ∀ (scaled : Scaled) value, ∃ whole left, scaled.takeChecked value numerator denominator = some (whole, left) ∧
      scaled.take value numerator denominator = (whole, left) ∧
        (0 < denominator.toInt → left.pending.toInt.natAbs < denominator.toInt.natAbs) := by
  constructor
  · intro positive values tally run
    have even : tally.Even numerator denominator := by
      refine run.invariant ?_ ⟨by simp [start, Scaled.new], ?_⟩
      · rintro s value t before ⟨fits, rfl⟩
        exact before.take positive fits
      · exact Int.natAbs_pos.mpr (by omega)
    exact ⟨even.conserved, even.short⟩
  · intro scaled value
    exact ⟨_, _, scaled.takeChecked_eq value numerator denominator, rfl, scaled.take_short value numerator⟩

end Tally
end Omnipresent
