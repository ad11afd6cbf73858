import Mathlib.Algebra.Order.Ring.Int
import Omnipresent.Protocol.Input
import Omnipresent.Transition

/-! Scroll distances in another unit: multiplied, divided, and what does not divide
evenly kept for the next one, so that nothing is lost on the way there and back. -/
namespace Omnipresent
open Transition

/-- What is left from earlier calls, in numerator units. -/
structure Scaled where
  pending : Int32
deriving DecidableEq, Repr

namespace Scaled

def new : Scaled := ⟨0⟩

/-- `i64::saturating_add`. -/
def saturatingAddI64 (a b : Int) : Int := max (-2 ^ 63) (min (2 ^ 63 - 1) (a + b))

/-- Adds `value * numerator` to what is pending and gives out how many whole
`denominator`s that makes; the rest stays. -/
def take (self : Scaled) (value numerator denominator : Int32) : Int32 × Scaled :=
  if denominator ≤ 0 then (0, self)
  else
    -- A product of two `i32`s is an `i64`.
    let scaled := value.toInt * numerator.toInt
    let pending := Int32.ofInt (max (-2 ^ 31) (min (2 ^ 31 - 1) (saturatingAddI64 self.pending.toInt scaled)))
    let whole := pending / denominator
    (whole, ⟨pending - whole * denominator⟩)

/-- What is pending then is an `i32` before it is clamped to one. -/
def Fits (self : Scaled) (value numerator : Int32) : Prop :=
  -2 ^ 31 ≤ self.pending.toInt + value.toInt * numerator.toInt ∧
    self.pending.toInt + value.toInt * numerator.toInt < 2 ^ 31

instance (self : Scaled) (value numerator : Int32) : Decidable (self.Fits value numerator) :=
  inferInstanceAs (Decidable (_ ∧ _))

theorem toInt_div_mul (pending : Int32) {denominator : Int32} (positive : 0 < denominator.toInt) :
    (pending / denominator).toInt = pending.toInt.tdiv denominator.toInt ∧
      (pending - pending / denominator * denominator).toInt = pending.toInt.tmod denominator.toInt := by
  have lower := pending.le_toInt
  have upper := pending.toInt_lt
  have apart : denominator ≠ -1 := by
    rintro rfl
    exact absurd positive (by decide)
  have whole := Int32.toInt_div_of_ne_right pending denominator apart
  have split := Int.mul_tdiv_add_tmod pending.toInt denominator.toInt
  have within : (denominator.toInt * pending.toInt.tdiv denominator.toInt).natAbs ≤ pending.toInt.natAbs := by
    rw [Int.natAbs_mul, Int.natAbs_tdiv]
    exact Nat.mul_div_le _ _
  have part : (pending.toInt.tmod denominator.toInt).natAbs ≤ pending.toInt.natAbs := by
    rw [Int.natAbs_tmod]
    exact Nat.mod_le _ _
  refine ⟨whole, ?_⟩
  have taken : (pending / denominator * denominator).toInt =
      denominator.toInt * pending.toInt.tdiv denominator.toInt := by
    rw [Int32.toInt_mul, whole, Int.mul_comm, Int.bmod_eq_of_le (by omega) (by omega)]
  rw [Int32.toInt_sub, taken, Int.bmod_eq_of_le (by omega) (by omega)]
  omega

/-- Nothing is lost unless it is clamped: what came in is what went out and what is left,
which is less than one of what goes out. -/
theorem take_exact {self : Scaled} {value numerator denominator : Int32} (fits : self.Fits value numerator)
    (positive : 0 < denominator.toInt) :
    numerator.toInt * value.toInt + self.pending.toInt =
        denominator.toInt * (self.take value numerator denominator).1.toInt +
          (self.take value numerator denominator).2.pending.toInt ∧
      (self.take value numerator denominator).2.pending.toInt.natAbs < denominator.toInt.natAbs := by
  obtain ⟨lower, upper⟩ := fits
  have above : ¬ denominator ≤ 0 := by
    rw [Int32.le_iff_toInt_le, Int32.toInt_zero]
    omega
  have unclamped : max (-2 ^ 31) (min (2 ^ 31 - 1) (saturatingAddI64 self.pending.toInt
      (value.toInt * numerator.toInt))) = self.pending.toInt + value.toInt * numerator.toInt := by
    rw [saturatingAddI64]
    omega
  have read := Int32.toInt_ofInt_of_le lower upper
  obtain ⟨whole, rest⟩ := toInt_div_mul (Int32.ofInt _) positive
  rw [read] at whole rest
  simp only [take, if_neg above, unclamped, whole, rest]
  refine ⟨?_, ?_⟩
  · rw [Int.mul_tdiv_add_tmod, Int.mul_comm, Int.add_comm]
  · rw [Int.natAbs_tmod]
    exact Nat.mod_lt _ (Int.natAbs_pos.mpr (by omega))

end Scaled

/-- One accumulator for each axis, so that neither borrows the other's leftover. -/
structure ScrollAccumulator where
  x : Scaled
  y : Scaled
deriving DecidableEq, Repr

def ScrollAccumulator.takeScaled (self : ScrollAccumulator) (delta : ScrollDelta)
    (numerator denominatorX denominatorY : Int32) : (Int32 × Int32) × ScrollAccumulator :=
  let (x, left) := self.x.take delta.dx numerator denominatorX
  let (y, left') := self.y.take delta.dy numerator denominatorY
  ((x, y), ⟨left, left'⟩)

/-- `MILLILINES_PER_LINE`. -/
def millilinesPerLine : Int32 := 1000

/-- `WHEEL_DELTA`: a notch of the wheel. -/
def wheelDelta : Int32 := 120

/-- `i32::saturating_mul`. -/
def saturatingMulI32 (a b : Int32) : Int32 := Int32.ofInt (max (-2 ^ 31) (min (2 ^ 31 - 1) (a.toInt * b.toInt)))

/-- How far one wheel event turned, in milli-lines, where a notch is so many lines. -/
def wheelMillilines (carry : Scaled) (mouseData : UInt32) (amountPerNotch : Int32) : Int32 × Scaled :=
  let raw := (mouseData >>> 16).toUInt16.toInt16.toInt32
  carry.take raw (saturatingMulI32 amountPerNotch millilinesPerLine) wheelDelta

def scrollMovement (scroll : ScrollAccumulator) (delta : ScrollDelta) (charsPerNotch linesPerNotch : Int32) :
    (Int32 × Int32) × ScrollAccumulator :=
  scroll.takeScaled delta wheelDelta (saturatingMulI32 millilinesPerLine charsPerNotch)
    (saturatingMulI32 millilinesPerLine linesPerNotch)

/-- A wheel at one end and the scrolling injected at the other, with how far either has
turned altogether. -/
structure Trip where
  captured : Scaled
  injected : Scaled
  turned : Int
  moved : Int
deriving DecidableEq, Repr

namespace Trip

def start : Trip := ⟨.new, .new, 0, 0⟩

/-- A wheel event from one end to the other, both with so many lines to a notch; a
distance of nothing is not sent. -/
def wheel (self : Trip) (lines raw : Int32) : Trip :=
  let taken := self.captured.take raw (lines * millilinesPerLine) wheelDelta
  let turned := self.turned + raw.toInt
  if taken.1 = 0 then { self with captured := taken.2, turned }
  else
    let given := self.injected.take taken.1 wheelDelta (lines * millilinesPerLine)
    ⟨taken.2, given.2, turned, self.moved + given.1.toInt⟩

/-- Nothing is clamped at either end. -/
def Unclamped (self : Trip) (lines raw : Int32) : Prop :=
  let sent := (self.captured.take raw (lines * millilinesPerLine) wheelDelta).1
  self.captured.Fits raw (lines * millilinesPerLine) ∧ (sent ≠ 0 → self.injected.Fits sent wheelDelta)

instance (self : Trip) (lines raw : Int32) : Decidable (self.Unclamped lines raw) :=
  inferInstanceAs (Decidable (_ ∧ (_ → _)))

/-- With so many milli-lines to a notch and so many of them sent, each end has done all
but less than one of its units. -/
structure Balanced (perNotch : Int) (sent : Int) (trip : Trip) : Prop where
  captured : perNotch * trip.turned = 120 * sent + trip.captured.pending.toInt
  injected : 120 * sent = perNotch * trip.moved + trip.injected.pending.toInt
  short : trip.captured.pending.toInt.natAbs < 120
  short' : trip.injected.pending.toInt.natAbs < perNotch.natAbs

variable {trip : Trip} {lines : Int32}

theorem toInt_lines (lower : 1 ≤ lines.toInt) (upper : lines.toInt ≤ 100) :
    (lines * millilinesPerLine).toInt = lines.toInt * 1000 := by
  rw [Int32.toInt_mul, show millilinesPerLine.toInt = 1000 from rfl, Int.bmod_eq_of_le (by omega) (by omega)]

theorem saturatingMulI32_lines (lower : 1 ≤ lines.toInt) (upper : lines.toInt ≤ 100) :
    saturatingMulI32 lines millilinesPerLine = lines * millilinesPerLine ∧
      saturatingMulI32 millilinesPerLine lines = lines * millilinesPerLine := by
  have notch := toInt_lines lower upper
  have line : millilinesPerLine.toInt = 1000 := rfl
  refine ⟨Int32.toInt.inj ?_, Int32.toInt.inj ?_⟩
  · rw [notch, saturatingMulI32, line, Int32.toInt_ofInt_of_le (by omega) (by omega)]
    omega
  · rw [notch, saturatingMulI32, line, Int32.toInt_ofInt_of_le (by omega) (by omega)]
    omega

/-- The two ends are the code's: the source's wheel, and the sink's vertical axis. -/
theorem wheel_ends (lower : 1 ≤ lines.toInt) (upper : lines.toInt ≤ 100) (captured : Scaled) (mouseData : UInt32)
    (scroll : ScrollAccumulator) (dx millilines chars : Int32) :
    wheelMillilines captured mouseData lines =
        captured.take (mouseData >>> 16).toUInt16.toInt16.toInt32 (lines * millilinesPerLine) wheelDelta ∧
      (scrollMovement scroll ⟨dx, millilines⟩ chars lines).1.2 =
        (scroll.y.take millilines wheelDelta (lines * millilinesPerLine)).1 ∧
      (scrollMovement scroll ⟨dx, millilines⟩ chars lines).2.y =
        (scroll.y.take millilines wheelDelta (lines * millilinesPerLine)).2 := by
  obtain ⟨source, sink⟩ := saturatingMulI32_lines lower upper
  simp only [wheelMillilines, scrollMovement, ScrollAccumulator.takeScaled, source, sink, and_self]

/-- What one end sends and the other is given is the same, so both stay in balance. -/
theorem Balanced.wheel (balanced : trip.Balanced perNotch sent) (notch : (lines * millilinesPerLine).toInt = perNotch)
    (positive : 0 < perNotch) (unclamped : trip.Unclamped lines raw) :
    ∃ sent', (trip.wheel lines raw).Balanced perNotch sent' := by
  obtain ⟨fits, fits'⟩ := unclamped
  have delta : wheelDelta.toInt = 120 := rfl
  obtain ⟨captured, short⟩ := Scaled.take_exact fits (show 0 < wheelDelta.toInt by decide)
  rw [notch, delta] at captured
  have before := balanced.captured
  have total := Int.mul_add perNotch trip.turned raw.toInt
  rw [Trip.wheel]
  dsimp only
  split
  · rename_i nothing
    refine ⟨sent, ?_, balanced.injected, short, balanced.short'⟩
    rw [nothing, Int32.toInt_zero, Int.mul_zero] at captured
    dsimp only
    omega
  · rename_i something
    obtain ⟨injected, short'⟩ := Scaled.take_exact (fits' something) (notch ▸ positive)
    rw [notch, delta] at injected
    rw [notch] at short'
    have before' := balanced.injected
    refine ⟨sent + (trip.captured.take raw (lines * millilinesPerLine) wheelDelta).1.toInt, ?_, ?_, short, short'⟩
    · dsimp only
      omega
    · dsimp only
      rw [Int.mul_add, Int.mul_add]
      omega

/-- Two ends in balance are never two units apart, for neither has as much left. -/
theorem Balanced.close (balanced : trip.Balanced perNotch sent) (positive : 120 ≤ perNotch) :
    (trip.turned - trip.moved).natAbs ≤ 1 := by
  obtain ⟨captured, injected, short, short'⟩ := balanced
  have apart : perNotch * (trip.turned - trip.moved) =
      trip.captured.pending.toInt + trip.injected.pending.toInt := by
    rw [Int.mul_sub]
    omega
  by_contra far
  have two : (perNotch * (trip.turned - trip.moved)).natAbs ≥ perNotch.natAbs * 2 := by
    rw [Int.natAbs_mul]
    exact Nat.mul_le_mul_left _ (by omega)
  omega

/-- After every wheel event, whichever way each one turned, what was injected is within one
unit of what was captured. -/
theorem scroll_within (lines : Int32) (lower : 1 ≤ lines.toInt) (upper : lines.toInt ≤ 100) {raws : List Int32}
    {trip : Trip}
    (run : Reaches (guarded (fun s raw t => t = s.wheel lines raw) fun s raw => s.Unclamped lines raw)
      start raws trip) :
    (trip.turned - trip.moved).natAbs ≤ 1 := by
  have notch := toInt_lines lower upper
  have balanced : ∃ sent, trip.Balanced (lines.toInt * 1000) sent := by
    refine run.invariant (P := fun s => ∃ sent, s.Balanced (lines.toInt * 1000) sent) ?_ ⟨0, ?_⟩
    · rintro s raw t ⟨sent, before⟩ ⟨unclamped, rfl⟩
      exact before.wheel notch (by omega) unclamped
    · exact ⟨by simp [start, Scaled.new], by simp [start, Scaled.new], by decide, Int.natAbs_pos.mpr (by omega)⟩
  obtain ⟨sent, balanced⟩ := balanced
  exact balanced.close (by omega)

theorem scroll_within_reversed :
    let trip := (start.wheel 3 120).wheel 3 (-50)
    (trip.turned - trip.moved).natAbs ≤ 1 :=
  scroll_within 3 (by decide) (by decide) (.next (.single ⟨by decide +kernel, rfl⟩) ⟨by decide +kernel, rfl⟩)

end Trip
end Omnipresent
