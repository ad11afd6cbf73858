import Omnipresent.Checked
import Omnipresent.Input.WindowsSink

/-! Positions a peer sends are relative to the desktop's corner. Where they are on the screen,
and where the cursor is put when that is off the desktop. -/
namespace Omnipresent

/-- A point in display coordinates. They are whole numbers of less than 34 bits, all of which
an `f64` has. -/
structure DisplayPoint where
  x : Int
  y : Int
deriving DecidableEq, Repr

namespace DesktopBounds

/-- From the coordinates of the OS to those of the desktop, around the end of an `i32` as on
the way back. -/
def toDesktop (self : DesktopBounds) (x y : Int32) : Int32 × Int32 :=
  (x - self.originX, y - self.originY)

theorem toDesktop_toScreen (self : DesktopBounds) (x y : Int32) :
    self.toDesktop (self.toScreen x y).1 (self.toScreen x y).2 = (x, y) := by
  simp only [toDesktop, toScreen, Int32.add_sub_cancel]

/-- The way back where overflow is checked for. -/
def toScreenChecked (self : DesktopBounds) (x y : Int32) : Option (Int32 × Int32) := do
  let x ← Checked.i32 (x.toInt + self.originX.toInt)
  let y ← Checked.i32 (y.toInt + self.originY.toInt)
  some (Int32.ofInt x, Int32.ofInt y)

/-- The sums themselves. -/
def exactly (self : DesktopBounds) (x y : Int32) : DisplayPoint :=
  ⟨x.toInt + self.originX.toInt, y.toInt + self.originY.toInt⟩

/-- They are `i32`s. -/
def Fits (self : DesktopBounds) (x y : Int32) : Prop :=
  (-2 ^ 31 ≤ (self.exactly x y).x ∧ (self.exactly x y).x < 2 ^ 31) ∧
    -2 ^ 31 ≤ (self.exactly x y).y ∧ (self.exactly x y).y < 2 ^ 31

instance (self : DesktopBounds) (x y : Int32) : Decidable (self.Fits x y) := inferInstanceAs (Decidable (_ ∧ _))

def Covers (self : DesktopBounds) (point : DisplayPoint) : Prop :=
  (self.originX.toInt ≤ point.x ∧ point.x < self.originX.toInt + self.width.toNat) ∧
    self.originY.toInt ≤ point.y ∧ point.y < self.originY.toInt + self.height.toNat

end DesktopBounds

/-- What the OS is asked for, which is no desktop unless it has both its sides. -/
structure ReportedBounds extends DesktopBounds where
  wide : 0 < width.toNat
  high : 0 < height.toNat

/-- The check at the end of `desktop_bounds`. -/
def desktopBounds (originX originY : Int32) (width height : UInt32) : Option ReportedBounds :=
  if wide : 0 < width.toNat then
    if high : 0 < height.toNat then some ⟨⟨originX, originY, width, height⟩, wide, high⟩ else none
  else none

def fromDesktop (bounds : Option ReportedBounds) (x y : Int32) : DisplayPoint :=
  let (x, y) := match bounds with
    | some bounds => bounds.toScreen x y
    | none => (x, y)
  ⟨x.toInt, y.toInt⟩

def clampToDisplay (bounds : Option ReportedBounds) (point : DisplayPoint) : Option DisplayPoint :=
  match bounds with
  | none => some point
  | some bounds => do
    let left := bounds.originX.toInt
    let top := bounds.originY.toInt
    let x ← Checked.clamp point.x left (left + bounds.width.toNat - 1)
    let y ← Checked.clamp point.y top (top + bounds.height.toNat - 1)
    some ⟨x, y⟩

/-- Where a pointer event and a warp put the cursor on macOS. -/
def injectPointer (bounds : Option ReportedBounds) (x y : Int32) : Option DisplayPoint :=
  clampToDisplay bounds (fromDesktop bounds x y)

def DisplayPoint.distanceSq (self other : DisplayPoint) : Int :=
  (self.x - other.x) * (self.x - other.x) + (self.y - other.y) * (self.y - other.y)

/-- Of the points of a desktop this one is nearest to another, and no other is as near. -/
structure DesktopBounds.Nearest (bounds : DesktopBounds) (point nearest : DisplayPoint) : Prop where
  covered : bounds.Covers nearest
  nearer : ∀ other, bounds.Covers other → other ≠ nearest → nearest.distanceSq point < other.distanceSq point

section Clamp
variable {lo hi other : Int}

theorem clamp_nearest (value : Int) (lower : lo ≤ other) (upper : other ≤ hi) :
    other = max lo (min value hi) ∨ (max lo (min value hi) - value).natAbs < (other - value).natAbs := by omega

theorem mul_self_lt {a b : Int} (less : a.natAbs < b.natAbs) : a * a < b * b := by
  rw [← Int.natAbs_mul_self, ← Int.natAbs_mul_self]
  exact_mod_cast Nat.mul_self_lt_mul_self less

end Clamp

namespace DesktopBounds
variable {self : DesktopBounds} {x y : Int32}

theorem exactly_toScreen (fits : self.Fits x y) :
    (self.toScreen x y).1.toInt = (self.exactly x y).x ∧ (self.toScreen x y).2.toInt = (self.exactly x y).y := by
  obtain ⟨⟨left, right⟩, top, bottom⟩ := fits
  simp only [toScreen, exactly, Int32.toInt_add] at *
  exact ⟨Int.bmod_eq_of_le (by omega) (by omega), Int.bmod_eq_of_le (by omega) (by omega)⟩

/-- The check fails where one of the sums is no `i32`, and changes nothing where both are. -/
theorem toScreenChecked_eq (self : DesktopBounds) (x y : Int32) :
    self.toScreenChecked x y = if self.Fits x y then some (self.toScreen x y) else none := by
  split
  · rename_i fits
    obtain ⟨across, along⟩ := exactly_toScreen fits
    obtain ⟨⟨left, right⟩, top, bottom⟩ := fits
    simp only [exactly] at *
    rw [toScreenChecked, Checked.i32_of_mem left right, Checked.i32_of_mem top bottom, ← across, ← along]
    simp
  · rename_i overflows
    rw [Option.eq_none_iff_forall_ne_some]
    intro screen converted
    simp only [toScreenChecked, Option.bind_eq_bind, Option.bind_eq_some_iff, Checked.i32,
      Option.ite_none_right_eq_some] at converted
    obtain ⟨_, ⟨horizontal, _⟩, _, ⟨vertical, _⟩, _⟩ := converted
    exact overflows ⟨horizontal, vertical⟩

end DesktopBounds

/-- The two clamps never panic, for the desktop has both its sides. -/
theorem clampToDisplay_eq (bounds : ReportedBounds) (point : DisplayPoint) :
    clampToDisplay (some bounds) point =
      some ⟨max bounds.originX.toInt (min point.x (bounds.originX.toInt + bounds.width.toNat - 1)),
        max bounds.originY.toInt (min point.y (bounds.originY.toInt + bounds.height.toNat - 1))⟩ := by
  have wide := bounds.wide
  have high := bounds.high
  simp only [clampToDisplay]
  rw [Checked.clamp_of_le (by omega), Checked.clamp_of_le (by omega)]
  rfl

/-- What they give is the nearest point of the desktop. -/
theorem clampToDisplay_nearest (bounds : ReportedBounds) (point : DisplayPoint) :
    ∃ nearest, clampToDisplay (some bounds) point = some nearest ∧ bounds.Nearest point nearest := by
  have wide := bounds.wide
  have high := bounds.high
  refine ⟨_, clampToDisplay_eq bounds point, ?_, ?_⟩
  · simp only [DesktopBounds.Covers]
    omega
  · rintro ⟨x, y⟩ ⟨⟨left, right⟩, top, bottom⟩ apart
    simp only [DisplayPoint.distanceSq]
    rcases clamp_nearest point.x left (Int.le_sub_one_of_lt right) with rfl | across
    · rcases clamp_nearest point.y top (Int.le_sub_one_of_lt bottom) with rfl | along
      · exact absurd rfl apart
      · exact Int.add_lt_add_left (mul_self_lt along) _
    · rcases clamp_nearest point.y top (Int.le_sub_one_of_lt bottom) with rfl | along
      · exact Int.add_lt_add_right (mul_self_lt across) _
      · exact Int.add_lt_add (mul_self_lt across) (mul_self_lt along)

theorem injectPointer_of_fits (bounds : ReportedBounds) (fits : bounds.Fits x y) :
    injectPointer (some bounds) x y = clampToDisplay (some bounds) (bounds.exactly x y) := by
  obtain ⟨across, along⟩ := DesktopBounds.exactly_toScreen fits
  simp only [injectPointer, fromDesktop, across, along]

/-- A position is converted without overflow, and injected at the point of the desktop nearest
to it, exactly where its sums with the corner of the desktop are `i32`s. -/
theorem injectPointer_nearest_iff (bounds : ReportedBounds) (x y : Int32) :
    (bounds.toScreenChecked x y = some (bounds.toScreen x y) ∧
      ∃ nearest, injectPointer (some bounds) x y = some nearest ∧
        bounds.Nearest (bounds.exactly x y) nearest) ↔ bounds.Fits x y := by
  rw [DesktopBounds.toScreenChecked_eq]
  constructor
  · rintro ⟨converted, _⟩
    by_contra overflows
    rw [if_neg overflows] at converted
    cases converted
  · intro fits
    obtain ⟨nearest, clamped, near⟩ := clampToDisplay_nearest bounds (bounds.exactly x y)
    exact ⟨if_pos fits, nearest, (injectPointer_of_fits bounds fits).trans clamped, near⟩

/-- A display stands to the left of the main one, and a peer sends the least coordinate there
is. The sum overflows; where it goes around, the cursor ends up at the far right. -/
theorem injectPointer_hostile :
    (∃ bounds, desktopBounds (-1920) 0 3840 1080 = some bounds ∧
      bounds.toScreenChecked (-2147483648) 0 = none ∧
      injectPointer (some bounds) (-2147483648) 0 = some ⟨1919, 0⟩) ∧
    ¬ ∀ (bounds : ReportedBounds) (x y : Int32), bounds.toScreenChecked x y = some (bounds.toScreen x y) ∧
      ∃ nearest, injectPointer (some bounds) x y = some nearest ∧
        bounds.Nearest (bounds.exactly x y) nearest := by
  have overflows : DesktopBounds.toScreenChecked ⟨-1920, 0, 3840, 1080⟩ (-2147483648) 0 = none := by decide
  refine ⟨⟨⟨⟨-1920, 0, 3840, 1080⟩, by decide, by decide⟩, rfl, overflows, by decide⟩, fun always => ?_⟩
  obtain ⟨converted, _⟩ := always ⟨⟨-1920, 0, 3840, 1080⟩, by decide, by decide⟩ (-2147483648) 0
  rw [overflows] at converted
  cases converted

end Omnipresent
