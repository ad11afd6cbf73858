import Omnipresent.Checked
import Omnipresent.Protocol.Input

/-! Screens, points and edges, and the rescaling of a mouse movement. -/
namespace Omnipresent

structure Screen where
  width : UInt32
  height : UInt32
deriving DecidableEq, Repr

structure Point where
  x : UInt32
  y : UInt32
deriving DecidableEq, Repr

inductive Edge where
  | left
  | right
  | top
  | bottom
deriving DecidableEq, Repr

namespace Edge

def opposite : Edge → Edge
  | left => right
  | right => left
  | top => bottom
  | bottom => top

def isHorizontal : Edge → Bool
  | left | right => true
  | top | bottom => false

end Edge

/-- `saturating_sub` of one. -/
def lastOf (length : UInt32) : UInt32 := UInt32.ofNat (length.toNat - 1)

theorem lastOf_toNat (length : UInt32) : (lastOf length).toNat = length.toNat - 1 := by
  have bound := length.toNat_lt
  rw [lastOf, UInt32.toNat_ofNat_of_lt' (by simp only [UInt32.size]; omega)]

def Point.Inside (point : Point) (screen : Screen) : Prop :=
  point.x.toNat < screen.width.toNat ∧ point.y.toNat < screen.height.toNat

instance (point : Point) (screen : Screen) : Decidable (point.Inside screen) :=
  inferInstanceAs (Decidable (_ ∧ _))

def Screen.Shown (screen : Screen) : Prop := 0 < screen.width.toNat ∧ 0 < screen.height.toNat

instance (screen : Screen) : Decidable screen.Shown := inferInstanceAs (Decidable (_ ∧ _))

/-- A screen an honest machine reports: at least one unit and less than `2 ^ 31`
units on each side. -/
def Screen.Honest (screen : Screen) : Prop :=
  (0 < screen.width.toNat ∧ screen.width.toNat < 2 ^ 31) ∧
    0 < screen.height.toNat ∧ screen.height.toNat < 2 ^ 31

instance (screen : Screen) : Decidable screen.Honest := inferInstanceAs (Decidable (_ ∧ _))

/-- Rescales one axis. The quotient truncates towards zero; a movement too small
to survive it keeps the smallest movement in its direction. -/
def scaleAxis (delta : Int32) (src dst : UInt32) : Option Int32 :=
  if delta = 0 ∨ src = 0 ∨ dst = 0 ∨ src = dst then some delta
  else do
    let product ← Checked.i64 (delta.toInt * dst.toNat)
    let scaled ← Checked.tdiv product src.toNat
    if scaled = 0 then some (Int32.ofInt delta.toInt.sign) else some (Int32.ofInt scaled)

def scaleDelta (delta : MouseDelta) (src dst : Screen) : Option MouseDelta := do
  let dx ← scaleAxis delta.dx src.width dst.width
  let dy ← scaleAxis delta.dy src.height dst.height
  some ⟨dx, dy⟩

theorem scaleAxis_isSome (delta : Int32) (src dst : UInt32) : (scaleAxis delta src dst).isSome := by
  have lower := delta.le_toInt
  have upper := delta.toInt_lt
  obtain ⟨low, high⟩ := Checked.mul_mem_i64 lower (by omega) dst.toNat_lt
  rw [scaleAxis]
  split
  · rfl
  · rename_i distinct
    have positive : 0 < src.toNat := by
      have nonzero : src.toNat ≠ 0 := fun zero => distinct (.inr (.inl (UInt32.toNat_inj.mp zero)))
      omega
    simp only [Checked.i64_of_mem low high, Checked.tdiv_of_pos positive, Option.bind_eq_bind,
      Option.bind_some]
    split <;> rfl

/-- Rescaling is total: no product overflows, whatever the two screens. -/
theorem scaleDelta_isSome (delta : MouseDelta) (src dst : Screen) :
    ∃ scaled, scaleDelta delta src dst = some scaled := by
  obtain ⟨dx, foundX⟩ := Option.isSome_iff_exists.mp (scaleAxis_isSome delta.dx src.width dst.width)
  obtain ⟨dy, foundY⟩ := Option.isSome_iff_exists.mp (scaleAxis_isSome delta.dy src.height dst.height)
  exact ⟨⟨dx, dy⟩, by simp only [scaleDelta, foundX, foundY, Option.bind_eq_bind, Option.bind_some]⟩

end Omnipresent
