import Omnipresent.Topology.Advance
import Omnipresent.Topology.Scaling

/-! Movements straight towards one edge of the screen: on another screen they still
head for that edge, and each brings the cursor closer to it or past it. -/
namespace Omnipresent

/-- The movement goes towards this edge and along no other axis. -/
def Edge.Toward (delta : MouseDelta) : Edge → Prop
  | .left => delta.dx.toInt < 0 ∧ delta.dy = 0
  | .right => 0 < delta.dx.toInt ∧ delta.dy = 0
  | .top => delta.dx = 0 ∧ delta.dy.toInt < 0
  | .bottom => delta.dx = 0 ∧ 0 < delta.dy.toInt

def Edge.unit : Edge → MouseDelta
  | .left => ⟨-1, 0⟩
  | .right => ⟨1, 0⟩
  | .top => ⟨0, -1⟩
  | .bottom => ⟨0, 1⟩

theorem Edge.toward_unit (edge : Edge) : edge.Toward edge.unit := by
  cases edge <;> exact ⟨by decide, by decide⟩

/-- How much of the screen lies between the position and this edge. -/
def Screen.room (screen : Screen) (position : Point) : Edge → Nat
  | .left => position.x.toNat
  | .right => screen.width.toNat - 1 - position.x.toNat
  | .top => position.y.toNat
  | .bottom => screen.height.toNat - 1 - position.y.toNat

theorem scaleAxis_unit (unit : delta = 1 ∨ delta = -1) (src : UInt32) {dst : UInt32} (narrow : dst.toNat < 2 ^ 31) :
    ∃ scaled, ∃ units : Nat, scaleAxis delta src dst = some scaled ∧ 0 < units ∧
      scaled.toInt = delta.toInt * units := by
  by_cases degenerate : src.toNat = 0 ∨ dst.toNat = 0
  · have same : delta = 0 ∨ src = 0 ∨ dst = 0 ∨ src = dst :=
      .inr (degenerate.imp UInt32.toNat_inj.mp fun zero => .inl (UInt32.toNat_inj.mp zero))
    exact ⟨delta, 1, if_pos same, Nat.one_pos, (Int.mul_one _).symm⟩
  · have positive : 0 < src.toNat := by omega
    have positive' : 0 < dst.toNat := by omega
    have sign : delta.toInt = 1 ∨ delta.toInt = -1 := unit.imp (congrArg Int32.toInt) (congrArg Int32.toInt)
    have fits : AxisFits delta src dst := by
      rw [AxisFits]
      rcases sign with one | one <;> rw [one] <;> omega
    have found := scaleAxis_eq delta positive positive'
    have kept : (proportion delta.toInt src.toNat dst.toNat).sign = delta.toInt := by
      rw [sign_proportion positive positive']
      rcases sign with one | one <;> rw [one] <;> rfl
    refine ⟨_, (proportion delta.toInt src.toNat dst.toNat).natAbs, found, ?_, ?_⟩
    · rw [Int.natAbs_pos]
      intro still
      rw [still, Int.sign_zero] at kept
      omega
    · rw [(toInt_scaleAxis positive positive' found).mpr fits]
      exact (Int.sign_mul_natAbs _).symm.trans (congrArg (· * _) kept)

theorem scaleAxis_zero (src dst : UInt32) : scaleAxis 0 src dst = some 0 := if_pos (.inl rfl)

theorem scaleDelta_unit (edge : Edge) (src : Screen) {dst : Screen} (honest : dst.Honest) :
    ∃ scaled, scaleDelta edge.unit src dst = some scaled ∧ edge.Toward scaled := by
  obtain ⟨⟨_, narrow⟩, _, flat⟩ := honest
  have back : (-1 : Int32).toInt = -1 := rfl
  have on : (1 : Int32).toInt = 1 := rfl
  cases edge with
  | left =>
    obtain ⟨dx, units, found, positive, scaled⟩ := scaleAxis_unit (.inr rfl) src.width narrow
    refine ⟨⟨dx, 0⟩, ?_, show dx.toInt < 0 by rw [scaled, back]; omega, rfl⟩
    simp only [scaleDelta, Edge.unit, found, scaleAxis_zero, Option.bind_eq_bind, Option.bind_some]
  | right =>
    obtain ⟨dx, units, found, positive, scaled⟩ := scaleAxis_unit (.inl rfl) src.width narrow
    refine ⟨⟨dx, 0⟩, ?_, show 0 < dx.toInt by rw [scaled, on]; omega, rfl⟩
    simp only [scaleDelta, Edge.unit, found, scaleAxis_zero, Option.bind_eq_bind, Option.bind_some]
  | top =>
    obtain ⟨dy, units, found, positive, scaled⟩ := scaleAxis_unit (.inr rfl) src.height flat
    refine ⟨⟨0, dy⟩, ?_, rfl, show dy.toInt < 0 by rw [scaled, back]; omega⟩
    simp only [scaleDelta, Edge.unit, found, scaleAxis_zero, Option.bind_eq_bind, Option.bind_some]
  | bottom =>
    obtain ⟨dy, units, found, positive, scaled⟩ := scaleAxis_unit (.inl rfl) src.height flat
    refine ⟨⟨0, dy⟩, ?_, rfl, show 0 < dy.toInt by rw [scaled, on]; omega⟩
    simp only [scaleDelta, Edge.unit, found, scaleAxis_zero, Option.bind_eq_bind, Option.bind_some]

theorem Edge.Toward.past {edge edge' : Edge} {cursor : CursorState} (toward : edge.Toward delta)
    (inside : cursor.position.Inside here) (past : here.Past (cursor.candX delta) (cursor.candY delta) edge') :
    edge' = edge := by
  obtain ⟨column, row⟩ := inside
  have still : (0 : Int32).toInt = 0 := rfl
  simp only [CursorState.candX, CursorState.candY] at past
  cases edge <;> cases edge' <;> obtain ⟨moved, rest⟩ := toward <;>
    simp only [Screen.Past, moved, rest, still] at past ⊢ <;> omega

namespace VirtualLayout
variable {layout : VirtualLayout} {cursor : CursorState} {delta : MouseDelta}

theorem advance_within (known : layout.screen cursor.machine = some here)
    (columns : 0 ≤ cursor.candX delta ∧ cursor.candX delta < here.width.toNat)
    (rows : 0 ≤ cursor.candY delta ∧ cursor.candY delta < here.height.toNat) :
    ∃ position : Point, layout.advance cursor delta = some (.ok ⟨⟨cursor.machine, position⟩, none⟩) ∧
      position.x.toNat = cursor.candX delta ∧ position.y.toNat = cursor.candY delta := by
  have widthBound := here.width.toNat_lt
  have heightBound := here.height.toNat_lt
  have within : ∀ {coord length : Int} (low high : Edge), 0 ≤ coord ∧ coord < length →
      overshot coord length low high = none := by
    intro coord length low high bounds
    rw [overshot, if_neg (by omega), if_neg (by omega)]
  have chosen : layout.chosen cursor.machine none none = none := rfl
  refine ⟨⟨UInt32.ofInt (cursor.candX delta), UInt32.ofInt (cursor.candY delta)⟩, ?_, ?_, ?_⟩
  · rw [advance_eq known, within _ _ columns, within _ _ rows, chosen, Screen.nearest, if_pos (by omega),
      min_eq_left (by omega), min_eq_left (by omega), max_eq_right columns.1, max_eq_right rows.1]
    rfl
  · rw [UInt32.toNat_ofInt_nonneg columns.1 (by omega)]
    omega
  · rw [UInt32.toNat_ofInt_nonneg rows.1 (by omega)]
    omega

/-- Heading for an edge with a neighbor, the cursor gets closer to it or crosses it. -/
theorem advance_toward (toward : edge.Toward delta) (known : layout.screen cursor.machine = some here)
    (inside : cursor.position.Inside here) (linked : layout.neighbor cursor.machine edge = some peer)
    (shown : layout.screen peer = some there) :
    (∃ position, layout.advance cursor delta = some (.ok ⟨⟨cursor.machine, position⟩, none⟩) ∧
      position.Inside here ∧ here.room position edge < here.room cursor.position edge) ∨
    ∃ entry, layout.advance cursor delta = some (.ok ⟨⟨peer, entry⟩, some ⟨peer, entry⟩⟩) := by
  by_cases past : here.Past (cursor.candX delta) (cursor.candY delta) edge
  · right
    have spec := advance_spec layout cursor delta
    generalize layout.advance cursor delta = result at spec ⊢
    have only : ∀ {edge' peer'}, layout.Exit cursor delta edge' peer' → peer = peer' := by
      rintro edge' peer' ⟨here', known', past', linked'⟩
      obtain rfl : here = here' := Option.some.inj (known.symm.trans known')
      obtain rfl := toward.past inside past'
      exact Option.some.inj (linked.symm.trans linked')
    cases spec with
    | unknown lost => exact absurd (known.symm.trans lost) (Option.some_ne_none _)
    | lost exit unknown =>
      obtain rfl := only exit
      exact absurd (shown.symm.trans unknown) (Option.some_ne_none _)
    | crosses exit _ _ =>
      obtain rfl := only exit
      exact ⟨_, rfl⟩
    | stays _ _ blocked | panics _ _ blocked => exact absurd ⟨here, known, past, linked⟩ (blocked edge peer)
  · left
    obtain ⟨column, row⟩ := inside
    have still : (0 : Int32).toInt = 0 := rfl
    have bounds : (0 ≤ cursor.candX delta ∧ cursor.candX delta < here.width.toNat) ∧
        0 ≤ cursor.candY delta ∧ cursor.candY delta < here.height.toNat := by
      simp only [CursorState.candX, CursorState.candY] at past ⊢
      cases edge <;> obtain ⟨moved, rest⟩ := toward <;>
        simp only [Screen.Past, moved, rest, still] at past ⊢ <;> omega
    obtain ⟨position, found, x, y⟩ := advance_within known bounds.1 bounds.2
    refine ⟨position, found, ⟨by omega, by omega⟩, ?_⟩
    simp only [CursorState.candX, CursorState.candY] at x y bounds
    cases edge <;> obtain ⟨moved, rest⟩ := toward <;>
      simp only [Screen.room, moved, rest, still] at x y bounds ⊢ <;> omega

end VirtualLayout
end Omnipresent
