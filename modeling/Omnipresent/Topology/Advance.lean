import Omnipresent.Topology.Layout
import Mathlib.Data.List.ReduceOption

/-! What one movement of the cursor can do, as a single case analysis. Positions
and deltas are `u32` and `i32`, so no intermediate `i64` or `u64` overflows; the
only panic left is the final clamp on a screen with a side of zero. -/
namespace Omnipresent

theorem UInt32.toNat_ofNat_mod {n : Nat} (bound : n < 2 ^ 32) : (UInt32.ofNat n).toNat = n :=
  UInt32.toNat_ofNat_of_lt' bound

theorem UInt32.toNat_ofInt_nonneg {i : Int} (lower : 0 ≤ i) (upper : i < 2 ^ 32) :
    (UInt32.ofInt i).toNat = i.toNat := by
  have small : i % 2 ^ 32 = i := Int.emod_eq_of_lt lower upper
  rw [UInt32.ofInt, small, UInt32.toNat_ofNat_mod (by omega)]

/-- The proportional map, with every intermediate in range. -/
theorem project_eq (coord : Int) (src dst : UInt32) (long : 2 ≤ src.toNat) (shown : 0 < dst.toNat) :
    project coord src dst = some (UInt32.ofNat
      ((max 0 (min coord (src.toNat - 1 : Nat))).toNat * (dst.toNat - 1) / (src.toNat - 1))) := by
  have srcBound := src.toNat_lt
  have dstBound := dst.toNat_lt
  have nonzero : dst ≠ 0 := fun zero => by simp [zero] at shown
  have guard : ¬ (src.toNat ≤ 1 ∨ dst = 0) := by simp only [nonzero, or_false]; omega
  have product : (max 0 (min coord (src.toNat - 1 : Nat))).toNat * (dst.toNat - 1) < 2 ^ 64 :=
    Checked.mul_lt_u64 (by omega) (by omega)
  simp only [project, if_neg guard, Checked.sub_of_le (show 1 ≤ src.toNat by omega),
    Checked.sub_of_le (show 1 ≤ dst.toNat by omega), Option.bind_eq_bind, Option.bind_some,
    Checked.clamp_of_le (show (0 : Int) ≤ (src.toNat - 1 : Nat) by omega),
    Checked.mulU64_of_lt product, Checked.div_of_pos (show 0 < src.toNat - 1 by omega)]

/-- The projection never panics, and lands inside any span that has a place to
land on. -/
theorem project_spec (coord : Int) (src dst : UInt32) :
    ∃ value, project coord src dst = some value ∧ (0 < dst.toNat → value.toNat < dst.toNat) := by
  by_cases degenerate : src.toNat ≤ 1 ∨ dst = 0
  · exact ⟨0, if_pos degenerate, fun shown => by simpa using shown⟩
  · obtain ⟨long, nonzero⟩ := not_or.mp degenerate
    have dstBound := dst.toNat_lt
    have shown : 0 < dst.toNat := by
      have : dst.toNat ≠ 0 := fun zero => nonzero (UInt32.toNat_inj.mp zero)
      omega
    refine ⟨_, project_eq coord src dst (by omega) shown, fun _ => ?_⟩
    have quotient : (max 0 (min coord (src.toNat - 1 : Nat))).toNat * (dst.toNat - 1) /
        (src.toNat - 1) ≤ dst.toNat - 1 := by
      apply Nat.div_le_of_le_mul
      exact Nat.mul_le_mul_right _ (by omega)
    rw [UInt32.toNat_ofNat_mod (by omega)]
    omega

/-- The two `unreachable!` branches are unreachable, and the entry point is on
the neighbor's screen. -/
theorem entryPoint_spec (edge : Edge) (peer src : Screen) (candX candY : Int) :
    ∃ entry, entryPoint edge peer src candX candY = some entry ∧
      (0 < peer.width.toNat → 0 < peer.height.toNat → entry.Inside peer) := by
  obtain ⟨x, foundX, insideX⟩ := project_spec candX src.width peer.width
  obtain ⟨y, foundY, insideY⟩ := project_spec candY src.height peer.height
  cases edge with
  | left =>
    refine ⟨⟨lastOf peer.width, y⟩, by simp [entryPoint, Edge.isHorizontal, foundY], ?_⟩
    intro wide tall
    exact ⟨by rw [lastOf_toNat]; omega, insideY tall⟩
  | right =>
    refine ⟨⟨0, y⟩, by simp [entryPoint, Edge.isHorizontal, foundY], ?_⟩
    intro wide tall
    exact ⟨wide, insideY tall⟩
  | top =>
    refine ⟨⟨x, lastOf peer.height⟩, by simp [entryPoint, Edge.isHorizontal, foundX], ?_⟩
    intro wide tall
    exact ⟨insideX wide, by rw [lastOf_toNat]; omega⟩
  | bottom =>
    refine ⟨⟨x, 0⟩, by simp [entryPoint, Edge.isHorizontal, foundX], ?_⟩
    intro wide tall
    exact ⟨insideX wide, tall⟩

/-- The candidate position lies past this edge of the screen. -/
def Screen.Past (screen : Screen) (candX candY : Int) : Edge → Prop
  | .left => candX < 0
  | .right => screen.width.toNat ≤ candX
  | .top => candY < 0
  | .bottom => screen.height.toNat ≤ candY

def CursorState.candX (cursor : CursorState) (delta : MouseDelta) : Int :=
  cursor.position.x.toNat + delta.dx.toInt

def CursorState.candY (cursor : CursorState) (delta : MouseDelta) : Int :=
  cursor.position.y.toNat + delta.dy.toInt

def Candidate (coord : Int) : Prop := -2 ^ 31 ≤ coord ∧ coord < 2 ^ 33

theorem candidate_add (position : UInt32) (delta : Int32) :
    Candidate (position.toNat + delta.toInt) := by
  have positionBound := position.toNat_lt
  have lower := delta.le_toInt
  have upper := delta.toInt_lt
  constructor <;> omega

theorem Candidate.i64 (bounds : Candidate coord) : Checked.i64 coord = some coord :=
  Checked.i64_of_mem (by have := bounds.1; omega) (by have := bounds.2; omega)

theorem i64_pred (length : UInt32) :
    Checked.i64 ((length.toNat : Int) - 1) = some ((length.toNat : Int) - 1) := by
  have bound := length.toNat_lt
  apply Checked.i64_of_mem <;> omega

def overshot (coord length : Int) (low high : Edge) : Option (Edge × Int) :=
  if coord < 0 then some (low, -coord) else if length ≤ coord then some (high, coord - (length - 1)) else none

theorem edgeOvershoot_eq (bounds : Candidate coord) (length : UInt32) (low high : Edge) :
    edgeOvershoot coord length.toNat low high = some (overshot coord length.toNat low high) := by
  have lengthBound := length.toNat_lt
  obtain ⟨lower, upper⟩ := bounds
  rw [edgeOvershoot, overshot]
  split
  · rw [Checked.i64_of_mem (by omega) (by omega), Option.bind_eq_bind, Option.bind_some]
  · split
    · rw [i64_pred, Option.bind_eq_bind, Option.bind_some, Checked.i64_of_mem (by omega) (by omega), Option.bind_some]
    · rfl

theorem overshot_eq_some {coord length : Int} {low high : Edge} (natural : 0 ≤ length) :
    overshot coord length low high = some (edge, excess) ↔
      (edge = low ∧ excess = -coord ∧ coord < 0) ∨
        (edge = high ∧ excess = coord - (length - 1) ∧ length ≤ coord) := by
  rw [overshot]
  split
  · simp only [Option.some.injEq, Prod.mk.injEq]
    constructor
    · rintro ⟨rfl, rfl⟩
      exact .inl ⟨rfl, rfl, ‹_›⟩
    · rintro (⟨rfl, rfl, _⟩ | ⟨_, _, far⟩)
      · exact ⟨rfl, rfl⟩
      · omega
  · split
    · simp only [Option.some.injEq, Prod.mk.injEq]
      constructor
      · rintro ⟨rfl, rfl⟩
        exact .inr ⟨rfl, rfl, ‹_›⟩
      · rintro (⟨_, _, near⟩ | ⟨rfl, rfl, _⟩)
        · exact absurd near ‹_›
        · exact ⟨rfl, rfl⟩
    · simp only [reduceCtorEq, false_iff, not_or]
      exact ⟨fun ⟨_, _, near⟩ => absurd near ‹_›, fun ⟨_, _, far⟩ => absurd far ‹_›⟩

def Screen.overshoot (screen : Screen) (candX candY : Int) : Edge → Int
  | .left => -candX
  | .right => candX - (screen.width.toNat - 1)
  | .top => -candY
  | .bottom => candY - (screen.height.toNat - 1)

/-- The two axes between them name the edges run past, each with its overshoot. -/
theorem overshot_iff (here : Screen) (candX candY : Int) (edge : Edge) (excess : Int) :
    (overshot candX here.width.toNat .left .right = some (edge, excess) ∨
      overshot candY here.height.toNat .top .bottom = some (edge, excess)) ↔
      here.Past candX candY edge ∧ excess = here.overshoot candX candY edge := by
  rw [overshot_eq_some (by omega), overshot_eq_some (by omega)]
  cases edge <;> simp [Screen.Past, Screen.overshoot, and_comm]

def Screen.nearest (screen : Screen) (candX candY : Int) : Option Point :=
  if 0 < screen.width.toNat ∧ 0 < screen.height.toNat then
    some ⟨UInt32.ofInt (max 0 (min candX (screen.width.toNat - 1))),
      UInt32.ofInt (max 0 (min candY (screen.height.toNat - 1)))⟩
  else none

theorem Screen.nearest_eq_none {here : Screen} :
    here.nearest candX candY = none ↔ here.width.toNat = 0 ∨ here.height.toNat = 0 := by
  rw [nearest]
  split <;> simp <;> omega

theorem nearest_toNat {length : UInt32} (long : 0 < length.toNat) (candidate : Int) :
    (UInt32.ofInt (max 0 (min candidate (length.toNat - 1)))).toNat =
      (max 0 (min candidate (length.toNat - 1))).toNat := by
  have bound := length.toNat_lt
  apply UInt32.toNat_ofInt_nonneg
  · exact Int.le_max_left 0 _
  · omega

theorem Screen.nearest_inside {here : Screen} (found : here.nearest candX candY = some position) :
    position.Inside here := by
  rw [nearest] at found
  split at found
  · rename_i shown
    cases found
    rw [Point.Inside, nearest_toNat shown.1, nearest_toNat shown.2]
    constructor
    · omega
    · omega
  · cases found

namespace VirtualLayout
variable {layout : VirtualLayout} {cursor : CursorState} {delta : MouseDelta}

/-- The move runs past an edge of the screen it is on, and this neighbor is
linked there. -/
def Exit (layout : VirtualLayout) (cursor : CursorState) (delta : MouseDelta) (edge : Edge)
    (peer : MachineId) : Prop :=
  ∃ here, layout.screen cursor.machine = some here ∧
    here.Past (cursor.candX delta) (cursor.candY delta) edge ∧
    layout.neighbor cursor.machine edge = some peer

/-- Everything `advance` can answer. -/
inductive Advances (layout : VirtualLayout) (cursor : CursorState) (delta : MouseDelta) :
    Option (Except LayoutError Advance) → Prop where
  | unknown : layout.screen cursor.machine = none →
      Advances layout cursor delta (some (.error (.unknownMachine cursor.machine)))
  /-- The neighbor entered has no screen on record. -/
  | lost : layout.Exit cursor delta edge peer → layout.screen peer = none →
      Advances layout cursor delta (some (.error (.unknownMachine peer)))
  | crosses : layout.Exit cursor delta edge peer → layout.screen peer = some there →
      (0 < there.width.toNat → 0 < there.height.toNat → entry.Inside there) →
      Advances layout cursor delta (some (.ok ⟨⟨peer, entry⟩, some ⟨peer, entry⟩⟩))
  | stays : layout.screen cursor.machine = some here → position.Inside here →
      (∀ edge peer, ¬ layout.Exit cursor delta edge peer) →
      Advances layout cursor delta (some (.ok ⟨⟨cursor.machine, position⟩, none⟩))
  /-- A side of zero and no way off the screen: the clamp asserts. -/
  | panics : layout.screen cursor.machine = some here →
      (here.width.toNat = 0 ∨ here.height.toNat = 0) →
      (∀ edge peer, ¬ layout.Exit cursor delta edge peer) →
      Advances layout cursor delta none

theorem chosen_eq_some (found : layout.chosen machine horizontal vertical = some (edge, overshoot, peer)) :
    layout.neighbor machine edge = some peer ∧
      (horizontal = some (edge, overshoot) ∨ vertical = some (edge, overshoot)) := by
  have member := maxByKey_mem found
  simp only [List.mem_filterMap, List.reduceOption_mem_iff, List.mem_cons, List.not_mem_nil, or_false,
    Option.map_eq_some_iff, Prod.mk.injEq, Prod.exists] at member
  obtain ⟨edge', overshoot', listed, peer', known, rfl, rfl, rfl⟩ := member
  exact ⟨known, listed.imp Eq.symm Eq.symm⟩

theorem chosen_eq_none (found : layout.chosen machine horizontal vertical = none)
    (ran : horizontal = some (edge, overshoot) ∨ vertical = some (edge, overshoot)) :
    layout.neighbor machine edge = none := by
  have empty := maxByKey_eq_none.mp found
  rw [List.filterMap_eq_nil_iff] at empty
  have listed : (edge, overshoot) ∈ [horizontal, vertical].reduceOption := by
    simpa only [List.reduceOption_mem_iff, List.mem_cons, List.not_mem_nil, or_false] using
      ran.imp Eq.symm Eq.symm
  simpa only [Option.map_eq_none_iff] using empty _ listed

theorem advance_eq (known : layout.screen cursor.machine = some here) :
    layout.advance cursor delta =
      match layout.chosen cursor.machine (overshot (cursor.candX delta) here.width.toNat .left .right)
          (overshot (cursor.candY delta) here.height.toNat .top .bottom) with
      | some (edge, _, peer) =>
        match layout.screen peer with
        | none => some (.error (.unknownMachine peer))
        | some there => (entryPoint edge there here (cursor.candX delta) (cursor.candY delta)).map fun entry =>
            .ok ⟨⟨peer, entry⟩, some ⟨peer, entry⟩⟩
      | none => (here.nearest (cursor.candX delta) (cursor.candY delta)).map fun position =>
          .ok ⟨⟨cursor.machine, position⟩, none⟩ := by
  have boundsX : Candidate (cursor.candX delta) := candidate_add _ _
  have boundsY : Candidate (cursor.candY delta) := candidate_add _ _
  have sumX : Checked.i64 (cursor.position.x.toNat + delta.dx.toInt) = some (cursor.candX delta) := boundsX.i64
  have sumY : Checked.i64 (cursor.position.y.toNat + delta.dy.toInt) = some (cursor.candY delta) := boundsY.i64
  simp only [advance, known, sumX, sumY, edgeOvershoot_eq boundsX, edgeOvershoot_eq boundsY, Option.bind_eq_bind,
    Option.bind_some]
  cases layout.chosen cursor.machine (overshot (cursor.candX delta) here.width.toNat .left .right)
      (overshot (cursor.candY delta) here.height.toNat .top .bottom) with
  | some candidate =>
    obtain ⟨edge, excess, peer⟩ := candidate
    dsimp only
    cases layout.screen peer with
    | none => rfl
    | some there => exact (Option.map_eq_bind ..).symm
  | none =>
    simp only [i64_pred, Option.bind_some, Screen.nearest]
    split
    · rename_i shown
      rw [Checked.clamp_of_le (by omega), Option.bind_some, Checked.clamp_of_le (by omega), Option.bind_some]
      rfl
    · rename_i degenerate
      have crossed : (here.width.toNat - 1 : Int) < 0 ∨ (here.height.toNat - 1 : Int) < 0 := by omega
      rw [Checked.clamp_clamp_eq_none crossed]
      rfl

theorem advance_spec (layout : VirtualLayout) (cursor : CursorState) (delta : MouseDelta) :
    Advances layout cursor delta (layout.advance cursor delta) := by
  cases known : layout.screen cursor.machine with
  | none => simpa only [advance, known] using Advances.unknown known
  | some here =>
    have past := overshot_iff here (cursor.candX delta) (cursor.candY delta)
    rw [advance_eq known]
    cases choice : layout.chosen cursor.machine (overshot (cursor.candX delta) here.width.toNat .left .right)
        (overshot (cursor.candY delta) here.height.toNat .top .bottom) with
    | some candidate =>
      obtain ⟨edge, excess, peer⟩ := candidate
      obtain ⟨linked, ran⟩ := chosen_eq_some choice
      have exit : layout.Exit cursor delta edge peer := ⟨here, known, ((past edge excess).mp ran).1, linked⟩
      cases peerKnown : layout.screen peer with
      | none => simpa only [peerKnown] using Advances.lost exit peerKnown
      | some there =>
        obtain ⟨entry, found, inside⟩ :=
          entryPoint_spec edge there here (cursor.candX delta) (cursor.candY delta)
        simpa only [peerKnown, found, Option.map_some] using Advances.crosses exit peerKnown inside
    | none =>
      have blocked : ∀ edge peer, ¬ layout.Exit cursor delta edge peer := by
        rintro edge peer ⟨here', known', ranPast, linked⟩
        obtain rfl : here = here' := Option.some.inj (known.symm.trans known')
        exact Option.some_ne_none _ (linked.symm.trans (chosen_eq_none choice ((past edge _).mpr ⟨ranPast, rfl⟩)))
      dsimp only
      cases found : here.nearest (cursor.candX delta) (cursor.candY delta) with
      | none => exact .panics known (Screen.nearest_eq_none.mp found) blocked
      | some position => exact .stays known (Screen.nearest_inside found) blocked

end VirtualLayout
end Omnipresent
