import Omnipresent.Topology.Heading
import Omnipresent.Topology.Movement

/-! Over an edge by one unit and straight back, again and again: the cursor comes back to
where it was exactly if its place along the edge has a counterpart on the other side. -/
namespace Omnipresent

/-- From a shorter span to a longer one and back, a place that does not divide evenly
loses one. -/
theorem there_and_back {n m c : Nat} (longer : n ≤ m) (within : c ≤ n) :
    c * m / n * n / m = if n ∣ c * m then c else c - 1 := by
  rcases Nat.eq_zero_or_pos n with rfl | positive
  · obtain rfl : c = 0 := Nat.le_zero.mp within
    simp
  · have whole := Nat.div_add_mod (c * m) n
    have rest := Nat.mod_lt (c * m) positive
    split
    · rename_i even
      rw [Nat.div_mul_cancel even, Nat.mul_div_cancel _ (by omega)]
    · rename_i uneven
      have left : 0 < c * m % n := Nat.pos_of_ne_zero fun none => uneven (Nat.dvd_of_mod_eq_zero none)
      have some' : c ≠ 0 := by
        rintro rfl
        simp at left
      obtain ⟨before, rfl⟩ := Nat.exists_eq_succ_of_ne_zero some'
      rw [Nat.mul_comm n] at whole
      rw [Nat.succ_mul] at *
      exact Nat.div_eq_of_lt_le (by rw [Nat.succ_sub_one]; omega) (by rw [Nat.succ_sub_one, Nat.succ_mul]; omega)

theorem project_within {coord src dst : UInt32} (within : coord.toNat < src.toNat) (shown : 0 < dst.toNat) :
    project coord.toNat src dst = some (UInt32.ofNat (coord.toNat * (dst.toNat - 1) / (src.toNat - 1))) := by
  by_cases long : 2 ≤ src.toNat
  · rw [project_eq _ _ _ long shown]
    have kept : (max 0 (min (coord.toNat : Int) (src.toNat - 1 : Nat))).toNat = coord.toNat := by omega
    rw [kept]
  · have short : src.toNat - 1 = 0 := by omega
    rw [project, if_pos (.inl (by omega)), short, Nat.div_zero]
    rfl

theorem cand_unit (here : Screen) (edge : Edge) (coord : UInt32) (m : MachineId) :
    (CursorState.candX ⟨m, here.spot edge coord⟩ edge.unit,
      CursorState.candY ⟨m, here.spot edge coord⟩ edge.unit) =
      match edge with
      | .left => ((-1 : Int), (coord.toNat : Int))
      | .right => (((here.width.toNat - 1 : Nat) + 1 : Int), (coord.toNat : Int))
      | .top => ((coord.toNat : Int), (-1 : Int))
      | .bottom => ((coord.toNat : Int), ((here.height.toNat - 1 : Nat) + 1 : Int)) := by
  have lastX := lastOf_toNat here.width
  have lastY := lastOf_toNat here.height
  have on : (1 : Int32).toInt = 1 := rfl
  have back : (-1 : Int32).toInt = -1 := rfl
  have still : (0 : Int32).toInt = 0 := rfl
  have zero : (0 : UInt32).toNat = 0 := rfl
  cases edge <;> simp only [CursorState.candX, CursorState.candY, Screen.spot, Edge.unit, on, back, still, zero,
    Prod.mk.injEq] <;> omega

/-- From the edge, one unit outward is past that edge and no other, and as far along it. -/
theorem past_unit {here : Screen} {coord : UInt32} (within : coord.toNat < (here.along edge).toNat)
    (m : MachineId) (edge' : Edge) :
    here.Past (CursorState.candX ⟨m, here.spot edge coord⟩ edge.unit)
      (CursorState.candY ⟨m, here.spot edge coord⟩ edge.unit) edge' ↔ edge' = edge := by
  have cand := cand_unit here edge coord m
  cases edge with
  | left | right =>
    change coord.toNat < here.height.toNat at within
    obtain ⟨x, y⟩ := Prod.mk.inj cand
    rw [x, y]
    cases edge' <;> simp [Screen.Past] <;> omega
  | top | bottom =>
    change coord.toNat < here.width.toNat at within
    obtain ⟨x, y⟩ := Prod.mk.inj cand
    rw [x, y]
    cases edge' <;> simp [Screen.Past] <;> omega

theorem alongside_unit (here : Screen) (edge : Edge) (coord : UInt32) (m : MachineId) :
    (if edge.isHorizontal then CursorState.candY ⟨m, here.spot edge coord⟩ edge.unit
      else CursorState.candX ⟨m, here.spot edge coord⟩ edge.unit) = coord.toNat := by
  have cand := cand_unit here edge coord m
  cases edge with
  | left | right => exact (Prod.mk.inj cand).2
  | top | bottom => exact (Prod.mk.inj cand).1

namespace VirtualLayout
variable {layout : VirtualLayout} {here there : Screen} {a b : MachineId} {edge : Edge} {coord : UInt32}

def cross (self : VirtualLayout) (edge : Edge) (cursor : CursorState) : Option CursorState :=
  match self.advance cursor edge.unit with
  | some (.ok advance) => some advance.cursor
  | _ => none

def roundTrip (self : VirtualLayout) (edge : Edge) (cursor : CursorState) : Option CursorState :=
  (self.cross edge cursor).bind (self.cross edge.opposite)

def roundTrips (self : VirtualLayout) (edge : Edge) : Nat → CursorState → Option CursorState
  | 0, cursor => some cursor
  | count + 1, cursor => (self.roundTrip edge cursor).bind (self.roundTrips edge count)

/-- Two screens linked over an edge of the first. -/
structure Joined (layout : VirtualLayout) (a : MachineId) (here : Screen) (edge : Edge) (b : MachineId)
    (there : Screen) : Prop where
  near : layout.screen a = some here
  far : layout.screen b = some there
  across : layout.neighbor a edge = some b
  back : layout.neighbor b edge.opposite = some a

theorem Joined.symm (joined : layout.Joined a here edge b there) : layout.Joined b there edge.opposite a here := by
  refine ⟨joined.far, joined.near, joined.back, ?_⟩
  rw [Edge.opposite_opposite]
  exact joined.across

theorem Joined.cross (joined : layout.Joined a here edge b there)
    (within : coord.toNat < (here.along edge).toNat) (wide : 0 < (there.along edge).toNat) :
    layout.cross edge ⟨a, here.spot edge coord⟩ = some ⟨b, there.spot edge.opposite
      (UInt32.ofNat (coord.toNat * ((there.along edge).toNat - 1) / ((here.along edge).toNat - 1)))⟩ := by
  have past := past_unit within a
  have ran_iff := overshot_iff here (CursorState.candX ⟨a, here.spot edge coord⟩ edge.unit)
    (CursorState.candY ⟨a, here.spot edge coord⟩ edge.unit)
  have entry := entryPoint_eq edge there here (CursorState.candX ⟨a, here.spot edge coord⟩ edge.unit)
    (CursorState.candY ⟨a, here.spot edge coord⟩ edge.unit)
  rw [alongside_unit, project_within within wide, Option.map_some] at entry
  have step : layout.advance ⟨a, here.spot edge coord⟩ edge.unit = _ :=
    advance_eq (show layout.screen (CursorState.mk a (here.spot edge coord)).machine = some here from joined.near)
  rw [VirtualLayout.cross, step]
  cases choice : layout.chosen a
      (overshot (CursorState.candX ⟨a, here.spot edge coord⟩ edge.unit) here.width.toNat .left .right)
      (overshot (CursorState.candY ⟨a, here.spot edge coord⟩ edge.unit) here.height.toNat .top .bottom) with
  | some candidate =>
    obtain ⟨edge', excess', peer⟩ := candidate
    obtain ⟨linked, ran⟩ := chosen_eq_some choice
    obtain rfl : edge' = edge := (past edge').mp ((ran_iff edge' excess').mp ran).1
    obtain rfl : b = peer := Option.some.inj (joined.across.symm.trans linked)
    simp only [joined.far, entry, Option.map_some]
  | none =>
    have free := chosen_eq_none choice ((ran_iff edge _).mpr ⟨(past edge).mpr rfl, rfl⟩)
    cases free.symm.trans joined.across

/-- What one round trip makes of a coordinate. -/
def returned (c : UInt32) (near far : UInt32) : UInt32 :=
  if near.toNat - 1 ∣ c.toNat * (far.toNat - 1) then c else UInt32.ofNat (c.toNat - 1)

theorem Joined.roundTrip (joined : layout.Joined a here edge b there)
    (longer : (here.along edge).toNat ≤ (there.along edge).toNat)
    (within : coord.toNat < (here.along edge).toNat) :
    layout.roundTrip edge ⟨a, here.spot edge coord⟩ =
      some ⟨a, here.spot edge (returned coord (here.along edge) (there.along edge))⟩ := by
  have short : coord.toNat ≤ (here.along edge).toNat - 1 := by omega
  have reached : coord.toNat * ((there.along edge).toNat - 1) / ((here.along edge).toNat - 1) ≤
      (there.along edge).toNat - 1 := Nat.div_le_of_le_mul (Nat.mul_le_mul_right _ short)
  have bound := (there.along edge).toNat_lt
  have bound' := coord.toNat_lt
  have wide : 0 < (there.along edge).toNat := by omega
  have entered := UInt32.toNat_ofNat_mod (Nat.lt_of_le_of_lt reached (by omega))
  have inside : (UInt32.ofNat (coord.toNat * ((there.along edge).toNat - 1) / ((here.along edge).toNat - 1))).toNat <
      (there.along edge.opposite).toNat := by
    rw [entered, Screen.along_opposite]
    exact Nat.lt_of_le_of_lt reached (by omega)
  have back := joined.symm.cross inside (by rw [Screen.along_opposite]; omega)
  rw [Screen.along_opposite, Screen.along_opposite, entered, Edge.opposite_opposite,
    there_and_back (by omega) short]
    at back
  rw [VirtualLayout.roundTrip, joined.cross within wide, Option.bind_some, back, returned]
  split
  · rw [UInt32.ofNat_toNat]
  · rfl

theorem Joined.roundTrips (joined : layout.Joined a here edge b there)
    (longer : (here.along edge).toNat ≤ (there.along edge).toNat) (count : Nat) :
    ∀ coord : UInt32, coord.toNat < (here.along edge).toNat → ∃ coord' : UInt32, coord'.toNat ≤ coord.toNat ∧
      layout.roundTrips edge count ⟨a, here.spot edge coord⟩ = some ⟨a, here.spot edge coord'⟩ := by
  induction count with
  | zero => exact fun coord _ => ⟨coord, Nat.le_refl _, rfl⟩
  | succ count ih =>
    intro coord within
    have less : (returned coord (here.along edge) (there.along edge)).toNat ≤ coord.toNat := by
      have bound := coord.toNat_lt
      rw [returned]
      split
      · exact Nat.le_refl _
      · rw [UInt32.toNat_ofNat_mod (by omega)]
        omega
    obtain ⟨coord', further, found⟩ := ih _ (Nat.lt_of_le_of_lt less within)
    refine ⟨coord', Nat.le_trans further less, ?_⟩
    rw [VirtualLayout.roundTrips, joined.roundTrip longer within, Option.bind_some, found]

theorem spot_injective {screen : Screen} {edge : Edge} {c c' : UInt32}
    (same : screen.spot edge c = screen.spot edge c') : c = c' := by
  cases edge <;> cases same <;> rfl

/-- However often the cursor goes over an edge and straight back, it is where it was exactly
if its place along the edge comes out even on the other side. -/
theorem roundTrips_return_iff (joined : layout.Joined a here edge b there)
    (longer : (here.along edge).toNat ≤ (there.along edge).toNat) (within : coord.toNat < (here.along edge).toNat)
    (count : Nat) :
    layout.roundTrips edge count ⟨a, here.spot edge coord⟩ = some ⟨a, here.spot edge coord⟩ ↔
      count = 0 ∨ (here.along edge).toNat - 1 ∣ coord.toNat * ((there.along edge).toNat - 1) := by
  by_cases even : (here.along edge).toNat - 1 ∣ coord.toNat * ((there.along edge).toNat - 1)
  · have stays : layout.roundTrip edge ⟨a, here.spot edge coord⟩ = some ⟨a, here.spot edge coord⟩ := by
      rw [joined.roundTrip longer within, returned, if_pos even]
    refine ⟨fun _ => .inr even, fun _ => ?_⟩
    induction count with
    | zero => rfl
    | succ count ih => rw [VirtualLayout.roundTrips, stays, Option.bind_some, ih (.inr even)]
  · rw [or_iff_left even]
    cases count with
    | zero => exact ⟨fun _ => rfl, fun _ => rfl⟩
    | succ count =>
      refine ⟨fun back => ?_, nofun⟩
      have some' : coord.toNat ≠ 0 := by
        intro zero
        rw [zero, Nat.zero_mul] at even
        exact even (Nat.dvd_zero _)
      have bound := coord.toNat_lt
      have less : (UInt32.ofNat (coord.toNat - 1)).toNat = coord.toNat - 1 := UInt32.toNat_ofNat_mod (by omega)
      obtain ⟨coord', further, found⟩ := joined.roundTrips longer count (UInt32.ofNat (coord.toNat - 1)) (by omega)
      rw [VirtualLayout.roundTrips, joined.roundTrip longer within, Option.bind_some, returned, if_neg even,
        found] at back
      have same := spot_injective (congrArg CursorState.position (Option.some.inj back))
      rw [same] at further
      omega

def sideBySide : VirtualLayout :=
  new.performAll [.addMachine ⟨⟨1⟩, ⟨1920, 1080⟩⟩, .addMachine ⟨⟨2⟩, ⟨2560, 1440⟩⟩, .link ⟨1⟩ .right ⟨2⟩]

theorem sideBySide_joined : sideBySide.Joined ⟨1⟩ ⟨1920, 1080⟩ .right ⟨2⟩ ⟨2560, 1440⟩ :=
  ⟨by decide, by decide, by decide, by decide⟩

theorem roundTrips_return_iff_corner :
    sideBySide.roundTrips .right 5 ⟨⟨1⟩, Screen.spot ⟨1920, 1080⟩ .right 1079⟩ =
      some ⟨⟨1⟩, Screen.spot ⟨1920, 1080⟩ .right 1079⟩ ↔ 5 = 0 ∨ 1080 - 1 ∣ 1079 * (1440 - 1) :=
  roundTrips_return_iff sideBySide_joined (by decide) (by decide) 5

/-- From the second line the cursor comes back to the first. -/
theorem roundTrip_drifts :
    sideBySide.roundTrips .right 1 ⟨⟨1⟩, ⟨1919, 1⟩⟩ = some ⟨⟨1⟩, ⟨1919, 0⟩⟩ ∧
      ¬ ∀ (layout : VirtualLayout) (a b : MachineId) (here there : Screen) (edge : Edge),
        layout.Joined a here edge b there → (here.along edge).toNat ≤ (there.along edge).toNat →
        ∀ coord : UInt32, coord.toNat < (here.along edge).toNat → ∀ count,
          layout.roundTrips edge count ⟨a, here.spot edge coord⟩ = some ⟨a, here.spot edge coord⟩ := by
  have drifted : sideBySide.roundTrips .right 1 ⟨⟨1⟩, ⟨1919, 1⟩⟩ = some ⟨⟨1⟩, ⟨1919, 0⟩⟩ := by decide
  refine ⟨drifted, fun returns => ?_⟩
  have again := returns sideBySide ⟨1⟩ ⟨2⟩ ⟨1920, 1080⟩ ⟨2560, 1440⟩ .right sideBySide_joined (by decide) 1
    (by decide) 1
  exact absurd (again.symm.trans drifted) (by decide)

end VirtualLayout
end Omnipresent
