import Omnipresent.Topology.Advance
import Omnipresent.Topology.Symmetry

/-! A movement of the cursor does what it says: it crosses where the candidate position is
past an edge with a neighbor, over the one overshot most and onto that neighbor's entry
side, and stops as close to the candidate as the screen allows where there is none. -/
namespace Omnipresent

theorem maxByKey_max {key : α → Int} (found : maxByKey key l = some a) (listed : b ∈ l) : key b ≤ key a := by
  induction l generalizing a b with
  | nil => exact absurd listed List.not_mem_nil
  | cons first rest ih =>
    simp only [maxByKey] at found
    cases later : maxByKey key rest with
    | none =>
      rw [maxByKey_eq_none.mp later] at listed
      rw [later] at found
      cases found
      rw [List.mem_singleton.mp listed]
    | some c =>
      simp only [later] at found
      have rests : ∀ d ∈ rest, key d ≤ key c := fun d member => ih later member
      split at found
      · cases found
        rcases List.mem_cons.mp listed with rfl | member
        · exact Int.le_refl _
        · have := rests b member
          omega
      · cases found
        rcases List.mem_cons.mp listed with rfl | member
        · omega
        · exact rests b member

def Screen.along (screen : Screen) (edge : Edge) : UInt32 :=
  if edge.isHorizontal then screen.height else screen.width

theorem Screen.along_opposite (screen : Screen) (edge : Edge) :
    screen.along edge.opposite = screen.along edge := by
  cases edge <;> rfl

def Screen.spot (screen : Screen) (edge : Edge) (coord : UInt32) : Point :=
  match edge with
  | .left => ⟨0, coord⟩
  | .right => ⟨lastOf screen.width, coord⟩
  | .top => ⟨coord, 0⟩
  | .bottom => ⟨coord, lastOf screen.height⟩

/-- The point is as far as the screen goes towards this edge. -/
def Screen.OnSide (screen : Screen) (point : Point) : Edge → Prop
  | .left => point.x.toNat = 0
  | .right => point.x.toNat + 1 = screen.width.toNat
  | .top => point.y.toNat = 0
  | .bottom => point.y.toNat + 1 = screen.height.toNat

theorem Screen.Shown.spot {screen : Screen} (shown : screen.Shown) {edge : Edge} {coord : UInt32}
    (within : coord.toNat < (screen.along edge).toNat) :
    (screen.spot edge coord).Inside screen ∧ screen.OnSide (screen.spot edge coord) edge := by
  obtain ⟨wide, tall⟩ := shown
  have lastX := lastOf_toNat screen.width
  have lastY := lastOf_toNat screen.height
  cases edge with
  | left => exact ⟨⟨wide, within⟩, rfl⟩
  | right => exact ⟨⟨show (lastOf screen.width).toNat < _ by omega, within⟩,
      show (lastOf screen.width).toNat + 1 = _ by omega⟩
  | top => exact ⟨⟨within, tall⟩, rfl⟩
  | bottom => exact ⟨⟨within, show (lastOf screen.height).toNat < _ by omega⟩,
      show (lastOf screen.height).toNat + 1 = _ by omega⟩

theorem Screen.Shown.along {screen : Screen} (shown : screen.Shown) (edge : Edge) :
    0 < (screen.along edge).toNat := by
  rw [Screen.along]
  split
  · exact shown.2
  · exact shown.1

/-- Whoever crosses an edge enters on the opposite side, as far along it as the edge was
crossed, in proportion. -/
theorem entryPoint_eq (edge : Edge) (peer src : Screen) (candX candY : Int) :
    entryPoint edge peer src candX candY =
      (project (if edge.isHorizontal then candY else candX) (src.along edge) (peer.along edge)).map
        (peer.spot edge.opposite) := by
  cases edge with
  | left | right =>
    change (project candY src.height peer.height).bind _ = (project candY src.height peer.height).map _
    cases project candY src.height peer.height <;> rfl
  | top | bottom =>
    change (project candX src.width peer.width).bind _ = (project candX src.width peer.width).map _
    cases project candX src.width peer.width <;> rfl

theorem entryPoint_entered (edge : Edge) {peer : Screen} (shown : peer.Shown) (src : Screen) (candX candY : Int) :
    ∃ entry, entryPoint edge peer src candX candY = some entry ∧ entry.Inside peer ∧
      peer.OnSide entry edge.opposite := by
  obtain ⟨coord, found, within⟩ :=
    project_spec (if edge.isHorizontal then candY else candX) (src.along edge) (peer.along edge)
  have inside : coord.toNat < (peer.along edge.opposite).toNat := by
    rw [Screen.along_opposite]
    exact within (shown.along edge)
  refine ⟨peer.spot edge.opposite coord, ?_, shown.spot inside⟩
  rw [entryPoint_eq, found, Option.map_some]

/-- No spot of the screen is closer to the candidate position on either axis. -/
def Screen.Nearest (screen : Screen) (candX candY : Int) (position : Point) : Prop :=
  position.Inside screen ∧ ∀ other : Point, other.Inside screen →
    (candX - position.x.toNat).natAbs ≤ (candX - other.x.toNat).natAbs ∧
      (candY - position.y.toNat).natAbs ≤ (candY - other.y.toNat).natAbs

theorem Screen.Shown.nearest {screen : Screen} (shown : screen.Shown) (candX candY : Int) :
    ∃ position, screen.nearest candX candY = some position ∧ screen.Nearest candX candY position := by
  obtain ⟨wide, tall⟩ := shown
  refine ⟨_, if_pos ⟨wide, tall⟩, Screen.nearest_inside (if_pos ⟨wide, tall⟩), fun other ⟨insideX, insideY⟩ => ?_⟩
  rw [nearest_toNat wide, nearest_toNat tall]
  constructor
  · omega
  · omega

/-- The machines a call puts on the desktop have both sides. -/
def LayoutCall.Shown : LayoutCall → Prop
  | .addMachine machine => machine.screen.Shown
  | .link .. => True

instance : (call : LayoutCall) → Decidable call.Shown
  | .addMachine machine => inferInstanceAs (Decidable machine.screen.Shown)
  | .link .. => inferInstanceAs (Decidable True)

namespace VirtualLayout
variable {layout : VirtualLayout} {cursor : CursorState} {delta : MouseDelta} {here : Screen}

theorem chosen_most (found : layout.chosen machine horizontal vertical = some (edge, excess, peer))
    (ran : horizontal = some (edge', excess') ∨ vertical = some (edge', excess'))
    (linked : layout.neighbor machine edge' = some peer') : excess' ≤ excess := by
  refine maxByKey_max (b := (edge', excess', peer')) found ?_
  simp only [List.mem_filterMap, List.reduceOption_mem_iff, List.mem_cons, List.not_mem_nil, or_false,
    Option.map_eq_some_iff, Prod.exists]
  exact ⟨edge', excess', ran.imp Eq.symm Eq.symm, peer', linked, rfl⟩

/-- What `advance` is there for, on a screen the cursor is on. -/
structure Moved (layout : VirtualLayout) (here : Screen) (cursor : CursorState) (delta : MouseDelta)
    (advance : Advance) : Prop where
  crossing_iff : advance.crossing.isSome ↔ ∃ edge peer, layout.Exit cursor delta edge peer
  crosses : ∀ crossing, advance.crossing = some crossing →
    ∃ edge there, layout.Exit cursor delta edge crossing.peer ∧
      (∀ edge' peer', layout.Exit cursor delta edge' peer' →
        here.overshoot (cursor.candX delta) (cursor.candY delta) edge' ≤
          here.overshoot (cursor.candX delta) (cursor.candY delta) edge) ∧
      layout.screen crossing.peer = some there ∧ crossing.entry.Inside there ∧
      there.OnSide crossing.entry edge.opposite ∧ advance.cursor = ⟨crossing.peer, crossing.entry⟩
  stays : advance.crossing = none → advance.cursor.machine = cursor.machine ∧
    here.Nearest (cursor.candX delta) (cursor.candY delta) advance.cursor.position

/-- Every machine has a screen with both sides, and so has every neighbor. -/
structure Furnished (layout : VirtualLayout) : Prop where
  shown : ∀ m screen, layout.screen m = some screen → screen.Shown
  closed : ∀ m e p, layout.neighbor m e = some p → ∃ screen, layout.screen p = some screen

theorem Furnished.advance (furnished : layout.Furnished) (known : layout.screen cursor.machine = some here) :
    ∃ advance, layout.advance cursor delta = some (.ok advance) ∧ layout.Moved here cursor delta advance := by
  have past := overshot_iff here (cursor.candX delta) (cursor.candY delta)
  have exit_iff : ∀ edge peer, layout.Exit cursor delta edge peer ↔
      here.Past (cursor.candX delta) (cursor.candY delta) edge ∧ layout.neighbor cursor.machine edge = some peer := by
    intro edge peer
    simp only [Exit, known, Option.some.injEq, exists_eq_left']
  rw [advance_eq known]
  cases choice : layout.chosen cursor.machine (overshot (cursor.candX delta) here.width.toNat .left .right)
      (overshot (cursor.candY delta) here.height.toNat .top .bottom) with
  | some candidate =>
    obtain ⟨edge, excess, peer⟩ := candidate
    obtain ⟨linked, ran⟩ := chosen_eq_some choice
    obtain ⟨beyond, rfl⟩ := (past edge excess).mp ran
    have exit := (exit_iff edge peer).mpr ⟨beyond, linked⟩
    obtain ⟨there, peerKnown⟩ := furnished.closed _ _ _ linked
    obtain ⟨entry, found, inside, side⟩ := entryPoint_entered edge (furnished.shown _ _ peerKnown) here
      (cursor.candX delta) (cursor.candY delta)
    simp only [peerKnown, found, Option.map_some]
    refine ⟨_, rfl, ⟨fun _ => ⟨edge, peer, exit⟩, fun _ => rfl⟩, fun crossing same => ?_, nofun⟩
    cases same
    refine ⟨edge, there, exit, fun edge' peer' exit' => ?_, peerKnown, inside, side, rfl⟩
    obtain ⟨beyond', linked'⟩ := (exit_iff edge' peer').mp exit'
    exact chosen_most choice ((past edge' _).mpr ⟨beyond', rfl⟩) linked'
  | none =>
    obtain ⟨position, found, nearest⟩ := (furnished.shown _ _ known).nearest (cursor.candX delta) (cursor.candY delta)
    simp only [found, Option.map_some]
    refine ⟨_, rfl, ⟨nofun, fun ⟨edge, peer, exit⟩ => ?_⟩, nofun, fun _ => ⟨rfl, nearest⟩⟩
    obtain ⟨beyond, linked⟩ := (exit_iff edge peer).mp exit
    exact absurd (linked.symm.trans (chosen_eq_none choice ((past edge _).mpr ⟨beyond, rfl⟩))) nofun

theorem Furnished.new : new.Furnished :=
  ⟨fun m screen found => by simp at found, fun m e p found => by simp at found⟩

theorem Furnished.perform (furnished : layout.Furnished) (call : LayoutCall) (shown : call.Shown) :
    (layout.perform call).1.Furnished := by
  cases call with
  | addMachine machine =>
    refine ⟨fun m screen found => ?_, fun m e p found => ?_⟩
    · rw [VirtualLayout.perform, addMachine_screen] at found
      split at found
      · cases known : layout.screen m with
        | none =>
          rw [known, Option.getD_none] at found
          cases found
          exact shown
        | some before =>
          rw [known, Option.getD_some] at found
          cases found
          exact furnished.shown m _ known
      · exact furnished.shown m screen found
    · rw [VirtualLayout.perform, addMachine_neighbor] at found
      obtain ⟨screen, known⟩ := furnished.closed m e p found
      rw [VirtualLayout.perform, addMachine_screen]
      split
      · exact ⟨_, rfl⟩
      · exact ⟨screen, known⟩
  | link a edge b =>
    refine ⟨fun m screen found => ?_, fun m e p found => ?_⟩
    · rw [VirtualLayout.perform, link_screen] at found
      exact furnished.shown m screen found
    · rw [VirtualLayout.perform] at found ⊢
      rw [link_screen]
      by_cases known : a ∈ layout.screens ∧ b ∈ layout.screens
      · rcases link_neighbor found with ⟨_, rfl⟩ | ⟨_, rfl⟩ | old
        · exact Finmap.mem_iff.mp known.1
        · exact Finmap.mem_iff.mp known.2
        · exact furnished.closed m e p old
      · rw [link_eq_self known] at found
        exact furnished.closed m e p found

theorem Furnished.performAll {calls : List LayoutCall} (shown : ∀ call ∈ calls, call.Shown) :
    (VirtualLayout.new.performAll calls).Furnished := by
  induction calls using List.reverseRecOn with
  | nil => exact .new
  | append_singleton earlier call ih =>
    rw [VirtualLayout.performAll_append]
    refine (ih fun call listed => shown call (List.mem_append_left _ listed)).perform call ?_
    exact shown call (List.mem_append_right _ (List.mem_singleton_self call))

/-- However the desktop was put together of screens with both sides, a movement fails only
where the cursor is on no machine of it, and does what it says elsewhere. -/
theorem advance_correct (calls : List LayoutCall) (shown : ∀ call ∈ calls, call.Shown) (cursor : CursorState)
    (delta : MouseDelta) :
    (∀ e, (new.performAll calls).advance cursor delta = some (.error e) →
      (new.performAll calls).screen cursor.machine = none) ∧
      ∀ here, (new.performAll calls).screen cursor.machine = some here →
        ∃ advance, (new.performAll calls).advance cursor delta = some (.ok advance) ∧
          (new.performAll calls).Moved here cursor delta advance := by
  have furnished := Furnished.performAll shown
  refine ⟨fun e failed => ?_, fun here known => furnished.advance known⟩
  cases known : (new.performAll calls).screen cursor.machine with
  | none => rfl
  | some here =>
    obtain ⟨advance, found, _⟩ : ∃ advance, (new.performAll calls).advance cursor delta = some (.ok advance) ∧ _ :=
      furnished.advance known
    cases found.symm.trans failed

theorem advance_correct_linked :
    let layout := new.performAll [.addMachine ⟨⟨1⟩, ⟨100, 100⟩⟩, .addMachine ⟨⟨2⟩, ⟨200, 50⟩⟩, .link ⟨1⟩ .right ⟨2⟩]
    ∃ advance, layout.advance ⟨⟨1⟩, ⟨99, 60⟩⟩ ⟨10, 0⟩ = some (.ok advance) ∧
      layout.Moved ⟨100, 100⟩ ⟨⟨1⟩, ⟨99, 60⟩⟩ ⟨10, 0⟩ advance :=
  (advance_correct _ (by decide) _ _).2 ⟨100, 100⟩ (by decide)

end VirtualLayout
end Omnipresent
