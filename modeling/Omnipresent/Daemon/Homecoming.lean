import Omnipresent.Daemon.Homeward

/-! Whoever has the cursor, moving it straight back brings it home. The one peer it can
be lost on is one that goes by this machine's own name. -/
namespace Omnipresent
open Transition

namespace Shared
variable {s t : Shared}

/-- The cursor is on a peer's screen, and past this edge of it lies home. -/
structure Heading (s : Shared) (peer : MachineId) (edge : Edge) (here : Screen) : Prop where
  active : s.state.sessions.active = .remote peer
  identity : s.state.sessions.localMachine = s.localMachine
  cursor : s.state.cursor.machine = peer
  shown : s.state.layout.screen peer = some here
  honest : here.Honest
  inside : s.state.cursor.position.Inside here
  home : s.state.layout.neighbor peer edge = some s.localMachine
  own : s.state.layout.screen s.localMachine ≠ none

/-- The movement crosses onto this machine, which has the input from then on. -/
def ReachesHome (s : Shared) (delta : MouseDelta) : Prop :=
  ∃ t, s.advanceCursor delta = some (t, true) ∧ t.state.cursor.machine = s.localMachine ∧
    t.state.sessions.active = .here

theorem Heading.scaledDelta (heading : s.Heading peer edge here) :
    ∃ scaled, s.scaledDelta edge.unit = some scaled ∧ edge.Toward scaled := by
  rw [Shared.scaledDelta]
  rw [heading.cursor, heading.shown]
  dsimp only
  split
  · exact scaleDelta_unit edge s.localScreen heading.honest
  · exact ⟨edge.unit, rfl, edge.toward_unit⟩

theorem Heading.progress (heading : s.Heading peer edge here) (os : Option (Int32 × Int32)) :
    s.ReachesHome edge.unit ∨ ∃ t, Step s (.captured (.motion edge.unit) os) t ∧ t.Heading peer edge here ∧
      here.room t.state.cursor.position edge < here.room s.state.cursor.position edge := by
  obtain ⟨scaled, units, toward⟩ := heading.scaledDelta
  obtain ⟨there, own⟩ := Option.ne_none_iff_exists'.mp heading.own
  obtain ⟨active, identity, cursor, shown, honest, inside, home, known⟩ := heading
  have known' : s.state.layout.screen s.state.cursor.machine = some here := cursor ▸ shown
  obtain ⟨position, answer, kept, closer⟩ | ⟨entry, answer⟩ :=
    VirtualLayout.advance_toward toward known' inside (cursor ▸ home) own
  · right
    let t := (Shared.forwardPosition
      { s with state.cursor := ⟨s.state.cursor.machine, position⟩ } peer).syncSuppression
    have moved : s.advanceCursor edge.unit =
        some ({ s with state.cursor := ⟨s.state.cursor.machine, position⟩ }, false) := by
      simp only [advanceCursor, units, answer, Option.bind_eq_bind, Option.bind_some]
    refine ⟨t, ⟨?_, fun order same => by cases same⟩, ?_, closer⟩
    · simp only [run, routeCaptured, active, moved, Option.bind_eq_bind, Option.bind_some]
      rfl
    · exact ⟨active, identity, cursor, shown, honest, kept, home, known⟩
  · left
    have taken : s.state.sessions.handleCrossing ⟨s.localMachine, entry⟩ =
        (s.state.sessions.setActive .here, .ok ()) := if_pos identity.symm
    have placed := Unmoved.placeCursorAfterCrossing
      { s with state.sessions := s.state.sessions.setActive .here, state.cursor := ⟨s.localMachine, entry⟩ }
      ⟨s.localMachine, entry⟩
    refine ⟨_, ?_, congrArg CursorState.machine placed.cursor, ?_⟩
    · simp only [advanceCursor, units, answer, taken, Option.bind_eq_bind, Option.bind_some]
    · rw [placed.sessions]
      exact SessionManager.setActive_active _ _

theorem ReachesHome.step (home : s.ReachesHome delta) (active : s.state.sessions.active = .remote peer)
    (os : Option (Int32 × Int32)) :
    ∃ t, Step s (.captured (.motion delta) os) t ∧ t.state.sessions.active = .here := by
  obtain ⟨t, moved, _, target⟩ := home
  refine ⟨t.syncSuppression.notifyChange, ⟨?_, fun order same => by cases same⟩, target⟩
  simp only [run, routeCaptured, active, moved, Option.bind_eq_bind, Option.bind_some]
  rfl

/-- The machine with the cursor goes by this one's name, and past this edge of it lies
another peer, with nothing further on. -/
structure Lost (s : Shared) (edge : Edge) (far : MachineId) : Prop where
  sound : s.Sound
  homing : s.Homing
  screens : s.state.layout.screen s.localMachine = some s.localScreen ∧
    s.state.layout.screen far = some s.localScreen
  away : far ≠ s.localMachine
  ahead : s.state.layout.neighbor s.localMachine edge = some far
  beyond : s.state.layout.neighbor far edge = none
  active : s.state.sessions.active = .remote s.localMachine ∨ s.state.sessions.active = .remote far

theorem scaleDelta_self (delta : MouseDelta) (screen : Screen) : scaleDelta delta screen screen = some delta := by
  simp only [scaleDelta, scaleAxis, or_true, if_true, Option.bind_eq_bind, Option.bind_some]

theorem Lost.moved (lost : s.Lost edge far) (sound : t.Sound) (homing : t.Homing)
    (layout : t.state.layout = s.state.layout) (localMachine : t.localMachine = s.localMachine)
    (localScreen : t.localScreen = s.localScreen)
    (active : t.state.sessions.active = .remote s.localMachine ∨ t.state.sessions.active = .remote far) :
    t.Lost edge far := by
  refine ⟨sound, homing, ?_, ?_, ?_, ?_, ?_⟩ <;> simp only [layout, localMachine, localScreen]
  exacts [lost.screens, lost.away, lost.ahead, lost.beyond, active]

theorem rest_frame (s : Shared) (position : Point) :
    (s.rest position).state.sessions = s.state.sessions ∧ (s.rest position).state.layout = s.state.layout ∧
      (s.rest position).localMachine = s.localMachine ∧ (s.rest position).localScreen = s.localScreen := by
  rw [rest]
  split <;> exact ⟨rfl, rfl, rfl, rfl⟩

theorem cross_frame (s : Shared) (peer : MachineId) (entry : Point) :
    (s.cross peer entry).state.sessions.active = (if peer = s.localMachine then .here else .remote peer) ∧
      (s.cross peer entry).state.layout = s.state.layout ∧
      (s.cross peer entry).localMachine = s.localMachine ∧ (s.cross peer entry).localScreen = s.localScreen := by
  rw [cross, placeCursorAfterCrossing]
  dsimp only
  split <;> exact ⟨SessionManager.setActive_active _ _, rfl, rfl, rfl⟩

theorem Lost.step (lost : s.Lost edge far) (toward : edge.Toward delta)
    (step : Step s (.captured (.motion delta) os) t) : t.Lost edge far := by
  have sound := step.sound lost.sound
  have homing := step.homing trivial lost.sound lost.homing
  have tracked : s.tracked os = s := by
    rw [Shared.tracked]
    rcases lost.active with active | active <;> rw [active]
  have captures := lost.sound.captures step.1
  have machine : s.state.cursor.machine = s.localMachine ∨ s.state.cursor.machine = far := by
    rw [lost.sound.cursor]
    rcases lost.active with active | active
    · exact .inl (by rw [active, ActiveTarget.holder])
    · exact .inr (by rw [active, ActiveTarget.holder])
  have shown : s.state.layout.screen s.state.cursor.machine = some s.localScreen := by
    rcases machine with same | same <;> rw [same]
    · exact lost.screens.1
    · exact lost.screens.2
  have units : s.scaledDelta delta = some delta := by
    rw [Shared.scaledDelta]
    rw [shown]
    dsimp only
    rw [scaleDelta_self, ite_self]
  cases captures with
  | idle _ still | forwarded _ still => exact absurd rfl (still delta)
  | stays =>
    rw [tracked] at sound homing ⊢
    obtain ⟨sessions, layout, localMachine, localScreen⟩ := s.rest_frame ‹Point›
    exact lost.moved sound homing layout localMachine localScreen (by rw [sessions]; exact lost.active)
  | crosses scaled _ exit _ =>
    rw [tracked] at sound homing scaled exit ⊢
    obtain ⟨here, known, past, linked⟩ := exit
    obtain rfl := Option.some.inj (units.symm.trans scaled)
    rw [lost.sound.laidOut.screens] at known
    obtain rfl := toward.past (lost.homing.cursor known) past
    rcases machine with same | same <;> rw [same] at linked
    · obtain rfl := Option.some.inj (lost.ahead.symm.trans linked)
      obtain ⟨active, layout, localMachine, localScreen⟩ := s.cross_frame far ‹Point›
      exact lost.moved sound homing layout localMachine localScreen (.inr (active.trans (if_neg lost.away)))
    · exact absurd (lost.beyond.symm.trans linked) (Option.some_ne_none _).symm

theorem Lost.run {deltas : List MouseDelta} (lost : s.Lost edge far) (toward : ∀ delta ∈ deltas, edge.Toward delta)
    (moves : Reaches Step s (deltas.map fun delta => .captured (.motion delta) os) t) : t.Lost edge far := by
  have each : ∀ op ∈ deltas.map fun delta => Op.captured (.motion delta) os,
      ∃ delta, op = .captured (.motion delta) os ∧ edge.Toward delta := by
    intro op member
    obtain ⟨delta, listed, rfl⟩ := List.mem_map.mp member
    exact ⟨delta, rfl, toward delta listed⟩
  refine (moves.guard _ each).invariant (P := fun s => s.Lost edge far) ?_ lost
  rintro s _ t lost ⟨⟨delta, rfl, toward⟩, step⟩
  exact lost.step toward step

/-- In a sound state the way back is straight ahead. -/
theorem Sound.heading (sound : s.Sound) (homing : s.Homing) (active : s.state.sessions.active = .remote peer)
    (back : s.state.layout.neighbor peer edge = some s.localMachine) : ∃ here, s.Heading peer edge here := by
  have cursor : s.state.cursor.machine = peer := by rw [sound.cursor, active, ActiveTarget.holder]
  obtain ⟨here, shown⟩ := sound.screen_cursor
  have known := shown
  rw [sound.laidOut.screens] at known
  refine ⟨here, active, sound.identity, cursor, cursor ▸ shown, homing.screenOf known, homing.cursor known,
    back, ?_⟩
  rw [sound.laidOut.screens, screenOf, if_pos rfl]
  exact Option.some_ne_none _

end Shared

theorem sound_homing {localMachine : MachineId} {localScreen : Screen} (honest : localScreen.Honest)
    (run : Reaches (guarded Step fun _ op => op.Sized)
      (.start localMachine localScreen trust sink placements modifierSwaps) ops s) : s.Sound ∧ s.Homing := by
  refine run.invariant (P := fun s => s.Sound ∧ s.Homing) ?_
    ⟨Shared.start_sound _ _ _ _ _ _, .start honest _ _ _ _ _⟩
  rintro s op t ⟨sound, homing⟩ ⟨sized, step⟩
  exact ⟨step.sound sound, step.homing sized sound homing⟩

/-- In every state a daemon with honest screens reaches, whatever peer has the cursor:
movements towards the edge opposite the peer's own lead home, as long as the peer
does not go by this machine's own name and find its way back taken by another. -/
theorem comes_home {localMachine : MachineId} {localScreen : Screen} (honest : localScreen.Honest)
    (run : Reaches (guarded Step fun _ op => op.Sized)
      (.start localMachine localScreen trust sink placements modifierSwaps) ops s)
    (active : s.state.sessions.active = .remote peer)
    (named : peer = s.localMachine → ∀ link, s.state.links.lookup peer = some link →
      s.state.layout.neighbor peer link.edge.opposite = some s.localMachine) (os : Option (Int32 × Int32)) :
    ∃ link, s.state.links.lookup peer = some link ∧
      ∃ (deltas : List MouseDelta) (delta : MouseDelta) (t u : Shared),
      (∀ delta' ∈ deltas ++ [delta], link.edge.opposite.Toward delta') ∧
      Reaches Step s (deltas.map fun delta' => .captured (.motion delta') os) t ∧
      t.state.sessions.active = .remote peer ∧ t.ReachesHome delta ∧
      Step t (.captured (.motion delta) os) u ∧ u.state.sessions.active = .here := by
  obtain ⟨sound, homing⟩ := sound_homing honest run
  obtain ⟨link, linked⟩ := Finmap.mem_iff.mp (sound.remote_linked active)
  have back : s.state.layout.neighbor peer link.edge.opposite = some s.localMachine := by
    by_cases own : peer = s.localMachine
    · exact named own link linked
    · exact homing.homeward linked own
  obtain ⟨here, heading⟩ := sound.heading homing active back
  obtain ⟨count, t, way, arrived, home⟩ := Reaches.descends
    (fun t : Shared => here.room t.state.cursor.position link.edge.opposite)
    (fun {t : Shared} (heading : t.Heading peer link.edge.opposite here) => heading.progress os) heading
  obtain ⟨u, last, target⟩ := home.step arrived.active os
  refine ⟨link, linked, List.replicate count link.edge.opposite.unit, link.edge.opposite.unit, t, u, ?_, ?_,
    arrived.active, home, last, target⟩
  · intro delta member
    rw [← List.replicate_succ', List.mem_replicate] at member
    exact member.2 ▸ Edge.toward_unit _
  · rwa [List.map_replicate]

theorem comes_home_crossed : ∃ s : Shared,
    s.state.sessions.active = .remote (machineIdOf (.filled 2)) ∧
    ∃ link, s.state.links.lookup (machineIdOf (.filled 2)) = some link ∧
      ∃ (deltas : List MouseDelta) (delta : MouseDelta) (t u : Shared),
      (∀ delta' ∈ deltas ++ [delta], link.edge.opposite.Toward delta') ∧
      Reaches Step s (deltas.map fun delta' => .captured (.motion delta') none) t ∧
      t.state.sessions.active = .remote (machineIdOf (.filled 2)) ∧ t.ReachesHome delta ∧
      Step t (.captured (.motion delta) none) u ∧ u.state.sessions.active = .here := by
  obtain ⟨s, run, tested⟩ := Reaches.of_any Step.of_execute
    (show ([.dialled "desk" (.filled 2) ⟨7⟩ ⟨3840, 2160⟩ .done [machineIdOf (.filled 2)],
        .captured (.motion ⟨2000, 0⟩) (some (1900, 500))].foldlM
          Shared.execute (.start ⟨1⟩ ⟨1920, 1080⟩ ⟨.missing, []⟩ none ∅ ∅)).any
      (fun s => s.state.sessions.active = .remote (machineIdOf (.filled 2)) ∧ s.localMachine = ⟨1⟩) = true by
        decide +kernel)
  obtain ⟨active, own⟩ := of_decide_eq_true tested
  have sized := run.guard Op.Sized (by simp [Op.Sized]; decide)
  refine ⟨s, active, comes_home (by decide) sized active (fun same => ?_) none⟩
  exact absurd (same.trans own) (by decide)

/-- A machine under the same name is dialled and a tablet dials in; when the namesake
says its cursor is back, movements away from its edge lead onto the tablet. -/
theorem lost_on_namesake : ¬ ∀ (localMachine : MachineId) (localScreen : Screen) (trust : TrustState)
    (sink : Option (List (Int32 × Int32))) (placements : HashMap String Edge)
    (modifierSwaps : HashMap String ModifierSwap) (ops : List Op) (s : Shared) (peer : MachineId),
    localScreen.Honest →
    Reaches (guarded Step fun _ op => op.Sized)
      (.start localMachine localScreen trust sink placements modifierSwaps) ops s →
    s.state.sessions.active = .remote peer →
    ∃ link, s.state.links.lookup peer = some link ∧ ∃ (deltas : List MouseDelta) (t : Shared),
      (∀ delta ∈ deltas, link.edge.opposite.Toward delta) ∧
      Reaches Step s (deltas.map fun delta => .captured (.motion delta) none) t ∧
      t.state.sessions.active = .here := by
  intro homeward
  have honest : (Screen.mk 100 100).Honest := by decide
  let own := machineIdOf (.filled 1)
  let tablet := machineIdOf (.filled 2)
  obtain ⟨s, run, tested⟩ := Reaches.of_any Step.of_execute
    (show ([.dialled "twin" (.filled 1) ⟨7⟩ ⟨100, 100⟩ .done [own],
        .incoming "tablet" (.filled 2) ⟨8⟩ ⟨100, 100⟩ [own, tablet],
        .signalled own ⟨7⟩ (.cursorReturned ⟨7⟩ 50 50)].foldlM
          Shared.execute (.start own ⟨100, 100⟩ ⟨.missing, []⟩ none ∅ ∅)).any
      (fun s => s.localMachine = own ∧ s.state.sessions.active = .remote own ∧
        (s.state.links.lookup own).map (·.edge) = some .right ∧
        (s.state.layout.screen own = some s.localScreen ∧ s.state.layout.screen tablet = some s.localScreen) ∧
        s.state.layout.neighbor own .left = some tablet ∧ s.state.layout.neighbor tablet .left = none) = true by
          decide +kernel)
  obtain ⟨same, active, edge, screens, ahead, beyond⟩ := of_decide_eq_true tested
  have sized := run.guard Op.Sized (by simp [Op.Sized]; decide)
  obtain ⟨link, linked, deltas, t, toward, moves, home⟩ := homeward _ _ _ _ _ _ _ s own honest sized active
  have past : link.edge.opposite = .left := by
    rw [linked, Option.map_some, Option.some.injEq] at edge
    rw [edge]
    rfl
  rw [past] at toward
  obtain ⟨sound, homing⟩ := sound_homing honest sized
  have lost : s.Lost .left tablet :=
    ⟨sound, homing, same ▸ screens, same ▸ (by decide), same ▸ ahead, beyond, .inl (same ▸ active)⟩
  rcases (lost.run toward moves).active with away | away <;> rw [home] at away <;> cases away

end Omnipresent
