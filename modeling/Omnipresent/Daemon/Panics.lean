import Omnipresent.Daemon.Bounds
import Omnipresent.Input.Desktop

/-! When moving the cursor panics: under the state lock, on a screen with a side of zero, unless
the movement runs off it onto a neighbor; and in the sink, which adds the corner of the desktop
to where the cursor is to go, where a sum overflows. What the OS answers for the place of its own
cursor is taken as it comes. -/
namespace Omnipresent
open Transition

/-- The cursor is on a screen it cannot be kept on, with no way off it. -/
def VirtualLayout.Stuck (layout : VirtualLayout) (cursor : CursorState) (delta : MouseDelta) : Prop :=
  (∃ here, layout.screen cursor.machine = some here ∧ (here.width.toNat = 0 ∨ here.height.toNat = 0)) ∧
    ∀ edge peer, ¬ layout.Exit cursor delta edge peer

/-- `advance` panics exactly there, whatever the layout, the cursor and the move. -/
theorem VirtualLayout.advance_eq_none (layout : VirtualLayout) (cursor : CursorState) (delta : MouseDelta) :
    layout.advance cursor delta = none ↔ layout.Stuck cursor delta := by
  have spec := advance_spec layout cursor delta
  generalize layout.advance cursor delta = result at spec
  cases spec with
  | unknown lost =>
    simp only [reduceCtorEq, false_iff]
    rintro ⟨⟨here, shown, _⟩, _⟩
    exact nomatch shown.symm.trans lost
  | lost exit _ | crosses exit _ _ =>
    simp only [reduceCtorEq, false_iff]
    exact fun stuck => stuck.2 _ _ exit
  | stays known inside _ =>
    simp only [reduceCtorEq, false_iff]
    rintro ⟨⟨here, shown, degenerate⟩, _⟩
    obtain rfl := Option.some.inj (known.symm.trans shown)
    obtain ⟨column, row⟩ := inside
    omega
  | panics known degenerate blocked =>
    simp only [true_iff]
    exact ⟨⟨_, known, degenerate⟩, blocked⟩

namespace Shared

theorem scaledDelta_isSome (s : Shared) (delta : MouseDelta) : ∃ scaled, s.scaledDelta delta = some scaled := by
  rw [scaledDelta]
  split
  · split
    · exact scaleDelta_isSome delta _ _
    · exact ⟨delta, rfl⟩
  · exact ⟨delta, rfl⟩

theorem advanceCursor_eq_none (s : Shared) (delta : MouseDelta) : s.advanceCursor delta = none ↔
    ∃ scaled, s.scaledDelta delta = some scaled ∧ s.state.layout.Stuck s.state.cursor scaled := by
  obtain ⟨scaled, units⟩ := s.scaledDelta_isSome delta
  simp only [units, Option.some.injEq, exists_eq_left', ← VirtualLayout.advance_eq_none]
  rw [advanceCursor]
  simp only [units, Option.bind_eq_bind, Option.bind_some]
  cases s.state.layout.advance s.state.cursor scaled with
  | none => simp
  | some result =>
    simp only [Option.bind_some, reduceCtorEq, iff_false]
    split
    · simp
    · split
      · simp
      · split <;> simp

/-- The operation is a captured movement that finds the cursor stuck. -/
def Stuck (self : Shared) (op : Op) : Prop :=
  ∃ delta os, op = .captured (.motion delta) os ∧ ∃ scaled, (self.tracked os).scaledDelta delta = some scaled ∧
    (self.tracked os).state.layout.Stuck (self.tracked os).state.cursor scaled

theorem routeCaptured_motion (s : Shared) (delta : MouseDelta) (os : Option (Int32 × Int32)) :
    s.routeCaptured (.motion delta) os = none ↔ (s.tracked os).advanceCursor delta = none := by
  unfold routeCaptured tracked
  cases s.state.sessions.active with
  | here =>
    dsimp only
    generalize (s.syncCursorToOs os).advanceCursor delta = moved
    cases moved <;> simp
  | remote peer =>
    dsimp only
    generalize s.advanceCursor delta = moved
    cases moved <;> simp

/-- Of all the daemon does under its lock, only such a movement panics. -/
theorem run_eq_none (s : Shared) (op : Op) : s.run op = none ↔ s.Stuck op := by
  cases op with
  | captured event os =>
    cases event with
    | motion delta =>
      change s.routeCaptured (.motion delta) os = none ↔ _
      rw [routeCaptured_motion, advanceCursor_eq_none]
      constructor
      · exact fun stuck => ⟨delta, os, rfl, stuck⟩
      · rintro ⟨delta', os', same, stuck⟩
        cases same
        exact stuck
    | _ =>
      simp only [run, routeCaptured, Stuck]
      cases s.state.sessions.active <;> simp
  | _ => simp [run, Stuck]

end Shared

namespace Shared
variable {s t u : Shared} {desktop : Option ReportedBounds}

/-- Where the sink was told to put the cursor since. -/
def warpedSince (self before : Shared) : List (Int32 × Int32) :=
  (self.sink.getD []).drop (before.sink.getD []).length

/-- The sink's sums for a position; there are none where the OS tells of no desktop. -/
def addsUp (desktop : Option ReportedBounds) (position : Int32 × Int32) : Bool :=
  desktop.all fun bounds => (bounds.toScreenChecked position.1 position.2).isSome

/-- What an operation leaves behind where the desktop is this one, the sink's part included. -/
def runOn (self : Shared) (desktop : Option ReportedBounds) (op : Op) : Option Shared :=
  (self.run op).filter fun after => (after.warpedSince self).all (addsUp desktop)

/-- A peer that takes over asks for a position whose sums with the desktop's corner are no `i32`s. -/
def Overflows (self : Shared) (desktop : Option ReportedBounds) (op : Op) : Prop :=
  self.sink.isSome ∧ ∃ bounds ∈ desktop, ∃ machine session x y,
    op = .signalled machine session (.cursorWarp session x y) ∧ ¬ bounds.Fits x y

/-- This machine's screen, put at the corner of the desktop, has `i32` coordinates. -/
def Roomy (self : Shared) (desktop : Option ReportedBounds) : Prop :=
  ∀ bounds ∈ desktop, self.localScreen.Honest ∧ bounds.originX.toInt + self.localScreen.width.toNat ≤ 2 ^ 31 ∧
    bounds.originY.toInt + self.localScreen.height.toNat ≤ 2 ^ 31

theorem addsUp_of_fits (fits : ∀ bounds ∈ desktop, bounds.Fits x y) : addsUp desktop (x, y) = true := by
  cases desktop with
  | none => rfl
  | some bounds =>
    rw [addsUp, Option.all_some, DesktopBounds.toScreenChecked_eq, if_pos (fits bounds rfl)]
    rfl

theorem warpedSince_same (sink : t.sink = s.sink) : t.warpedSince s = [] := by
  rw [warpedSince, sink, List.drop_length]

theorem warpedSince_warp (sink : t.sink = s.sink.map (· ++ [position])) :
    t.warpedSince s = if s.sink.isSome then [position] else [] := by
  rw [warpedSince, sink]
  cases s.sink with
  | none => rfl
  | some earlier => exact List.drop_left

theorem tracked_sink (s : Shared) (os : Option (Int32 × Int32)) : (s.tracked os).sink = s.sink := by
  rw [tracked]
  cases s.state.sessions.active with
  | remote peer => rfl
  | here => cases os <;> rfl

theorem tracked_localScreen (s : Shared) (os : Option (Int32 × Int32)) :
    (s.tracked os).localScreen = s.localScreen ∧ (s.tracked os).localMachine = s.localMachine := by
  rw [tracked]
  cases s.state.sessions.active with
  | remote peer => exact ⟨rfl, rfl⟩
  | here => cases os <;> exact ⟨rfl, rfl⟩

theorem cross_sink (s : Shared) (peer : MachineId) (entry : Point) : (s.cross peer entry).sink =
    if peer = s.localMachine then s.sink.map (· ++ [(entry.x.toInt32, entry.y.toInt32)]) else s.sink := by
  rw [cross, placeCursorAfterCrossing]
  dsimp only
  split
  · rfl
  · rfl

/-- A captured event has the sink put the cursor nowhere, or on this machine's own screen. -/
theorem Captures.sink (captures : Captures s os event t) (sound : s.Sound) :
    t.sink = s.sink ∨ ∃ entry : Point, (s.localScreen.Shown → entry.Inside s.localScreen) ∧
      t.sink = s.sink.map (· ++ [(entry.x.toInt32, entry.y.toInt32)]) := by
  cases captures with
  | idle | forwarded => exact .inl rfl
  | stays =>
    left
    rw [rest]
    split
    · exact tracked_sink s os
    · exact tracked_sink s os
  | @crosses _ _ peer entry _ _ _ _ inside =>
    have placed := cross_sink (s.tracked os) peer entry
    obtain ⟨screen, machine⟩ := s.tracked_localScreen os
    rw [tracked_sink, machine] at placed
    by_cases own : peer = s.localMachine
    · rw [if_pos own] at placed
      refine .inr ⟨entry, fun shown => inside s.localScreen ?_ shown.1 shown.2, placed⟩
      rw [(sound.tracked os).laidOut.screens, screenOf, machine, if_pos own, screen]
    · rw [if_neg own] at placed
      exact .inl placed

theorem yieldControlToPeer_sink (s : Shared) : s.yieldControlToPeer.sink = s.sink := by
  rw [yieldControlToPeer_eq]
  split
  · rfl
  · rfl

theorem followPeerCursor_sink (s : Shared) (peer : MachineId) (x y : Int32) :
    (s.followPeerCursor peer x y).sink = s.sink := by
  rw [followPeerCursor]
  split
  · rfl
  · split
    · rfl
    · dsimp only
      split
      · rfl
      · rfl

theorem signalling_sink (s : Shared) (machine : MachineId) (session : SessionId) (message : ControlMessage) :
    (s.signalling machine session message).sink = s.sink ∨ ∃ x y, message = .cursorWarp session x y ∧
      (s.signalling machine session message).sink = s.sink.map (· ++ [(x, y)]) := by
  cases message with
  | cursorWarp claimed x y =>
    rw [signalling]
    split
    · rename_i own
      refine .inr ⟨x, y, own ▸ rfl, ?_⟩
      rw [warp, yieldControlToPeer_sink]
    · exact .inl rfl
  | cursorReturned claimed x y =>
    left
    rw [signalling]
    split
    · exact s.followPeerCursor_sink machine x y
    · rfl
  | _ => exact .inl rfl

theorem run_sink (ran : s.run op = some t) (still : (∀ event os, op ≠ .captured event os) ∧
    ∀ machine session message, op ≠ .signalled machine session message) : t.sink = s.sink := by
  have links {host fingerprint session role screen fallback order} {s : Shared} :
      (s.establishLink host fingerprint session role screen fallback order).1.sink = s.sink :=
    establishLink_keeps (P := fun t : Shared => t.sink = s.sink) rfl fun _ => rfl
  cases op with
  | captured event os => exact absurd rfl (still.1 event os)
  | signalled machine session message => exact absurd rfl (still.2 machine session message)
  | incoming host fingerprint session screen order =>
    cases ran
    exact handleIncoming_keeps (P := fun t : Shared => t.sink = s.sink) id links
  | dialled host fingerprint session screen write order =>
    cases ran
    exact doConnect_keeps (P := fun t : Shared => t.sink = s.sink) rfl id links
  | cleanup machine order =>
    cases ran
    exact cleanupPeer_keeps (P := fun t : Shared => t.sink = s.sink) rfl fun _ => rfl
  | layout host edge config order =>
    obtain rfl := Option.some.inj ran
    rw [setLayout.eq_def]
    split
    · rfl
    · dsimp only
      split
      · rfl
      · rfl
  | modifiers host swap config =>
    obtain rfl := Option.some.inj ran
    rw [setModifierSwap.eq_def]
    split
    · rfl
    · rfl
  | disconnect host order =>
    cases ran
    rw [Shared.disconnect]
    split
    · rfl
    · rfl
  | removePeer selector order write =>
    cases ran
    rw [Shared.removePeer]
    dsimp only
    split
    · rfl
    · rfl
  | decided selector =>
    cases ran
    rw [decidePending]
    split
    · rfl
    · rfl
  | taken | copied | asked | retained | approved =>
    cases ran
    rfl

theorem Roomy.fits (roomy : s.Roomy desktop) {entry : Point}
    (inside : s.localScreen.Shown → entry.Inside s.localScreen) (bounds : ReportedBounds) (told : bounds ∈ desktop) :
    bounds.Fits entry.x.toInt32 entry.y.toInt32 := by
  obtain ⟨⟨⟨some, narrow⟩, some', flat⟩, wide, high⟩ := roomy bounds told
  obtain ⟨column, row⟩ := inside ⟨some, some'⟩
  have left := bounds.originX.le_toInt
  have top := bounds.originY.le_toInt
  have x := toInt32_toInt entry.x (by omega)
  have y := toInt32_toInt entry.y (by omega)
  simp only [DesktopBounds.Fits, DesktopBounds.exactly, x, y]
  omega

theorem Sound.runOn (sound : s.Sound) (roomy : s.Roomy desktop) (free : ¬ s.Stuck op)
    (reachable : ¬ s.Overflows desktop op) : ∃ t, s.runOn desktop op = some t := by
  obtain ⟨t, ran⟩ := Option.ne_none_iff_exists'.mp (mt (s.run_eq_none op).mp free)
  refine ⟨t, Option.filter_eq_some_iff.mpr ⟨ran, List.all_eq_true.mpr fun position told => ?_⟩⟩
  have placed : ∀ {position' : Int32 × Int32}, t.sink = s.sink.map (· ++ [position']) →
      s.sink.isSome ∧ position = position' := by
    intro position' sink
    rw [warpedSince_warp sink] at told
    split at told
    · exact ⟨‹_›, List.mem_singleton.mp told⟩
    · cases told
  have unasked (sink : t.sink = s.sink) : addsUp desktop position = true := by
    rw [warpedSince_same sink] at told
    cases told
  cases op with
  | captured event os =>
    obtain sink | ⟨entry, inside, sink⟩ := (sound.captures ran).sink sound
    · exact unasked sink
    · rw [(placed sink).2]
      exact addsUp_of_fits (roomy.fits inside)
  | signalled machine session message =>
    cases ran
    obtain sink | ⟨x, y, rfl, sink⟩ := s.signalling_sink machine session message
    · exact unasked sink
    · obtain ⟨injects, rfl⟩ := placed sink
      refine addsUp_of_fits fun bounds tells => ?_
      by_contra overflows
      exact reachable ⟨injects, bounds, tells, _, _, _, _, rfl, overflows⟩
  | _ => exact unasked (run_sink ran ⟨nofun, nofun⟩)

theorem runOn_eq_none (panics : s.Stuck op ∨ s.Overflows desktop op) : s.runOn desktop op = none := by
  rcases panics with stuck | ⟨injects, bounds, tells, machine, session, x, y, rfl, overflows⟩
  · rw [Shared.runOn, (s.run_eq_none op).mpr stuck]
    rfl
  · have sink : (s.signalling machine session (.cursorWarp session x y)).sink = s.sink.map (· ++ [(x, y)]) := by
      rw [signalling, if_pos rfl, warp, yieldControlToPeer_sink]
    have refused : addsUp desktop (x, y) = false := by
      rw [addsUp, tells, Option.all_some, DesktopBounds.toScreenChecked_eq, if_neg overflows]
      rfl
    refine Option.filter_eq_none_iff.mpr ?_
    rintro _ ⟨⟩
    rw [warpedSince_warp sink, if_pos injects]
    simp [refused]

end Shared

def StepOn (s : Shared) (op : Option ReportedBounds × Op) (t : Shared) : Prop :=
  s.runOn op.1 op.2 = some t ∧ t.Walks op.2

theorem StepOn.step (step : StepOn s op t) : Step s op.2 t :=
  ⟨(Option.filter_eq_some_iff.mp step.1).1, step.2⟩

/-- On the desktop alone, `advance` is total everywhere but on a stuck cursor. Under the daemon's
lock a sequence of operations panics exactly where one of them finds the cursor stuck. And in every
run, whatever the desktop is by then, the next operation panics, under the lock or in the sink,
exactly where it finds the cursor stuck or asks for a position that cannot be added up; as long as
the desktop has room for this machine's own screen. -/
theorem panics_iff_stuck (layout : VirtualLayout) (cursor : CursorState) (delta : MouseDelta) (s : Shared)
    (ops : List Op) :
    (layout.advance cursor delta = none ↔ layout.Stuck cursor delta) ∧
    (ops.foldlM Shared.run s = none ↔
      ∃ before op after t, ops = before ++ op :: after ∧ before.foldlM Shared.run s = some t ∧ t.Stuck op) ∧
    ∀ localMachine localScreen trust sink placements modifierSwaps done t,
      Reaches StepOn (.start localMachine localScreen trust sink placements modifierSwaps) done t →
      ∀ desktop op, t.Roomy desktop →
        (t.runOn desktop op = none ↔ t.Stuck op ∨ t.Overflows desktop op) := by
  refine ⟨VirtualLayout.advance_eq_none layout cursor delta, ?_, ?_⟩
  · rw [foldlM_eq_none]
    simp only [Shared.run_eq_none]
  · intro localMachine localScreen trust sink placements modifierSwaps done t run desktop op roomy
    have sound : t.Sound := run.invariant (fun sound step => step.step.sound sound) (Shared.start_sound ..)
    constructor
    · intro panics
      by_contra fine
      obtain ⟨free, reachable⟩ := not_or.mp fine
      obtain ⟨u, done⟩ := sound.runOn roomy free reachable
      exact nomatch panics.symm.trans done
    · exact Shared.runOn_eq_none

/-- A peer that announces a screen of zero by zero is dialled and crossed onto;
the next movement away from home panics. -/
theorem degenerate_screen_panics :
    ¬ ∀ (s : Shared) (ops : List Op), Reachable s →
      (∀ op ∈ ops, (∃ delta os, op = .captured (.motion delta) os) ∨
        ∃ machine session message, op = .signalled machine session message) →
      ops.foldlM Shared.run s ≠ none := by
  intro total
  obtain ⟨s, run, panics⟩ := Reaches.of_any Step.of_execute
    (show ([.dialled "desk" (.filled 2) ⟨7⟩ ⟨0, 0⟩ .done [machineIdOf (.filled 2)]].foldlM
        Shared.execute (.start ⟨1⟩ ⟨100, 100⟩ ⟨.missing, []⟩ none ∅ ∅)).any
      (fun s => ([.captured (.motion ⟨150, 0⟩) none, .captured (.motion ⟨1, 0⟩) none].foldlM
        Shared.run s).isNone) = true by decide +kernel)
  refine total s _ ⟨_, _, _, _, _, _, _, run⟩ ?_ (Option.isNone_iff_eq_none.mp panics)
  intro op member
  simp only [List.mem_cons, List.not_mem_nil, or_false] at member
  rcases member with rfl | rfl <;> exact .inl ⟨_, _, rfl⟩

end Omnipresent
