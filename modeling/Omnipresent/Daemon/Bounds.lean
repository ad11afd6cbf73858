import Omnipresent.Daemon.Reachable

/-! Between honest machines the tracked cursor is always a real spot on the screen
holding it, and so is every position a peer is sent. The desktop has one screen for a machine id,
so a peer with this machine's own certificate is taken to have this machine's screen. -/
namespace Omnipresent
open Transition

theorem toInt32_toInt (n : UInt32) (small : n.toNat < 2 ^ 31) : n.toInt32.toInt = n.toNat :=
  BitVec.toInt_eq_toNat_of_lt (x := n.toBitVec) (by simpa using by omega)

theorem clampToScreen_inside (honest : screen.Honest) (x y : Int32) :
    (clampToScreen screen x y).Inside screen := by
  obtain ⟨⟨wide, _⟩, tall, _⟩ := honest
  have column : (clampToScreen screen x y).x.toNat ≤ (lastOf screen.width).toNat :=
    UInt32.le_iff_toNat_le.mp Std.min_le_right
  have row : (clampToScreen screen x y).y.toNat ≤ (lastOf screen.height).toNat :=
    UInt32.le_iff_toNat_le.mp Std.min_le_right
  rw [lastOf_toNat] at column row
  constructor <;> omega

/-- The command places the cursor, if at all, on this screen. -/
def PeerCommand.Fits (screen : Screen) : PeerCommand → Prop
  | input (.pointer x y) | warp x y =>
    (0 ≤ x.toInt ∧ x.toInt < screen.width.toNat) ∧ 0 ≤ y.toInt ∧ y.toInt < screen.height.toNat
  | _ => True

theorem Point.Inside.fits {point : Point} (inside : point.Inside screen) (honest : screen.Honest) :
    (PeerCommand.warp point.x.toInt32 point.y.toInt32).Fits screen ∧
      (PeerCommand.input (.pointer point.x.toInt32 point.y.toInt32)).Fits screen := by
  obtain ⟨column, row⟩ := inside
  obtain ⟨⟨_, narrow⟩, _, flat⟩ := honest
  have x := toInt32_toInt point.x (by omega)
  have y := toInt32_toInt point.y (by omega)
  simp only [PeerCommand.Fits, x, y]
  omega

/-- What the outside keeps to: peers announce honest screens, and the OS reports
movements and not positions. -/
def Op.Honest : Op → Prop
  | captured event _ => ∀ x y, event ≠ .pointer x y
  | incoming _ _ _ screen _ | dialled _ _ _ screen _ _ => (Screen.mk screen.width screen.height).Honest
  | _ => True

namespace Shared
variable {s t : Shared}

structure Bounded (s : Shared) : Prop where
  own : s.localScreen.Honest
  peers : ∀ {peer link}, s.state.links.lookup peer = some link → link.screen.Honest
  cursor : ∀ {here}, s.screenOf s.state.cursor.machine = some here → s.state.cursor.position.Inside here
  commands : ∀ {peer link screen}, s.state.links.lookup peer = some link → s.screenOf peer = some screen →
    ∀ command ∈ link.commands, command.Fits screen

namespace Bounded

theorem screenOf (bounded : s.Bounded) (shown : s.screenOf machine = some screen) : screen.Honest := by
  rw [Shared.screenOf] at shown
  split at shown
  · exact Option.some.inj shown ▸ bounded.own
  · obtain ⟨link, found, rfl⟩ := Option.map_eq_some_iff.mp shown
    exact bounded.peers found

theorem moved (bounded : s.Bounded) (localMachine : t.localMachine = s.localMachine)
    (localScreen : t.localScreen = s.localScreen) (links : t.state.links = s.state.links)
    (inside : ∀ here, s.screenOf t.state.cursor.machine = some here → t.state.cursor.position.Inside here) :
    t.Bounded := by
  have screens : ∀ machine, t.screenOf machine = s.screenOf machine := by
    intro machine
    simp only [Shared.screenOf, localMachine, localScreen, links]
  refine ⟨localScreen ▸ bounded.own, ?_, ?_, ?_⟩
  · rw [links]
    exact bounded.peers
  · rw [screens]
    exact inside _
  · intro peer link screen
    rw [links, screens]
    exact bounded.commands

theorem map (bounded : s.Bounded) (f : MachineId → PeerLink → PeerLink)
    (same : ∀ p link, (f p link).screen = link.screen)
    (queued : ∀ {p link}, s.state.links.lookup p = some link → ∀ screen, s.screenOf p = some screen →
      ∀ command ∈ (f p link).commands, command ∈ link.commands ∨ command.Fits screen) :
    Bounded { s with state.links := s.state.links.map f } := by
  have screens := screenOf_map (s := s) (t := { s with state.links := s.state.links.map f }) rfl rfl rfl same
  refine ⟨bounded.own, ?_, ?_, ?_⟩
  · intro peer link found
    obtain ⟨old, stored, rfl⟩ := Option.map_eq_some_iff.mp ((HashMap.lookup_map ..).symm.trans found)
    exact same peer old ▸ bounded.peers stored
  · rw [screens]
    exact bounded.cursor
  · intro peer link screen found shown command member
    obtain ⟨old, stored, rfl⟩ := Option.map_eq_some_iff.mp ((HashMap.lookup_map ..).symm.trans found)
    rw [screens] at shown
    rcases queued stored screen shown command member with earlier | fits
    · exact bounded.commands stored shown command earlier
    · exact fits

theorem send (bounded : s.Bounded)
    (fits : ∀ screen, s.screenOf machine = some screen → command.Fits screen) :
    (s.send machine command).Bounded := by
  refine bounded.map _ (fun p link => by split <;> rfl) ?_
  intro p link _ screen shown queued member
  split at member
  · subst machine
    simp only [PeerLink.send_commands, List.mem_append, List.mem_singleton] at member
    exact member.imp_right fun (same : queued = command) => same ▸ fits screen shown
  · exact .inl member

theorem broadcast (bounded : s.Bounded) (fits : ∀ screen, command.Fits screen) :
    (s.broadcast command).Bounded := by
  refine bounded.map _ (fun _ _ => rfl) ?_
  intro p link _ screen _ queued member
  simp only [PeerLink.send_commands, List.mem_append, List.mem_singleton] at member
  exact member.imp_right fun (same : queued = command) => same ▸ fits screen

theorem forwardTo (bounded : s.Bounded)
    (fits : ∀ screen, s.screenOf peer = some screen → ∀ x y, event = .pointer x y →
      (PeerCommand.input (.pointer x y)).Fits screen) :
    (s.forwardTo peer event).Bounded := by
  refine bounded.map _ (fun p link => by split <;> rfl) ?_
  intro p link _ screen shown queued member
  split at member
  · subst peer
    simp only [PeerLink.send_commands, List.mem_append, List.mem_singleton] at member
    refine member.imp_right ?_
    rintro rfl
    cases relabelled : link.modifierSwap.apply event with
    | pointer x y => exact fits screen shown x y (ModifierSwap.apply_eq_pointer.mp relabelled)
    | _ => trivial
  · exact .inl member

theorem warp (bounded : s.Bounded) (x y : Int32) : (s.warp x y).Bounded :=
  bounded.moved rfl rfl rfl fun _ => bounded.cursor

theorem syncSuppression (bounded : s.Bounded) : s.syncSuppression.Bounded :=
  bounded.moved rfl rfl rfl fun _ => bounded.cursor

theorem notifyChange (bounded : s.Bounded) : s.notifyChange.Bounded :=
  bounded.moved rfl rfl rfl fun _ => bounded.cursor

theorem home (bounded : s.Bounded) (inside : position.Inside s.localScreen)
    (localMachine : t.localMachine = s.localMachine) (localScreen : t.localScreen = s.localScreen)
    (links : t.state.links = s.state.links) (cursor : t.state.cursor = ⟨s.localMachine, position⟩) :
    t.Bounded := by
  refine bounded.moved localMachine localScreen links fun here shown => ?_
  rw [cursor] at shown ⊢
  rw [Shared.screenOf, if_pos rfl, Option.some.injEq] at shown
  exact shown ▸ inside

theorem origin (bounded : s.Bounded) : Point.Inside ⟨0, 0⟩ s.localScreen :=
  ⟨bounded.own.1.1, bounded.own.2.1⟩

theorem tracked (bounded : s.Bounded) (os : Option (Int32 × Int32)) : (s.tracked os).Bounded := by
  rw [Shared.tracked]
  cases s.state.sessions.active with
  | remote peer => exact bounded
  | here =>
    cases os with
    | none => exact bounded
    | some xy => exact bounded.home (clampToScreen_inside bounded.own xy.1 xy.2) rfl rfl rfl rfl

theorem rest (bounded : s.Bounded) (sound : s.Sound)
    (inside : ∀ here, s.screenOf s.state.cursor.machine = some here → position.Inside here) :
    (s.rest position).Bounded := by
  have moved : Bounded { s with state.cursor.position := position } :=
    bounded.moved rfl rfl rfl fun here shown => inside here shown
  rw [Shared.rest]
  cases active : s.state.sessions.active with
  | here => exact moved
  | remote peer =>
    refine moved.forwardTo fun screen shown x y same => ?_
    cases same
    have held : s.state.cursor.machine = peer := by rw [sound.cursor, active, ActiveTarget.holder]
    exact ((inside screen (held ▸ shown)).fits (bounded.screenOf shown)).2

theorem cross (bounded : s.Bounded)
    (inside : ∀ there, s.screenOf peer = some there → entry.Inside there) :
    (s.cross peer entry).Bounded := by
  have moved : ∀ sessions, Bounded { s with state.sessions := sessions, state.cursor := ⟨peer, entry⟩ } :=
    fun sessions => bounded.moved rfl rfl rfl fun there shown => inside there shown
  rw [Shared.cross, placeCursorAfterCrossing]
  dsimp only
  split
  · exact ((moved _).warp _ _).broadcast fun _ => trivial
  · exact (moved _).send fun screen shown => ((inside screen shown).fits (bounded.screenOf shown)).1

theorem captures (bounded : s.Bounded) (sound : s.Sound) (captures : Captures s os event t)
    (honest : ∀ x y, event ≠ .pointer x y) : t.Bounded := by
  have laidOut := (sound.tracked os).laidOut
  have tracked := bounded.tracked os
  cases captures with
  | idle => exact bounded
  | forwarded => exact bounded.forwardTo fun _ _ x y same => absurd same (honest x y)
  | stays _ _ inside =>
    refine tracked.rest (sound.tracked os) fun here shown => inside here ?_
    rwa [laidOut.screens]
  | crosses _ _ _ inside =>
    refine (tracked.cross fun there shown => ?_).syncSuppression.notifyChange
    obtain ⟨⟨wide, _⟩, tall, _⟩ := tracked.screenOf shown
    exact inside there (by rwa [laidOut.screens]) wide tall

theorem yieldControlToPeer (bounded : s.Bounded) : s.yieldControlToPeer.Bounded := by
  rw [yieldControlToPeer_eq]
  split
  · exact bounded.moved rfl rfl rfl fun _ => bounded.cursor
  · exact bounded.home bounded.origin rfl rfl rfl rfl

theorem followPeerCursor (bounded : s.Bounded) (sound : s.Sound) (peer : MachineId) (x y : Int32) :
    (s.followPeerCursor peer x y).Bounded := by
  obtain same | ⟨screen, shown, _, result⟩ := sound.followPeerCursor_cases peer x y
  · rwa [same]
  · rw [sound.laidOut.screens] at shown
    have followed : Bounded { s with
        state.sessions := s.state.sessions.setActive (.remote peer)
        state.cursor := ⟨peer, clampToScreen screen x y⟩ } := by
      refine bounded.moved rfl rfl rfl fun here there => ?_
      obtain rfl : screen = here := Option.some.inj (shown.symm.trans there)
      exact clampToScreen_inside (bounded.screenOf shown) x y
    rw [result]
    dsimp only
    split
    · exact followed.syncSuppression.notifyChange
    · exact followed.syncSuppression

theorem signalling (bounded : s.Bounded) (sound : s.Sound) (machine : MachineId) (session : SessionId)
    (message : ControlMessage) : (s.signalling machine session message).Bounded :=
  signalling_keeps bounded (fun x y => bounded.yieldControlToPeer.warp x y)
    (bounded.followPeerCursor sound machine) session message

theorem rebuildLayout (bounded : s.Bounded) (ordered : HashMap.Order order s.state.links) :
    (s.rebuildLayout order).Bounded := by
  have cursor := rebuildLayout_cursor ordered
  by_cases gone : s.screenOf s.state.cursor.machine = none
  · rw [if_pos gone] at cursor
    exact bounded.home bounded.origin rfl rfl rfl cursor
  · rw [if_neg gone] at cursor
    refine bounded.moved rfl rfl rfl ?_
    rw [cursor]
    exact fun _ => bounded.cursor

/-- A new link starts with nothing queued, and no cursor can be on it yet. -/
theorem linked (bounded : s.Bounded) (sound : s.Sound) (honest : link.screen.Honest)
    (empty : link.commands = []) (absent : machine ∉ s.state.links) (sessions : SessionManager LogEvents) :
    Bounded { s with state.sessions := sessions, state.links := s.state.links.insert machine link } := by
  refine ⟨bounded.own, ?_, ?_, ?_⟩
  · intro peer other found
    simp only [HashMap.lookup_insert_eq] at found
    split at found
    · exact Option.some.inj found ▸ honest
    · exact bounded.peers found
  · exact fun there => bounded.cursor (screenOf_of_insert there rfl rfl rfl (sound.cursor_apart absent))
  · intro peer other screen found shown command member
    simp only [HashMap.lookup_insert_eq] at found
    split at found
    · rw [← Option.some.inj found, empty] at member
      exact absurd member List.not_mem_nil
    · exact bounded.commands found (screenOf_of_insert shown rfl rfl rfl (.inr ‹_›)) command member

theorem establishLink (bounded : s.Bounded) (sound : s.Sound) (host : String) (fingerprint : Fingerprint)
    (session : SessionId) (role : Role) (screen : Screen) (fallback : Edge) (order : List MachineId)
    (honest : screen.Honest)
    (ordered : HashMap.Order order
      (s.establishLink host fingerprint session role screen fallback order).1.state.links) :
    (s.establishLink host fingerprint session role screen fallback order).1.Bounded := by
  revert ordered
  refine establishLink_keeps (P := fun t => HashMap.Order order t.state.links → t.Bounded) (fun _ => bounded) ?_
  intro sessions established ordered
  obtain ⟨_, _, _, absent⟩ := SessionManager.establish_ok established
  have unlinked : machineIdOf fingerprint ∉ s.state.links := mt (sound.mem_links _).mp absent
  refine (bounded.linked sound ?_ rfl unlinked sessions).rebuildLayout ordered
  exact honest

theorem handleIncoming (bounded : s.Bounded) (sound : s.Sound) (host : String) (fingerprint : Fingerprint)
    (session : SessionId) (screen : ScreenSize) (order : List MachineId)
    (honest : (Screen.mk screen.width screen.height).Honest)
    (ordered : HashMap.Order order (s.handleIncoming host fingerprint session screen order).1.state.links) :
    (s.handleIncoming host fingerprint session screen order).1.Bounded := by
  revert ordered
  exact handleIncoming_keeps (P := fun t => HashMap.Order order t.state.links → t.Bounded)
    (fun kept ordered => (kept ordered).notifyChange) (bounded.establishLink sound _ _ _ _ _ _ _ honest)

theorem trust (bounded : s.Bounded) (trust : TrustState) : Bounded { s with trust } :=
  bounded.moved rfl rfl rfl fun _ => bounded.cursor

theorem doConnect (bounded : s.Bounded) (sound : s.Sound) (host : String) (fingerprint : Fingerprint)
    (session : SessionId) (screen : ScreenSize) (write : Write) (order : List MachineId)
    (honest : (Screen.mk screen.width screen.height).Honest)
    (ordered : HashMap.Order order (s.doConnect host fingerprint session screen write order).1.state.links) :
    (s.doConnect host fingerprint session screen write order).1.Bounded := by
  revert ordered
  exact doConnect_keeps (P := fun t => HashMap.Order order t.state.links → t.Bounded)
    (fun _ => bounded.trust _) (fun kept ordered => (kept ordered).notifyChange)
    ((bounded.trust _).establishLink (sound.of_unmoved (.trust s _)) _ _ _ _ _ _ _ honest)

theorem erased (bounded : s.Bounded) (machine : MachineId) (sessions : SessionManager LogEvents) :
    Bounded { s with state.links := s.state.links.erase machine, state.sessions := sessions } := by
  refine ⟨bounded.own, ?_, fun there => bounded.cursor (screenOf_of_erase there rfl rfl rfl), ?_⟩
  · intro peer link found
    simp only [HashMap.lookup_erase_eq] at found
    split at found
    · simp at found
    · exact bounded.peers found
  · intro peer link screen found there
    simp only [HashMap.lookup_erase_eq] at found
    split at found
    · simp at found
    · exact bounded.commands found (screenOf_of_erase there rfl rfl rfl)

theorem cleanupPeer (bounded : s.Bounded) (machine : MachineId) (order : List MachineId)
    (ordered : HashMap.Order order (s.cleanupPeer machine order).state.links) :
    (s.cleanupPeer machine order).Bounded := by
  revert ordered
  exact cleanupPeer_keeps (P := fun t => HashMap.Order order t.state.links → t.Bounded)
    (fun ordered => (bounded.rebuildLayout ordered).syncSuppression.notifyChange)
    fun _ ordered => ((bounded.erased machine _).rebuildLayout ordered).syncSuppression.notifyChange

theorem takeCommands (bounded : s.Bounded) (machine : MachineId) (count : Nat) :
    (s.takeCommands machine count).Bounded := by
  refine bounded.map _ (fun p link => by split <;> rfl) ?_
  intro p link _ screen _ command member
  split at member
  · exact .inl (List.mem_of_mem_drop member)
  · exact .inl member

theorem setLayout (bounded : s.Bounded) (host edge : String) (config : ConfigWrite) (order : List MachineId)
    (ordered : HashMap.Order order (s.setLayout host edge config order).1.state.links) :
    (s.setLayout host edge config order).1.Bounded := by
  unfold Shared.setLayout at ordered ⊢
  cases parsed : parseEdge edge with
  | none => exact bounded
  | some edge =>
    simp only [parsed] at ordered ⊢
    have mapped := bounded.map (fun _ (link : PeerLink) => if link.host = host then { link with edge } else link)
      (fun _ link => by split <;> rfl) fun _ _ _ command member => .inl (by split at member <;> exact member)
    have placed : Bounded { s with
        state.placements := s.state.placements.insert host edge
        state.links := s.state.links.map fun _ (link : PeerLink) =>
          if link.host = host then { link with edge } else link } :=
      mapped.moved rfl rfl rfl fun _ => mapped.cursor
    split
    · exact placed.notifyChange
    · rename_i some
      rw [if_neg some] at ordered
      exact (placed.rebuildLayout ordered).syncSuppression.notifyChange

theorem setModifierSwap (bounded : s.Bounded) (host swap : String) (config : ConfigWrite) :
    (s.setModifierSwap host swap config).1.Bounded := by
  unfold Shared.setModifierSwap
  cases parsed : ModifierSwap.parse swap with
  | none => exact bounded
  | some modifierSwap =>
    have mapped := bounded.map
      (fun _ (link : PeerLink) => if link.host = host then { link with modifierSwap } else link)
      (fun _ link => by split <;> rfl) fun _ _ _ command member => .inl (by split at member <;> exact member)
    exact mapped.moved rfl rfl rfl fun _ => mapped.cursor

theorem disconnect (bounded : s.Bounded) (host : String) (order : List MachineId) :
    (s.disconnect host order).1.Bounded := by
  rw [Shared.disconnect]
  split
  · exact bounded.send fun _ _ => trivial
  · exact bounded

theorem removePeer (bounded : s.Bounded) (selector : String) (order : List MachineId) (write : Write) :
    (s.removePeer selector order write).1.Bounded := by
  rw [Shared.removePeer]
  refine Bounded.trust ?_ _
  split
  · exact bounded.send fun _ _ => trivial
  · exact bounded

theorem pending (bounded : s.Bounded) (pending : List PendingRequest) :
    Bounded { s with state.pending := pending } :=
  bounded.moved rfl rfl rfl fun _ => bounded.cursor

theorem decidePending (bounded : s.Bounded) (selector : String) : (s.decidePending selector).1.Bounded := by
  rw [Shared.decidePending]
  split
  · exact (bounded.pending _).notifyChange
  · exact bounded

theorem start {localScreen : Screen} (honest : localScreen.Honest) (localMachine : MachineId) (trust : TrustState)
    (sink : Option (List (Int32 × Int32))) (placements : HashMap String Edge)
    (modifierSwaps : HashMap String ModifierSwap) :
    (Shared.start localMachine localScreen trust sink placements modifierSwaps).Bounded := by
  refine Bounded.rebuildLayout ⟨honest, ?_, ?_, ?_⟩ rfl
  · intro peer link found
    simp at found
  · intro here shown
    rw [Shared.screenOf, if_pos rfl, Option.some.injEq] at shown
    exact shown ▸ ⟨honest.1.1, honest.2.1⟩
  · intro peer link screen found
    simp at found

end Bounded
end Shared

theorem Step.bounded (step : Step s op t) (honest : op.Honest) (sound : s.Sound) (bounded : s.Bounded) :
    t.Bounded := by
  obtain ⟨ran, walks⟩ := step
  cases op with
  | captured event os => exact bounded.captures sound (sound.captures ran) honest
  | signalled machine session message =>
    cases ran
    exact bounded.signalling sound machine session message
  | incoming host fingerprint session screen order =>
    cases ran
    exact bounded.handleIncoming sound host fingerprint session screen order honest (walks order rfl)
  | dialled host fingerprint session screen write order =>
    cases ran
    exact bounded.doConnect sound host fingerprint session screen write order honest (walks order rfl)
  | cleanup machine order =>
    cases ran
    exact bounded.cleanupPeer machine order (walks order rfl)
  | taken machine count =>
    cases ran
    exact bounded.takeCommands machine count
  | copied data =>
    cases ran
    exact bounded.broadcast fun _ => trivial
  | layout host edge config order =>
    obtain rfl := Option.some.inj ran
    exact bounded.setLayout host edge config order (walks order rfl)
  | modifiers host swap config =>
    obtain rfl := Option.some.inj ran
    exact bounded.setModifierSwap host swap config
  | disconnect host order =>
    cases ran
    exact bounded.disconnect host order
  | removePeer selector order write =>
    cases ran
    exact bounded.removePeer selector order write
  | asked host fingerprint decision =>
    cases ran
    exact (bounded.pending _).notifyChange
  | decided selector =>
    cases ran
    exact bounded.decidePending selector
  | retained fingerprint =>
    cases ran
    exact (bounded.pending _).notifyChange
  | approved host fingerprint write =>
    cases ran
    exact bounded.trust _

theorem Shared.screenOf_linked {s : Shared} (linked : s.state.links.lookup peer = some link) :
    s.screenOf peer = some (if peer = s.localMachine then s.localScreen else link.screen) := by
  rw [screenOf, linked]
  split
  · rfl
  · rfl

/-- Between honest machines, in every state a daemon reaches: the cursor is on the screen of this
machine or on the one that the peer holding it announced, and every position queued for a peer is
on the screen it announced; but on this machine's screen for a peer under this machine's own id. -/
theorem positions_inside {localMachine : MachineId} {localScreen : Screen} (honest : localScreen.Honest)
    (run : Reaches (guarded Step fun _ op => op.Honest)
      (.start localMachine localScreen trust sink placements modifierSwaps) ops s) :
    (s.state.cursor.machine = s.localMachine → s.state.cursor.position.Inside s.localScreen) ∧
    (s.state.cursor.machine ≠ s.localMachine → ∃ link,
      s.state.links.lookup s.state.cursor.machine = some link ∧ s.state.cursor.position.Inside link.screen) ∧
    ∀ peer link, s.state.links.lookup peer = some link → ∀ command ∈ link.commands,
      command.Fits (if peer = s.localMachine then s.localScreen else link.screen) := by
  have kept : s.Sound ∧ s.Bounded := by
    refine run.invariant (P := fun s => s.Sound ∧ s.Bounded) ?_
      ⟨Shared.start_sound _ _ _ _ _ _, .start honest _ _ _ _ _⟩
    rintro s op t ⟨sound, bounded⟩ ⟨honest, step⟩
    exact ⟨step.sound sound, step.bounded honest sound bounded⟩
  obtain ⟨sound, bounded⟩ := kept
  refine ⟨fun own => ?_, fun away => ?_, fun peer link linked => ?_⟩
  · exact bounded.cursor (if_pos own)
  · obtain ⟨here, shown⟩ := Option.ne_none_iff_exists'.mp sound.screenOf_cursor
    have inside := bounded.cursor shown
    rw [Shared.screenOf, if_neg away] at shown
    obtain ⟨link, linked, rfl⟩ := Option.map_eq_some_iff.mp shown
    exact ⟨link, linked, inside⟩
  · exact bounded.commands linked (Shared.screenOf_linked linked)

theorem positions_inside_crossed : ∃ s : Shared, ∃ link,
    s.state.links.lookup (machineIdOf (.filled 2)) = some link ∧ s.state.cursor.position.Inside link.screen ∧
    ∀ command ∈ link.commands, command.Fits link.screen := by
  obtain ⟨s, run, away⟩ := Reaches.of_any Step.of_execute
    (show ([.dialled "desk" (.filled 2) ⟨7⟩ ⟨200, 100⟩ .done [machineIdOf (.filled 2)],
        .captured (.motion ⟨2147483647, 0⟩) (some (90, -5)), .captured (.motion ⟨1000, 3⟩) none].foldlM
          Shared.execute (.start ⟨1⟩ ⟨100, 100⟩ ⟨.missing, []⟩ none ∅ ∅)).any
      (fun s => s.state.cursor.machine = machineIdOf (.filled 2) ∧
        machineIdOf (.filled 2) ≠ s.localMachine) = true by decide +kernel)
  obtain ⟨there, apart⟩ := of_decide_eq_true away
  have honest := run.guard Op.Honest (by simp [Op.Honest]; decide)
  obtain ⟨-, inside, commands⟩ := positions_inside (by decide) honest
  rw [there] at inside
  obtain ⟨link, linked, inside⟩ := inside apart
  have queued := commands _ link linked
  rw [if_neg apart] at queued
  exact ⟨s, link, linked, inside, queued⟩

/-- A machine with this one's certificate and a smaller screen is dialled and takes the cursor back;
the next movement sends it to a spot of this machine's screen that its own has not got. -/
theorem positions_outside_twin : ¬ ∀ (localMachine : MachineId) (localScreen : Screen) (ops : List Op) (s : Shared),
    localScreen.Honest →
    Reaches (guarded Step fun _ op => op.Honest) (.start localMachine localScreen ⟨.missing, []⟩ none ∅ ∅) ops s →
    ∀ peer link, s.state.links.lookup peer = some link →
      (s.state.sessions.active = .remote peer → s.state.cursor.position.Inside link.screen) ∧
      ∀ command ∈ link.commands, command.Fits link.screen := by
  intro inside
  let own := machineIdOf (.filled 1)
  obtain ⟨s, run, sent⟩ := Reaches.of_any Step.of_execute
    (show ([.dialled "twin" (.filled 1) ⟨7⟩ ⟨10, 10⟩ .done [own], .signalled own ⟨7⟩ (.cursorReturned ⟨7⟩ 5 5),
        .captured (.motion ⟨50, 0⟩) none].foldlM
          Shared.execute (.start own ⟨100, 100⟩ ⟨.missing, []⟩ none ∅ ∅)).any
      (fun s => (s.state.links.lookup own).any fun link =>
        .input (.pointer 55 5) ∈ link.commands ∧ link.screen = ⟨10, 10⟩) = true by decide +kernel)
  obtain ⟨link, linked, sent⟩ := (Option.any_eq_true _ _).mp sent
  obtain ⟨queued, small⟩ := of_decide_eq_true sent
  have honest := run.guard Op.Honest (by simp [Op.Honest]; decide)
  have fits := (inside _ _ _ s (by decide) honest own link linked).2 _ queued
  rw [small] at fits
  exact absurd fits.1.2 (by decide)

end Omnipresent
