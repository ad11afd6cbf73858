import Omnipresent.Daemon.Invariant

/-! Every operation keeps the daemon sound, so every state a daemon reaches is. -/
namespace Omnipresent
open Transition

namespace Shared
variable {s t : Shared}

/-- The daemon gives way: input is local again, and where it was away the cursor
goes home with it. -/
theorem yieldControlToPeer_eq (s : Shared) : s.yieldControlToPeer =
    if s.state.sessions.active = .here then { s with state.sessions := s.state.sessions.setActive .here }
    else { s with
      state.sessions := s.state.sessions.setActive .here
      state.cursor := ⟨s.localMachine, ⟨0, 0⟩⟩ }.syncSuppression.notifyChange := by
  rw [yieldControlToPeer, SessionManager.yieldControl]
  by_cases active : s.state.sessions.active = .here <;> simp [active]

theorem Sound.yieldControlToPeer (sound : s.Sound) : s.yieldControlToPeer.Sound := by
  rw [yieldControlToPeer_eq]
  split
  · rename_i active
    have same : s.state.sessions.setActive .here = s.state.sessions :=
      if_neg (not_not.mpr active)
    simpa only [same] using sound
  · exact (sound.retarget .here ⟨0, 0⟩ fun remote => nomatch remote).of_unmoved (.notifyChange _)

theorem Sound.followPeerCursor_cases (sound : s.Sound) (peer : MachineId) (x y : Int32) :
    s.followPeerCursor peer x y = s ∨
      ∃ screen, s.state.layout.screen peer = some screen ∧ peer ∈ s.state.links ∧
        s.followPeerCursor peer x y =
          (let followed :=
            { s with
              state.sessions := s.state.sessions.setActive (.remote peer)
              state.cursor := ⟨peer, clampToScreen screen x y⟩ }.syncSuppression
          if s.state.sessions.active ≠ .remote peer then followed.notifyChange else followed) := by
  rw [followPeerCursor]
  cases shown : s.state.layout.screen peer with
  | none => exact .inl rfl
  | some screen =>
    rw [SessionManager.followPeer]
    by_cases indexed : peer ∈ s.state.sessions.byPeer
    · refine .inr ⟨screen, rfl, (sound.mem_links peer).mpr indexed, ?_⟩
      rw [if_neg (not_not.mpr indexed)]
    · rw [if_pos indexed]
      exact .inl rfl

theorem Sound.followPeerCursor (sound : s.Sound) (peer : MachineId) (x y : Int32) :
    (s.followPeerCursor peer x y).Sound := by
  obtain same | ⟨screen, _, linked, result⟩ := sound.followPeerCursor_cases peer x y
  · rwa [same]
  · have followed := sound.retarget (.remote peer) (clampToScreen screen x y)
      fun remote => ActiveTarget.remote.inj remote ▸ linked
    rw [result]
    dsimp only
    split
    · exact followed.of_unmoved (.notifyChange _)
    · exact followed

theorem Sound.signalling (sound : s.Sound) (machine : MachineId) (session : SessionId)
    (message : ControlMessage) : (s.signalling machine session message).Sound :=
  signalling_keeps sound (fun x y => sound.yieldControlToPeer.of_unmoved (.warp _ x y))
    (sound.followPeerCursor machine) session message

/-- Rebuilding the desktop for the links there are now: enough that sessions and
links agree, and that input is home if the cursor's machine is gone. -/
theorem Sound.rebuilt (sessions : s.state.sessions.Consistent)
    (identity : s.state.sessions.localMachine = s.localMachine)
    (linked : ∀ peer, (s.state.links.lookup peer).map (·.session) = s.state.sessions.byPeer.lookup peer)
    (present : s.screenOf s.state.cursor.machine ≠ none →
      s.state.cursor.machine = s.state.sessions.active.holder s.localMachine)
    (gone : s.screenOf s.state.cursor.machine = none → s.state.sessions.active = .here)
    (suppress : s.suppress = s.state.sessions.active.isRemote)
    (ordered : HashMap.Order order s.state.links) : (s.rebuildLayout order).Sound where
  sessions := sessions
  identity := identity
  linked := linked
  laidOut := rebuildLayout_laidOut ordered
  cursor := by
    change (s.rebuildLayout order).state.cursor.machine = s.state.sessions.active.holder s.localMachine
    rw [rebuildLayout_cursor ordered]
    split
    · rw [gone ‹_›, ActiveTarget.holder]
    · exact present ‹_›
  suppress := suppress

theorem Sound.screenOf_cursor (sound : s.Sound) : s.screenOf s.state.cursor.machine ≠ none := by
  obtain ⟨here, shown⟩ := sound.screen_cursor
  rw [sound.laidOut.screens] at shown
  simp [shown]

theorem Sound.cursor_apart (sound : s.Sound) (unlinked : machine ∉ s.state.links) :
    s.state.cursor.machine = s.localMachine ∨ s.state.cursor.machine ≠ machine := by
  refine or_iff_not_imp_left.mpr fun away same => sound.screenOf_cursor ?_
  rw [Shared.screenOf, if_neg away, same, Finmap.lookup_eq_none.mpr unlinked, Option.map_none]

theorem Sound.establishLink (sound : s.Sound) (host : String) (fingerprint : Fingerprint)
    (session : SessionId) (role : Role) (screen : Screen) (fallback : Edge) (order : List MachineId)
    (ordered : HashMap.Order order
      (s.establishLink host fingerprint session role screen fallback order).1.state.links) :
    (s.establishLink host fingerprint session role screen fallback order).1.Sound := by
  revert ordered
  refine establishLink_keeps (P := fun t => HashMap.Order order t.state.links → t.Sound) (fun _ => sound) ?_
  intro sessions established ordered
  obtain ⟨byPeer, active, identity, absent⟩ := SessionManager.establish_ok established
  have unlinked : machineIdOf fingerprint ∉ s.state.links := mt (sound.mem_links _).mp absent
  have consistent := sound.sessions.establish session (machineIdOf fingerprint) role
  rw [established] at consistent
  refine Sound.rebuilt consistent (identity.trans sound.identity) ?_ ?_ ?_ ?_ ordered
  · intro peer
    simp only [byPeer, HashMap.lookup_insert_eq]
    split
    · rfl
    · exact sound.linked peer
  · intro _
    simp only [active]
    exact sound.cursor
  · intro gone
    have unseen := screenOf_of_insert (s := s) gone rfl rfl rfl (sound.cursor_apart unlinked)
    exact absurd unseen sound.screenOf_cursor
  · simp only [active]
    exact sound.suppress

theorem Sound.handleIncoming (sound : s.Sound) (host : String) (fingerprint : Fingerprint)
    (session : SessionId) (screen : ScreenSize) (order : List MachineId)
    (ordered : HashMap.Order order (s.handleIncoming host fingerprint session screen order).1.state.links) :
    (s.handleIncoming host fingerprint session screen order).1.Sound := by
  revert ordered
  exact handleIncoming_keeps (P := fun t => HashMap.Order order t.state.links → t.Sound)
    (fun kept ordered => (kept ordered).of_unmoved (.notifyChange _)) (sound.establishLink _ _ _ _ _ _ _)

theorem Unmoved.trust (s : Shared) (trust : TrustState) : s.Unmoved { s with trust } :=
  ⟨rfl, rfl, rfl, rfl, rfl, rfl, fun _ => rfl⟩

theorem Unmoved.pending (s : Shared) (pending : List PendingRequest) :
    s.Unmoved { s with state.pending := pending } :=
  ⟨rfl, rfl, rfl, rfl, rfl, rfl, fun _ => rfl⟩

theorem Sound.doConnect (sound : s.Sound) (host : String) (fingerprint : Fingerprint)
    (session : SessionId) (screen : ScreenSize) (write : Write) (order : List MachineId)
    (ordered : HashMap.Order order (s.doConnect host fingerprint session screen write order).1.state.links) :
    (s.doConnect host fingerprint session screen write order).1.Sound := by
  revert ordered
  exact doConnect_keeps (P := fun t => HashMap.Order order t.state.links → t.Sound)
    (fun _ => sound.of_unmoved (.trust s _))
    (fun kept ordered => (kept ordered).of_unmoved (.notifyChange _))
    ((sound.of_unmoved (.trust s _)).establishLink _ _ _ _ _ _ _)

theorem Sound.cleanupPeer (sound : s.Sound) (machine : MachineId) (order : List MachineId)
    (ordered : HashMap.Order order (s.cleanupPeer machine order).state.links) :
    (s.cleanupPeer machine order).Sound := by
  revert ordered
  refine cleanupPeer_keeps (P := fun t => HashMap.Order order t.state.links → t.Sound)
    (fun ordered => Sound.of_unmoved ?_ (.notifyChange _))
    (fun {link} found ordered => Sound.of_unmoved ?_ (.notifyChange _))
  · exact Sound.rebuilt (s := s.syncSuppression) sound.sessions sound.identity sound.linked
      (fun _ => sound.cursor) (fun gone => absurd gone sound.screenOf_cursor) rfl ordered
  · have indexed : s.state.sessions.byPeer.lookup machine = some link.session := by
      rw [← sound.linked, found, Option.map_some]
    obtain ⟨byPeer, active, identity⟩ := sound.sessions.close_peer indexed
    refine Sound.rebuilt (s := Shared.syncSuppression { s with
        state.links := s.state.links.erase machine
        state.sessions := (s.state.sessions.close link.session).1 })
      (sound.sessions.close _) (identity.trans sound.identity) ?_ ?_ ?_ rfl ordered
    · intro peer
      simp only [syncSuppression, byPeer, HashMap.lookup_erase_eq]
      split
      · rfl
      · exact sound.linked peer
    · intro present
      simp only [syncSuppression, active]
      split
      · rename_i target
        have held : s.state.cursor.machine = machine := by rw [sound.cursor, target, ActiveTarget.holder]
        simp only [syncSuppression, screenOf, held, HashMap.lookup_erase_eq] at present
        split at present
        · exact held.trans ‹_›
        · simp at present
      · exact sound.cursor
    · intro gone
      simp only [syncSuppression, active]
      split
      · rfl
      · rename_i other
        cases target : s.state.sessions.active with
        | here => rfl
        | remote peer =>
          -- The peer followed is another one, and its link is still there.
          obtain ⟨kept, stored⟩ := Finmap.mem_iff.mp (sound.remote_linked target)
          have held : s.state.cursor.machine = peer := by rw [sound.cursor, target, ActiveTarget.holder]
          have distinct : peer ≠ machine := fun same => other (same ▸ target)
          simp only [syncSuppression, screenOf, held, HashMap.lookup_erase_eq, if_neg distinct] at gone
          split at gone
          · simp at gone
          · have absent : s.state.links.lookup peer = none := held ▸ Option.map_eq_none_iff.mp gone
            exact absurd (stored.symm.trans absent) (Option.some_ne_none kept)

theorem Sound.rebuildLayout (sound : s.Sound) (ordered : HashMap.Order order s.state.links) :
    (s.rebuildLayout order).Sound :=
  Sound.rebuilt sound.sessions sound.identity sound.linked (fun _ => sound.cursor)
    (fun gone => absurd gone sound.screenOf_cursor) sound.suppress ordered

theorem Sound.setLayout (sound : s.Sound) (host edge : String) (config : ConfigWrite) (order : List MachineId)
    (ordered : HashMap.Order order (s.setLayout host edge config order).1.state.links) :
    (s.setLayout host edge config order).1.Sound := by
  unfold Shared.setLayout at ordered ⊢
  cases parsed : parseEdge edge with
  | none => exact sound
  | some edge =>
    simp only [parsed] at ordered ⊢
    refine Sound.of_unmoved ?_ (.notifyChange _)
    have moved := Unmoved.map s (fun _ link => if link.host = host then { link with edge } else link)
      fun _ link => by split <;> rfl
    have placed : Sound { s with
        state.placements := s.state.placements.insert host edge
        state.links := s.state.links.map fun _ (link : PeerLink) =>
          if link.host = host then { link with edge } else link } :=
      sound.of_unmoved ⟨rfl, rfl, rfl, rfl, rfl, rfl, moved.links⟩
    split
    · exact placed
    · rename_i some
      rw [if_neg some] at ordered
      rw [(placed.rebuildLayout ordered).syncSuppression_eq]
      exact placed.rebuildLayout ordered

theorem start_sound (localMachine : MachineId) (localScreen : Screen) (trust : TrustState)
    (sink : Option (List (Int32 × Int32))) (placements : HashMap String Edge)
    (modifierSwaps : HashMap String ModifierSwap) :
    (start localMachine localScreen trust sink placements modifierSwaps).Sound :=
  Sound.rebuilt (SessionManager.Consistent.new localMachine (LogEvents.mk)) rfl (fun _ => rfl)
    (fun _ => rfl) (fun _ => rfl) rfl rfl

end Shared

open Shared

theorem Step.sound (step : Step s op t) (sound : s.Sound) : t.Sound := by
  obtain ⟨ran, walks⟩ := step
  cases op with
  | captured event os => exact (sound.captures ran).sound sound
  | signalled machine session message =>
    cases ran
    exact sound.signalling machine session message
  | incoming host fingerprint session screen order =>
    cases ran
    exact sound.handleIncoming host fingerprint session screen order (walks order rfl)
  | dialled host fingerprint session screen write order =>
    cases ran
    exact sound.doConnect host fingerprint session screen write order (walks order rfl)
  | cleanup machine order =>
    cases ran
    exact sound.cleanupPeer machine order (walks order rfl)
  | taken machine count =>
    cases ran
    exact sound.of_unmoved (.takeCommands s machine count)
  | copied data =>
    cases ran
    exact sound.of_unmoved (.broadcast s _)
  | layout host edge config order =>
    obtain rfl := Option.some.inj ran
    exact sound.setLayout host edge config order (walks order rfl)
  | modifiers host swap config =>
    obtain rfl := Option.some.inj ran
    exact sound.of_unmoved (.setModifierSwap s host swap config)
  | disconnect host order =>
    cases ran
    exact sound.of_unmoved (.disconnect s host order)
  | removePeer selector order write =>
    cases ran
    exact sound.of_unmoved (.removePeer s selector order write)
  | asked host fingerprint decision =>
    cases ran
    exact sound.of_unmoved ((Unmoved.pending s _).trans (.notifyChange _))
  | decided selector =>
    cases ran
    exact sound.of_unmoved (.decidePending s selector)
  | retained fingerprint =>
    cases ran
    exact sound.of_unmoved ((Unmoved.pending s _).trans (.notifyChange _))
  | approved host fingerprint write =>
    cases ran
    exact sound.of_unmoved (.trust s _)

def Reachable (s : Shared) : Prop :=
  ∃ localMachine localScreen trust sink placements modifierSwaps ops,
    Reaches Step (start localMachine localScreen trust sink placements modifierSwaps) ops s

theorem Reachable.sound (reachable : Reachable s) : s.Sound := by
  obtain ⟨_, _, _, _, _, _, _, run⟩ := reachable
  exact run.invariant (fun sound step => step.sound sound) (start_sound _ _ _ _ _ _)

/-- In every reachable state: links and sessions are about the same peers under
the same ids; input that goes to a peer goes to a linked one, which has the
cursor, and otherwise the cursor is here; and local input is withheld exactly
when a peer gets it. -/
theorem Reachable.agree (reachable : Reachable s) :
    (∀ peer, (s.state.links.lookup peer).map (·.session) =
      (s.state.sessions.sessionForPeer peer).map (·.id)) ∧
    (∀ id session, s.state.sessions.sessions.lookup id = some session →
      ∃ link, s.state.links.lookup session.peer = some link ∧ link.session = id) ∧
    (∀ peer, s.state.sessions.active = .remote peer →
      peer ∈ s.state.links ∧ s.state.cursor.machine = peer) ∧
    (s.state.sessions.active = .here → s.state.cursor.machine = s.localMachine) ∧
    (s.suppress = true ↔ ∃ peer, s.state.sessions.active = .remote peer) := by
  have sound := reachable.sound
  refine ⟨?_, ?_, ?_, ?_, ?_⟩
  · intro peer
    rw [sound.linked, SessionManager.sessionForPeer]
    cases indexed : s.state.sessions.byPeer.lookup peer with
    | none => rfl
    | some id =>
      obtain ⟨session, stored, _⟩ := sound.sessions.indexed indexed
      rw [Option.bind_some, stored, Option.map_some, (sound.sessions.keyed stored).1]
  · intro id session stored
    have indexed := (sound.sessions.keyed stored).2
    rw [← sound.linked, Option.map_eq_some_iff] at indexed
    exact indexed
  · intro peer active
    exact ⟨sound.remote_linked active, by rw [sound.cursor, active, ActiveTarget.holder]⟩
  · intro active
    rw [sound.cursor, active, ActiveTarget.holder]
  · rw [sound.suppress]
    cases s.state.sessions.active with
    | here => simp [ActiveTarget.isRemote]
    | remote peer => simp [ActiveTarget.isRemote]

/-- A peer is dialled, and the cursor runs off the right edge onto it. -/
theorem Reachable.agree_crossed : ∃ s, Reachable s ∧
    machineIdOf (.filled 2) ∈ s.state.links ∧ s.state.cursor.machine = machineIdOf (.filled 2) ∧
    s.suppress = true := by
  obtain ⟨s, run, active⟩ := Reaches.of_any Step.of_execute
    (show ([.dialled "desk" (.filled 2) ⟨7⟩ ⟨200, 100⟩ .done [machineIdOf (.filled 2)],
        .captured (.motion ⟨150, 0⟩) none].foldlM execute (start ⟨1⟩ ⟨100, 100⟩ ⟨.missing, []⟩ none ∅ ∅)).any
      (fun s => s.state.sessions.active = .remote (machineIdOf (.filled 2))) = true by decide +kernel)
  have reachable : Reachable s := ⟨_, _, _, _, _, _, _, run⟩
  have target := of_decide_eq_true active
  obtain ⟨_, _, remote, _, withheld⟩ := reachable.agree
  exact ⟨s, reachable, (remote _ target).1, (remote _ target).2, withheld.mpr ⟨_, target⟩⟩

end Omnipresent
