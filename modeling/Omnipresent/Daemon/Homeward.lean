import Omnipresent.Daemon.Bounds
import Omnipresent.Topology.Heading

/-! The way home: from a peer's screen the edge opposite the one it sits past always
leads back here, however the links overlap and however often they are rearranged. -/
namespace Omnipresent
open Transition

def Op.Sized : Op → Prop
  | incoming _ _ _ screen _ | dialled _ _ _ screen _ _ => (Screen.mk screen.width screen.height).Honest
  | _ => True

namespace VirtualLayout

/-- The cursor's way back from any linked machine, once both are on the desktop. -/
theorem link_neighbor_back {self : VirtualLayout} (here : self.screen a = some shown)
    (there : self.screen b = some shown') (edge : Edge) :
    (self.link a edge b).1.neighbor b edge.opposite = some a := by
  have known : a ∈ self.screens := Finmap.mem_of_lookup_eq_some here
  have known' : b ∈ self.screens := Finmap.mem_of_lookup_eq_some there
  rw [link, if_neg (not_not.mpr known), if_neg (not_not.mpr known')]
  exact Finmap.lookup_insert _

/-- Linking two machines leaves the neighbors of every other alone. -/
theorem link_neighbor_other {self : VirtualLayout} (a : MachineId) (edge : Edge) (b : MachineId)
    (first : m ≠ a) (second : m ≠ b) (e : Edge) :
    (self.link a edge b).1.neighbor m e = self.neighbor m e := by
  rw [link]
  split
  · rfl
  · split
    · rfl
    · simp only [neighbor, HashMap.lookup_insert_eq, Prod.mk.injEq, first, second, false_and, if_false]

end VirtualLayout

namespace Shared
variable {s t : Shared}

theorem addLinks_homeward (s : Shared) (unique : (links.map Prod.fst).Nodup) (listed : (machine, link) ∈ links)
    (apart : machine ≠ s.localMachine) :
    (s.addLinks (VirtualLayout.new.addMachine ⟨s.localMachine, s.localScreen⟩).1 links).neighbor machine
      link.edge.opposite = some s.localMachine := by
  induction links using List.reverseRecOn with
  | nil => exact absurd listed List.not_mem_nil
  | append_singleton earlier entry ih =>
    simp only [List.map_append, List.map_cons, List.map_nil] at unique
    obtain ⟨before, _, distinct⟩ := List.nodup_append.mp unique
    have covers := Covers.addLinks s before
    simp only [Shared.addLinks, List.foldl_append, List.foldl_cons, List.foldl_nil] at ih covers ⊢
    simp only [List.mem_append, List.mem_singleton] at listed
    rcases listed with old | rfl
    · have other : machine ≠ entry.1 := distinct _ (List.mem_map_of_mem old) _ (List.mem_singleton_self _)
      rw [VirtualLayout.link_neighbor_other _ _ _ apart other, VirtualLayout.addMachine_neighbor]
      exact ih before old
    · generalize earlier.foldl _ _ = layout at covers ⊢
      have own := VirtualLayout.addMachine_screen layout ⟨machine, link.screen⟩ s.localMachine
      rw [if_neg (Ne.symm apart), covers.own] at own
      have there := VirtualLayout.addMachine_screen layout ⟨machine, link.screen⟩ machine
      rw [if_pos rfl] at there
      exact VirtualLayout.link_neighbor_back own there link.edge

/-- What brings the cursor home from any peer: it is on its screen, screens are honest,
and each peer's way back is on the desktop. -/
structure Homing (s : Shared) : Prop where
  own : s.localScreen.Honest
  peers : ∀ {peer link}, s.state.links.lookup peer = some link → link.screen.Honest
  cursor : ∀ {here}, s.screenOf s.state.cursor.machine = some here → s.state.cursor.position.Inside here
  homeward : ∀ {peer link}, s.state.links.lookup peer = some link → peer ≠ s.localMachine →
    s.state.layout.neighbor peer link.edge.opposite = some s.localMachine

namespace Homing

theorem moved (homing : s.Homing) (localMachine : t.localMachine = s.localMachine)
    (localScreen : t.localScreen = s.localScreen) (layout : t.state.layout = s.state.layout)
    (links : ∀ p, (t.state.links.lookup p).map (fun link => (link.screen, link.edge)) =
      (s.state.links.lookup p).map fun link => (link.screen, link.edge))
    (inside : ∀ here, s.screenOf t.state.cursor.machine = some here → t.state.cursor.position.Inside here) :
    t.Homing := by
  have before : ∀ {p link}, t.state.links.lookup p = some link →
      ∃ old, s.state.links.lookup p = some old ∧ old.screen = link.screen ∧ old.edge = link.edge := by
    intro p link found
    have same := links p
    rw [found, Option.map_some, eq_comm, Option.map_eq_some_iff] at same
    obtain ⟨old, stored, place⟩ := same
    exact ⟨old, stored, Prod.mk.inj place⟩
  refine ⟨localScreen ▸ homing.own, ?_, ?_, ?_⟩
  · intro p link found
    obtain ⟨old, stored, screen, _⟩ := before found
    exact screen ▸ homing.peers stored
  · intro here shown
    refine inside here ?_
    have screens := congrArg (Option.map Prod.fst) (links t.state.cursor.machine)
    simp only [Option.map_map] at screens
    have same : t.screenOf t.state.cursor.machine = s.screenOf t.state.cursor.machine := by
      simp only [Shared.screenOf, localMachine, localScreen]
      split
      · rfl
      · exact screens
    rwa [← same]
  · intro p link found apart
    obtain ⟨old, stored, _, edge⟩ := before found
    rw [localMachine] at apart ⊢
    rw [layout, ← edge]
    exact homing.homeward stored apart

theorem map (homing : s.Homing) (f : MachineId → PeerLink → PeerLink)
    (same : ∀ p link, ((f p link).screen, (f p link).edge) = (link.screen, link.edge)) :
    Homing { s with state.links := s.state.links.map f } := by
  refine homing.moved rfl rfl rfl (fun p => ?_) fun here => homing.cursor
  simp only [HashMap.lookup_map, Option.map_map]
  congr 1
  exact funext fun link => same p link

theorem modify (homing : s.Homing) (p : MachineId) (f : PeerLink → PeerLink)
    (same : ∀ link, ((f link).screen, (f link).edge) = (link.screen, link.edge)) :
    Homing { s with state.links := s.state.links.modify p f } := by
  refine homing.map _ fun p link => ?_
  split
  · exact same link
  · rfl

theorem send (homing : s.Homing) (machine : MachineId) (command : PeerCommand) :
    (s.send machine command).Homing :=
  homing.modify machine _ fun _ => rfl

theorem broadcast (homing : s.Homing) (command : PeerCommand) : (s.broadcast command).Homing :=
  homing.map _ fun _ _ => rfl

theorem forwardTo (homing : s.Homing) (peer : MachineId) (event : InputEvent) :
    (s.forwardTo peer event).Homing :=
  homing.modify peer _ fun _ => rfl

theorem same (homing : s.Homing) (localMachine : t.localMachine = s.localMachine)
    (localScreen : t.localScreen = s.localScreen) (layout : t.state.layout = s.state.layout)
    (links : t.state.links = s.state.links) (cursor : t.state.cursor = s.state.cursor) : t.Homing := by
  refine homing.moved localMachine localScreen layout (fun p => by rw [links]) ?_
  rw [cursor]
  exact fun _ => homing.cursor

theorem warp (homing : s.Homing) (x y : Int32) : (s.warp x y).Homing := homing.same rfl rfl rfl rfl rfl

theorem syncSuppression (homing : s.Homing) : s.syncSuppression.Homing := homing.same rfl rfl rfl rfl rfl

theorem notifyChange (homing : s.Homing) : s.notifyChange.Homing := homing.same rfl rfl rfl rfl rfl

theorem home (homing : s.Homing) (inside : position.Inside s.localScreen)
    (localMachine : t.localMachine = s.localMachine) (localScreen : t.localScreen = s.localScreen)
    (layout : t.state.layout = s.state.layout) (links : t.state.links = s.state.links)
    (cursor : t.state.cursor = ⟨s.localMachine, position⟩) : t.Homing := by
  refine homing.moved localMachine localScreen layout (fun p => by rw [links]) fun here shown => ?_
  rw [cursor] at shown ⊢
  rw [Shared.screenOf, if_pos rfl, Option.some.injEq] at shown
  exact shown ▸ inside

theorem origin (homing : s.Homing) : Point.Inside ⟨0, 0⟩ s.localScreen :=
  ⟨homing.own.1.1, homing.own.2.1⟩

theorem tracked (homing : s.Homing) (os : Option (Int32 × Int32)) : (s.tracked os).Homing := by
  rw [Shared.tracked]
  cases s.state.sessions.active with
  | remote peer => exact homing
  | here =>
    cases os with
    | none => exact homing
    | some xy => exact homing.home (clampToScreen_inside homing.own xy.1 xy.2) rfl rfl rfl rfl rfl

theorem rest (homing : s.Homing)
    (inside : ∀ here, s.screenOf s.state.cursor.machine = some here → position.Inside here) :
    (s.rest position).Homing := by
  have moved : Homing { s with state.cursor.position := position } :=
    homing.moved rfl rfl rfl (fun _ => rfl) inside
  rw [Shared.rest]
  cases s.state.sessions.active with
  | here => exact moved
  | remote peer => exact moved.forwardTo peer _

theorem cross (homing : s.Homing) (inside : ∀ there, s.screenOf peer = some there → entry.Inside there) :
    (s.cross peer entry).Homing := by
  have moved : ∀ sessions, Homing { s with state.sessions := sessions, state.cursor := ⟨peer, entry⟩ } :=
    fun sessions => homing.moved rfl rfl rfl (fun _ => rfl) inside
  rw [Shared.cross, placeCursorAfterCrossing]
  dsimp only
  split
  · exact ((moved _).warp _ _).broadcast _
  · exact (moved _).send peer _

theorem screenOf (homing : s.Homing) (shown : s.screenOf machine = some screen) : screen.Honest := by
  rw [Shared.screenOf] at shown
  split at shown
  · exact Option.some.inj shown ▸ homing.own
  · obtain ⟨link, found, rfl⟩ := Option.map_eq_some_iff.mp shown
    exact homing.peers found

theorem captures (homing : s.Homing) (sound : s.Sound) (captures : Captures s os event t) : t.Homing := by
  have laidOut := (sound.tracked os).laidOut
  have tracked := homing.tracked os
  cases captures with
  | idle => exact homing
  | forwarded => exact homing.forwardTo _ event
  | stays _ _ inside =>
    refine tracked.rest fun here shown => inside here ?_
    rwa [laidOut.screens]
  | crosses _ _ _ inside =>
    refine (tracked.cross fun there shown => ?_).syncSuppression.notifyChange
    obtain ⟨⟨wide, _⟩, tall, _⟩ := tracked.screenOf shown
    exact inside there (by rwa [laidOut.screens]) wide tall

theorem yieldControlToPeer (homing : s.Homing) : s.yieldControlToPeer.Homing := by
  rw [yieldControlToPeer_eq]
  split
  · exact homing.same rfl rfl rfl rfl rfl
  · exact homing.home homing.origin rfl rfl rfl rfl rfl

theorem followPeerCursor (homing : s.Homing) (sound : s.Sound) (peer : MachineId) (x y : Int32) :
    (s.followPeerCursor peer x y).Homing := by
  obtain same | ⟨screen, shown, _, result⟩ := sound.followPeerCursor_cases peer x y
  · rwa [same]
  · rw [sound.laidOut.screens] at shown
    have followed : Homing { s with
        state.sessions := s.state.sessions.setActive (.remote peer)
        state.cursor := ⟨peer, clampToScreen screen x y⟩ } := by
      refine homing.moved rfl rfl rfl (fun _ => rfl) fun here there => ?_
      obtain rfl : screen = here := Option.some.inj (shown.symm.trans there)
      exact clampToScreen_inside (homing.screenOf shown) x y
    rw [result]
    dsimp only
    split
    · exact followed.syncSuppression.notifyChange
    · exact followed.syncSuppression

theorem signalling (homing : s.Homing) (sound : s.Sound) (machine : MachineId) (session : SessionId)
    (message : ControlMessage) : (s.signalling machine session message).Homing :=
  signalling_keeps homing (fun x y => homing.yieldControlToPeer.warp x y)
    (homing.followPeerCursor sound machine) session message

/-- A rebuilt desktop has every peer's way back on it, whatever it had before. -/
theorem rebuilt (own : s.localScreen.Honest)
    (peers : ∀ {peer link}, s.state.links.lookup peer = some link → link.screen.Honest)
    (cursor : ∀ {here}, s.screenOf s.state.cursor.machine = some here → s.state.cursor.position.Inside here)
    (ordered : HashMap.Order order s.state.links) : (s.rebuildLayout order).Homing := by
  refine ⟨own, peers, ?_, fun found apart => ?_⟩
  · intro here shown
    rw [rebuildLayout_cursor ordered] at shown ⊢
    split
    · rw [if_pos ‹_›, Shared.screenOf] at shown
      simp only [rebuildLayout_localMachine, rebuildLayout_localScreen, if_true, Option.some.injEq] at shown
      exact shown ▸ ⟨own.1.1, own.2.1⟩
    · rw [if_neg ‹_›] at shown
      exact cursor shown
  · exact addLinks_homeward s ordered.nodup_iter (ordered.mem_iter.mpr found) apart

theorem rebuildLayout (homing : s.Homing) (ordered : HashMap.Order order s.state.links) :
    (s.rebuildLayout order).Homing :=
  rebuilt homing.own homing.peers homing.cursor ordered

theorem establishLink (homing : s.Homing) (sound : s.Sound) (host : String) (fingerprint : Fingerprint)
    (session : SessionId) (role : Role) (screen : Screen) (fallback : Edge) (order : List MachineId)
    (honest : screen.Honest)
    (ordered : HashMap.Order order
      (s.establishLink host fingerprint session role screen fallback order).1.state.links) :
    (s.establishLink host fingerprint session role screen fallback order).1.Homing := by
  revert ordered
  refine establishLink_keeps (P := fun t => HashMap.Order order t.state.links → t.Homing) (fun _ => homing) ?_
  intro sessions established ordered
  obtain ⟨_, _, _, absent⟩ := SessionManager.establish_ok established
  have unlinked : machineIdOf fingerprint ∉ s.state.links := mt (sound.mem_links _).mp absent
  refine rebuilt homing.own ?_ ?_ ordered
  · intro peer link found
    simp only [HashMap.lookup_insert_eq] at found
    split at found
    · exact Option.some.inj found ▸ honest
    · exact homing.peers found
  · exact fun there => homing.cursor (screenOf_of_insert there rfl rfl rfl (sound.cursor_apart unlinked))

theorem handleIncoming (homing : s.Homing) (sound : s.Sound) (host : String) (fingerprint : Fingerprint)
    (session : SessionId) (screen : ScreenSize) (order : List MachineId)
    (honest : (Screen.mk screen.width screen.height).Honest)
    (ordered : HashMap.Order order (s.handleIncoming host fingerprint session screen order).1.state.links) :
    (s.handleIncoming host fingerprint session screen order).1.Homing := by
  revert ordered
  exact handleIncoming_keeps (P := fun t => HashMap.Order order t.state.links → t.Homing)
    (fun kept ordered => (kept ordered).notifyChange) (homing.establishLink sound _ _ _ _ _ _ _ honest)

theorem trust (homing : s.Homing) (trust : TrustState) : Homing { s with trust } :=
  homing.same rfl rfl rfl rfl rfl

theorem doConnect (homing : s.Homing) (sound : s.Sound) (host : String) (fingerprint : Fingerprint)
    (session : SessionId) (screen : ScreenSize) (write : Write) (order : List MachineId)
    (honest : (Screen.mk screen.width screen.height).Honest)
    (ordered : HashMap.Order order (s.doConnect host fingerprint session screen write order).1.state.links) :
    (s.doConnect host fingerprint session screen write order).1.Homing := by
  revert ordered
  exact doConnect_keeps (P := fun t => HashMap.Order order t.state.links → t.Homing)
    (fun _ => homing.trust _) (fun kept ordered => (kept ordered).notifyChange)
    ((homing.trust _).establishLink (sound.of_unmoved (.trust s _)) _ _ _ _ _ _ _ honest)

theorem cleanupPeer (homing : s.Homing) (machine : MachineId) (order : List MachineId)
    (ordered : HashMap.Order order (s.cleanupPeer machine order).state.links) :
    (s.cleanupPeer machine order).Homing := by
  revert ordered
  refine cleanupPeer_keeps (P := fun t => HashMap.Order order t.state.links → t.Homing)
    (fun ordered => (homing.rebuildLayout ordered).syncSuppression.notifyChange) fun found ordered => ?_
  refine Homing.notifyChange (Homing.syncSuppression (rebuilt homing.own ?_ ?_ ordered))
  · intro peer kept stored
    simp only [HashMap.lookup_erase_eq] at stored
    split at stored
    · cases stored
    · exact homing.peers stored
  · exact fun there => homing.cursor (screenOf_of_erase there rfl rfl rfl)

theorem setLayout (homing : s.Homing) (host edge : String) (config : ConfigWrite) (order : List MachineId)
    (ordered : HashMap.Order order (s.setLayout host edge config order).1.state.links) :
    (s.setLayout host edge config order).1.Homing := by
  unfold Shared.setLayout at ordered ⊢
  cases parsed : parseEdge edge with
  | none => exact homing
  | some edge =>
    simp only [parsed] at ordered ⊢
    refine Homing.notifyChange ?_
    let placed : Shared :=
      { s with
        state.placements := s.state.placements.insert host edge
        state.links := s.state.links.map fun _ (link : PeerLink) =>
          if link.host = host then { link with edge } else link }
    have screens : ∀ machine, placed.screenOf machine = s.screenOf machine :=
      screenOf_map (f := fun _ link => if link.host = host then { link with edge } else link) rfl rfl rfl
        fun _ link => by split <;> rfl
    have peers : ∀ {peer link}, placed.state.links.lookup peer = some link → link.screen.Honest := by
      intro peer link found
      obtain ⟨old, stored, rfl⟩ := Option.map_eq_some_iff.mp ((HashMap.lookup_map ..).symm.trans found)
      have honest := homing.peers stored
      split <;> exact honest
    have cursor : ∀ {here}, placed.screenOf placed.state.cursor.machine = some here →
        placed.state.cursor.position.Inside here := fun shown => homing.cursor ((screens _).symm.trans shown)
    split
    · -- Without links nothing is rebuilt, and there is nobody to come home from.
      rename_i none
      refine ⟨homing.own, peers, cursor, fun found => ?_⟩
      rw [none] at found
      cases found
    · rename_i some
      rw [if_neg some] at ordered
      exact (rebuilt (s := placed) homing.own peers cursor ordered).syncSuppression

theorem setModifierSwap (homing : s.Homing) (host swap : String) (config : ConfigWrite) :
    (s.setModifierSwap host swap config).1.Homing := by
  unfold Shared.setModifierSwap
  cases parsed : ModifierSwap.parse swap with
  | none => exact homing
  | some modifierSwap =>
    have mapped := homing.map
      (fun _ (link : PeerLink) => if link.host = host then { link with modifierSwap } else link)
      fun _ link => by split <;> rfl
    exact mapped.same rfl rfl rfl rfl rfl

theorem disconnect (homing : s.Homing) (host : String) (order : List MachineId) :
    (s.disconnect host order).1.Homing := by
  rw [Shared.disconnect]
  split
  · exact homing.send _ _
  · exact homing

theorem removePeer (homing : s.Homing) (selector : String) (order : List MachineId) (write : Write) :
    (s.removePeer selector order write).1.Homing := by
  rw [Shared.removePeer]
  refine Homing.trust ?_ _
  split
  · exact homing.send _ _
  · exact homing

theorem decidePending (homing : s.Homing) (selector : String) : (s.decidePending selector).1.Homing := by
  rw [Shared.decidePending]
  split <;> exact homing.same rfl rfl rfl rfl rfl

theorem start {localScreen : Screen} (honest : localScreen.Honest) (localMachine : MachineId) (trust : TrustState)
    (sink : Option (List (Int32 × Int32))) (placements : HashMap String Edge)
    (modifierSwaps : HashMap String ModifierSwap) :
    (Shared.start localMachine localScreen trust sink placements modifierSwaps).Homing := by
  refine rebuilt honest ?_ ?_ rfl
  · intro peer link found
    cases found
  · intro here shown
    rw [Shared.screenOf, if_pos rfl, Option.some.injEq] at shown
    exact shown ▸ ⟨honest.1.1, honest.2.1⟩

end Homing
end Shared

theorem Step.homing (step : Step s op t) (sized : op.Sized) (sound : s.Sound) (homing : s.Homing) : t.Homing := by
  obtain ⟨ran, walks⟩ := step
  cases op with
  | captured event os => exact homing.captures sound (sound.captures ran)
  | signalled machine session message =>
    cases ran
    exact homing.signalling sound machine session message
  | incoming host fingerprint session screen order =>
    cases ran
    exact homing.handleIncoming sound host fingerprint session screen order sized (walks order rfl)
  | dialled host fingerprint session screen write order =>
    cases ran
    exact homing.doConnect sound host fingerprint session screen write order sized (walks order rfl)
  | cleanup machine order =>
    cases ran
    exact homing.cleanupPeer machine order (walks order rfl)
  | taken machine count =>
    cases ran
    exact homing.modify machine _ fun _ => rfl
  | copied data =>
    cases ran
    exact homing.broadcast _
  | layout host edge config order =>
    obtain rfl := Option.some.inj ran
    exact homing.setLayout host edge config order (walks order rfl)
  | modifiers host swap config =>
    obtain rfl := Option.some.inj ran
    exact homing.setModifierSwap host swap config
  | disconnect host order =>
    cases ran
    exact homing.disconnect host order
  | removePeer selector order write =>
    cases ran
    exact homing.removePeer selector order write
  | decided selector =>
    cases ran
    exact homing.decidePending selector
  | asked | retained | approved =>
    cases ran
    exact homing.same rfl rfl rfl rfl rfl

end Omnipresent
