import Omnipresent.Daemon.Coalesce
import Omnipresent.Daemon.Reachable
import Omnipresent.HandOver.Protocol

/-! What a daemon says about the cursor: the hand-over messages each of its
operations leaves with the tasks serving its peers, and what it does on hearing
one. -/
namespace Omnipresent

/-- What a command puts on the control stream; input goes out as a datagram and a
clipboard on a stream of its own. -/
def PeerCommand.message (session : SessionId) : PeerCommand → Option ControlMessage
  | warp x y => some (.cursorWarp session x y)
  | cursorReturned x y => some (.cursorReturned session x y)
  | disconnect => some (.disconnect session)
  | input _ | clipboard _ => none

def PeerCommand.word : PeerCommand → Option Word
  | warp _ _ => some .yours
  | cursorReturned _ _ => some .mine
  | _ => none

def ControlMessage.word : ControlMessage → Option Word
  | cursorWarp _ _ _ => some .yours
  | cursorReturned _ _ _ => some .mine
  | _ => none

/-- About this session, and not its end. -/
def ControlMessage.Within (session : SessionId) : ControlMessage → Prop
  | cursorWarp claimed _ _ | cursorReturned claimed _ _ | heartbeat claimed => claimed = session
  | _ => False

def ActiveTarget.peer : ActiveTarget → Option MachineId
  | here => none
  | remote peer => some peer

@[simp] theorem ActiveTarget.peer_eq_none {target : ActiveTarget} : target.peer = none ↔ target = .here := by
  cases target <;> simp [peer]

@[simp] theorem ActiveTarget.peer_eq_some {target : ActiveTarget} :
    target.peer = some machine ↔ target = .remote machine := by
  cases target <;> simp [peer]

theorem PeerCommand.message_word (session : SessionId) (command : PeerCommand) :
    (command.message session).bind ControlMessage.word = command.word := by
  cases command <;> rfl

theorem PeerCommand.message_within {command : PeerCommand} {message : ControlMessage}
    (stays : command ≠ .disconnect) (sent : command.message session = some message) : message.Within session := by
  cases command <;> simp [PeerCommand.message] at sent stays <;> subst sent <;> rfl

/-- Collapsing the motion of a batch keeps everything else in it, in order. -/
theorem coalesceMotion_filterMap (f : PeerCommand → Option α) (silent : ∀ event, f (.input event) = none)
    (batch : List PeerCommand) : (coalesceMotion batch).filterMap f = batch.filterMap f := by
  have others : ∀ batch : List PeerCommand, batch.filterMap f = (batch.filter (!·.isPointer)).filterMap f := by
    intro batch
    rw [List.filterMap_filter]
    refine List.filterMap_congr fun command _ => ?_
    by_cases position : command.isPointer = true
    · obtain ⟨x, y, rfl⟩ := PeerCommand.isPointer_iff.mp position
      exact silent _
    · rw [if_pos (by simp [position])]
  rw [others, filter_coalesceMotion, ← others]

namespace Shared
variable {s t : Shared}

def queued (self : Shared) (peer : MachineId) : List PeerCommand :=
  ((self.state.links.lookup peer).map (·.commands)).getD []

def words (self : Shared) (peer : MachineId) : List Word := (self.queued peer).filterMap PeerCommand.word

/-- The captured event takes the cursor across an edge, onto this machine or a peer. -/
def Crosses (self : Shared) (event : InputEvent) (os : Option (Int32 × Int32)) (peer : MachineId) : Prop :=
  ∃ delta scaled entry, event = .motion delta ∧ (self.tracked os).scaledDelta delta = some scaled ∧
    (self.tracked os).Crossed scaled peer entry

theorem Crosses.unique (first : s.Crosses event os peer) (second : s.Crosses event os peer') :
    peer = peer' := by
  obtain ⟨delta, scaled, entry, rfl, units, answer⟩ := first
  obtain ⟨delta', scaled', entry', same, units', answer'⟩ := second
  cases same
  obtain rfl := Option.some.inj (units.symm.trans units')
  have same := answer.symm.trans answer'
  simp only [Option.some.injEq, Except.ok.injEq, Advance.mk.injEq, Crossing.mk.injEq] at same
  exact same.2.1

/-- An operation that keeps every link's session, and asks for no end of one. -/
structure Keeps (s t : Shared) : Prop where
  endless : ∀ p, .disconnect ∈ t.queued p → .disconnect ∈ s.queued p
  session : ∀ p, (t.state.links.lookup p).map (·.session) = (s.state.links.lookup p).map (·.session)
  localMachine : t.localMachine = s.localMachine

/-- It also leaves these words with the task serving each peer. -/
structure Says (s t : Shared) (said : MachineId → List Word) : Prop extends s.Keeps t where
  words : ∀ p, t.words p = s.words p ++ said p

namespace Says

theorem nothing (links : t.state.links = s.state.links) (localMachine : t.localMachine = s.localMachine) :
    s.Says t fun _ => [] := by
  refine ⟨⟨fun p => ?_, fun p => by rw [links], localMachine⟩, fun p => ?_⟩
  · simp only [queued, links]
    exact fun member => member
  · simp only [Shared.words, queued, links, List.append_nil]

theorem congr {s t s' t' : Shared} (spoken : s'.Says t' said)
    (before : s'.state.links = s.state.links ∧ s'.localMachine = s.localMachine)
    (after : t.state.links = t'.state.links ∧ t.localMachine = t'.localMachine) : s.Says t said := by
  obtain ⟨⟨endless, session, localMachine⟩, words⟩ := spoken
  refine ⟨⟨fun p => ?_, fun p => ?_, ?_⟩, fun p => ?_⟩
  · simpa only [queued, after.1, before.1] using endless p
  · rw [after.1, session, before.1]
  · rw [after.2, localMachine, before.2]
  · simpa only [Shared.words, queued, after.1, before.1] using words p

theorem map (s : Shared) (f : MachineId → PeerLink → PeerLink) (said : MachineId → List Word)
    (session : ∀ p link, (f p link).session = link.session)
    (news : ∀ p link, s.state.links.lookup p = some link →
      ∃ commands, (f p link).commands = link.commands ++ commands ∧
        .disconnect ∉ commands ∧ commands.filterMap PeerCommand.word = said p)
    (linked : ∀ p, said p ≠ [] → p ∈ s.state.links) :
    s.Says { s with state.links := s.state.links.map f } said := by
  refine ⟨⟨fun p => ?_, fun p => ?_, rfl⟩, fun p => ?_⟩
  · simp only [queued, HashMap.lookup_map]
    cases found : s.state.links.lookup p with
    | none => simp
    | some link =>
      obtain ⟨commands, grown, endless, _⟩ := news p link found
      simp [grown, endless]
  · simp only [HashMap.lookup_map, Option.map_map]
    congr 1
    exact funext fun link => session p link
  · simp only [Shared.words, queued, HashMap.lookup_map]
    cases found : s.state.links.lookup p with
    | none =>
      have silent : said p = [] := by
        by_contra spoken
        exact Finmap.lookup_eq_none.mp found (linked p spoken)
      simp [silent]
    | some link =>
      obtain ⟨commands, grown, _, spoken⟩ := news p link found
      simp [grown, spoken]

theorem send (s : Shared) (linked : machine ∈ s.state.links) (command : PeerCommand)
    (endless : command ≠ .disconnect) (spoken : command.word = some word) :
    s.Says (s.send machine command) fun p => if p = machine then [word] else [] := by
  refine .map s _ _ (fun p link => ?_) (fun p link _ => ?_) fun p said => ?_
  · split <;> rfl
  · split
    · exact ⟨[command], rfl, by simpa using Ne.symm endless, by simp [spoken]⟩
    · exact ⟨[], (List.append_nil _).symm, List.not_mem_nil, rfl⟩
  · split at said
    · exact Eq.symm ‹_› ▸ linked
    · exact absurd rfl said

theorem broadcast (s : Shared) (command : PeerCommand) (endless : command ≠ .disconnect)
    (spoken : command.word = some word) :
    s.Says (s.broadcast command) fun p => if p ∈ s.state.links then [word] else [] := by
  refine .map s _ _ (fun _ _ => rfl) (fun p link found => ?_) fun p said => ?_
  · rw [if_pos (Finmap.mem_of_lookup_eq_some found)]
    exact ⟨[command], rfl, by simpa using Ne.symm endless, by simp [spoken]⟩
  · by_contra absent
    exact said (if_neg absent)

theorem forwardTo (s : Shared) (peer : MachineId) (event : InputEvent) :
    s.Says (s.forwardTo peer event) fun _ => [] := by
  refine .map s _ _ (fun p link => ?_) (fun p link _ => ?_) fun p said => absurd rfl said
  · split <;> rfl
  · split
    · exact ⟨[.input (link.modifierSwap.apply event)], rfl, by simp, rfl⟩
    · exact ⟨[], (List.append_nil _).symm, List.not_mem_nil, rfl⟩

end Says

theorem tracked_links (s : Shared) (os : Option (Int32 × Int32)) :
    (s.tracked os).state.links = s.state.links ∧ (s.tracked os).localMachine = s.localMachine := by
  rw [Shared.tracked]
  cases s.state.sessions.active with
  | remote peer => exact ⟨rfl, rfl⟩
  | here => cases os <;> exact ⟨rfl, rfl⟩

theorem Crossed.exit (crossed : s.Crossed scaled peer entry) :
    ∃ edge, s.state.layout.Exit s.state.cursor scaled edge peer := by
  have spec := VirtualLayout.advance_spec s.state.layout s.state.cursor scaled
  rw [show s.state.layout.advance s.state.cursor scaled = _ from crossed] at spec
  cases spec with
  | crosses exit => exact ⟨_, exit⟩

theorem cross_active (s : Shared) (peer : MachineId) (entry : Point) :
    (s.cross peer entry).state.sessions.active =
      if peer = s.localMachine then .here else .remote peer := by
  rw [cross, (Unmoved.placeCursorAfterCrossing _ _).sessions, SessionManager.setActive_active]

theorem Says.home (s : Shared) (entry : Point) :
    s.Says (s.cross s.localMachine entry) fun p => if p ∈ s.state.links then [.mine] else [] := by
  unfold cross placeCursorAfterCrossing
  simp only [if_true]
  exact Says.congr (.broadcast s (.cursorReturned entry.x.toInt32 entry.y.toInt32) nofun rfl)
    ⟨rfl, rfl⟩ ⟨rfl, rfl⟩

theorem Says.out (s : Shared) (away : peer ≠ s.localMachine) (linked : peer ∈ s.state.links) (entry : Point) :
    s.Says (s.cross peer entry) fun p => if p = peer then [.yours] else [] := by
  unfold cross placeCursorAfterCrossing
  simp only [if_neg away]
  exact Says.congr (.send s linked (.warp entry.x.toInt32 entry.y.toInt32) nofun rfl)
    ⟨rfl, rfl⟩ ⟨rfl, rfl⟩

theorem rest_active (s : Shared) (position : Point) :
    (s.rest position).state.sessions.active = s.state.sessions.active := by
  rw [Shared.rest]
  split <;> rfl

theorem Says.rest (s : Shared) (position : Point) : s.Says (s.rest position) fun _ => [] := by
  rw [Shared.rest]
  split
  · exact .nothing rfl rfl
  · exact Says.congr (.forwardTo { s with state.cursor.position := position } _ _) ⟨rfl, rfl⟩ ⟨rfl, rfl⟩

/-- A captured event that crosses no edge tells nobody anything. -/
structure Stays (s : Shared) (event : InputEvent) (os : Option (Int32 × Int32)) (t : Shared) : Prop where
  inside : ∀ peer, ¬ s.Crosses event os peer
  active : t.state.sessions.active = s.state.sessions.active
  said : s.Says t fun _ => []

structure ComesHome (s : Shared) (event : InputEvent) (os : Option (Int32 × Int32)) (t : Shared) : Prop where
  crosses : s.Crosses event os s.localMachine
  before : s.state.sessions.active ≠ .here
  active : t.state.sessions.active = .here
  said : s.Says t fun p => if p ∈ s.state.links then [.mine] else []

structure GoesOut (s : Shared) (event : InputEvent) (os : Option (Int32 × Int32)) (peer : MachineId)
    (t : Shared) : Prop where
  crosses : s.Crosses event os peer
  before : s.state.sessions.active = .here
  linked : peer ∈ s.state.links
  active : t.state.sessions.active = .remote peer
  said : s.Says t fun p => if p = peer then [.yours] else []

/-- From this machine's own screen every edge leads to a linked one, so a way home
starts on a peer's. -/
theorem Sound.lent (sound : s.Sound) (apart : s.localMachine ∉ s.state.links)
    (found : s.state.layout.neighbor s.state.cursor.machine edge = some s.localMachine) :
    s.state.sessions.active ≠ .here := by
  intro here
  rw [sound.cursor, here, ActiveTarget.holder] at found
  exact apart (sound.laidOut.outward found)

/-- From a peer's screen every edge leads back to this machine, so a way out starts
on its own. -/
theorem Sound.own (sound : s.Sound) (apart : s.localMachine ∉ s.state.links) (away : peer ≠ s.localMachine)
    (found : s.state.layout.neighbor s.state.cursor.machine edge = some peer) :
    s.state.sessions.active = .here := by
  cases active : s.state.sessions.active with
  | here => rfl
  | remote other =>
    rw [sound.cursor, active, ActiveTarget.holder] at found
    have elsewhere : other ≠ s.localMachine := by
      rintro rfl
      exact apart (sound.remote_linked active)
    exact absurd (sound.laidOut.homeward found elsewhere) away

theorem Sound.handsOver (sound : s.Sound) (apart : s.localMachine ∉ s.state.links)
    (captures : Captures s os event t) :
    s.Stays event os t ∨ s.ComesHome event os t ∨ ∃ peer, s.GoesOut event os peer t := by
  have same := s.tracked_links os
  cases captures with
  | idle active other =>
    refine .inl ⟨?_, rfl, .nothing rfl rfl⟩
    rintro peer ⟨delta, _, _, motion, _⟩
    exact other delta motion
  | forwarded active other =>
    refine .inl ⟨?_, rfl, .forwardTo s _ _⟩
    rintro peer ⟨delta, _, _, motion, _⟩
    exact other delta motion
  | stays units blocked =>
    refine .inl ⟨?_, ?_, ?_⟩
    · rintro peer ⟨delta, scaled, entry, motion, units', crossed⟩
      cases motion
      obtain rfl := Option.some.inj (units.symm.trans units')
      obtain ⟨edge, exit⟩ := crossed.exit
      exact blocked edge peer exit
    · rw [rest_active, tracked_active]
    · exact Says.congr (.rest _ _) same ⟨rfl, rfl⟩
  | @crosses _ _ peer entry _ units crossed exit =>
    have crosses : s.Crosses _ os peer := ⟨_, _, _, rfl, units, crossed⟩
    have tracked := sound.tracked os
    have apart' : (s.tracked os).localMachine ∉ (s.tracked os).state.links := by rwa [same.1, same.2]
    obtain ⟨_, _, _, found⟩ := exit
    by_cases own : peer = (s.tracked os).localMachine
    · subst own
      refine .inr (.inl ⟨same.2 ▸ crosses, tracked_active s os ▸ tracked.lent apart' found, ?_, ?_⟩)
      · exact (cross_active _ _ _).trans (if_pos rfl)
      · have said := Says.home (s.tracked os) entry
        rw [same.1] at said
        exact said.congr same ⟨rfl, rfl⟩
    · have linked := (tracked.neighbor_linked found).resolve_left own
      have before := tracked_active s os ▸ tracked.own apart' own found
      refine .inr (.inr ⟨peer, crosses, before, same.1 ▸ linked, ?_, ?_⟩)
      · exact (cross_active _ _ _).trans (if_neg own)
      · exact Says.congr (.out _ own linked entry) same ⟨rfl, rfl⟩

theorem signalling_links (s : Shared) (machine : MachineId) (session : SessionId) (message : ControlMessage) :
    (s.signalling machine session message).state.links = s.state.links ∧
      (s.signalling machine session message).localMachine = s.localMachine := by
  cases message with
  | cursorWarp claimed x y =>
    simp only [signalling, yieldControlToPeer_eq]
    split
    · split <;> exact ⟨rfl, rfl⟩
    · exact ⟨rfl, rfl⟩
  | cursorReturned claimed x y =>
    simp only [signalling, followPeerCursor]
    split
    · split
      · exact ⟨rfl, rfl⟩
      · split
        · exact ⟨rfl, rfl⟩
        · split <;> exact ⟨rfl, rfl⟩
    · exact ⟨rfl, rfl⟩
  | _ => exact ⟨rfl, rfl⟩

/-- A word within the session is heeded, and nothing else moves the target. -/
theorem Sound.signalling_active (sound : s.Sound) (linked : machine ∈ s.state.links)
    (within : message.Within session) :
    (s.signalling machine session message).state.sessions.active.peer =
      (message.word.map (·.target machine)).getD s.state.sessions.active.peer := by
  cases message with
  | cursorWarp claimed x y =>
    simp only [Shared.signalling, if_pos (show claimed = session from within), yieldControlToPeer_eq]
    split <;> exact congrArg ActiveTarget.peer (SessionManager.setActive_active _ _)
  | cursorReturned claimed x y =>
    obtain ⟨screen, shown⟩ := sound.screen_linked (.inr linked)
    have indexed : machine ∈ s.state.sessions.byPeer := (sound.mem_links machine).mp linked
    simp only [Shared.signalling, if_pos (show claimed = session from within), Shared.followPeerCursor, shown,
      SessionManager.followPeer, if_neg (not_not.mpr indexed)]
    split <;> exact congrArg ActiveTarget.peer (SessionManager.setActive_active _ _)
  | heartbeat claimed => rfl
  | _ => exact within.elim

theorem queued_takeCommands (s : Shared) (machine : MachineId) (count : Nat) (peer : MachineId) :
    (s.takeCommands machine count).queued peer =
      if peer = machine then (s.queued peer).drop count else s.queued peer := by
  simp only [queued, takeCommands, HashMap.lookup_modify]
  split
  · cases s.state.links.lookup peer with
    | none => simp
    | some link => rfl
  · rfl

theorem Keeps.takeCommands (s : Shared) (machine : MachineId) (count : Nat) :
    s.Keeps (s.takeCommands machine count) := by
  refine ⟨fun p => ?_, (Unmoved.takeCommands s machine count).session, rfl⟩
  rw [queued_takeCommands]
  split
  · exact fun member => List.mem_of_mem_drop member
  · exact fun member => member

end Shared
end Omnipresent
