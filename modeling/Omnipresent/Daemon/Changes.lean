import Omnipresent.Daemon.Dispatch
import Omnipresent.Daemon.Reachable

/-! Every operation of the daemon against what its subscribers are told: a status that
changed and a counter that was bumped once it had. -/
namespace Omnipresent

/-- How a connection that may be a session by now goes on. -/
structure Admission where
  session : SessionId
  screen : ScreenSize
  order : List MachineId
  /-- The accept could not be sent: the pass of the clean-up. -/
  undelivered : Option (List MachineId)

inductive DaemonOp where
  | captured (event : InputEvent) (os : Option (Int32 × Int32))
  | captureStopped
  | signalled (machine : MachineId) (session : SessionId) (message : ControlMessage)
  | incoming (host : String) (fingerprint : Fingerprint) (decision : Nat) (admission : Admission)
  /-- The wait for the user is over, one way or the other. -/
  | decided (host : String) (fingerprint : Fingerprint) (approved : Bool) (write : Write) (admission : Admission)
  | cleanup (machine : MachineId) (order : List MachineId)
  | taken (machine : MachineId) (count : Nat)
  | copied (data : ClipboardData)
  | request (request : Request) (outside : Outside)

namespace Daemon

def withShared (self : Daemon) (shared : Shared) : Daemon := { self with shared }

def letIn (self : Daemon) (host : String) (fingerprint : Fingerprint) (admission : Admission) : List Daemon :=
  match self.shared.handleIncoming host fingerprint admission.session admission.screen admission.order with
  | (refused, .error _) => [self.withShared refused]
  | (linked, .ok ()) => match admission.undelivered with
    | none => [self.withShared linked]
    | some order => [self.withShared linked, self.withShared (linked.cleanupPeer (machineIdOf fingerprint) order)]

/-- What an operation leaves behind, one state for each time it stops to let others
look; `none` is a panic. -/
def phases (self : Daemon) : DaemonOp → Option (List Daemon)
  | .captured event os => (self.shared.routeCaptured event os).map fun shared => [self.withShared shared]
  | .captureStopped => some [{ self with capturing := false }]
  | .signalled machine session message => some [self.withShared (self.shared.signalling machine session message)]
  | .incoming host fingerprint decision admission =>
    some (if self.shared.trust.isTrusted fingerprint then self.letIn host fingerprint admission
      else [self.withShared (self.shared.askUser host fingerprint decision)])
  | .decided host fingerprint approved write admission =>
    let retained := self.withShared (self.shared.retainPending fingerprint)
    if approved then
      let accepted := retained.withShared (retained.shared.acceptPeer host fingerprint write)
      some (retained :: accepted :: accepted.letIn host fingerprint admission)
    else some [retained]
  | .cleanup machine order => some [self.withShared (self.shared.cleanupPeer machine order)]
  | .taken machine count => some [self.withShared (self.shared.takeCommands machine count)]
  | .copied data => some [self.withShared (self.shared.broadcast (.clipboard data))]
  | .request request outside => some [(self.dispatch outside request).1]

/-- Whatever the order of the passes, the status is the same. -/
def LooksLike (s t : Daemon) : Prop := ∀ passes, s.status passes = t.status passes

/-- What a subscriber finds that reads as soon as the counter is bumped. -/
def bumps (s : Daemon) : List Daemon → List Daemon
  | [] => []
  | t :: rest => if t.shared.changes = s.shared.changes then bumps t rest else t :: bumps t rest

/-- The status is what it was before, or is what it was at a bump of the counter. -/
def Announces (s : Daemon) (phases : List Daemon) : Prop :=
  (phases.getLastD s).LooksLike s ∨ ∃ t ∈ s.bumps phases, (phases.getLastD s).LooksLike t

end Daemon

namespace Shared
variable {s t : Shared}

def Renames (s : Shared) (host : String) (fingerprint : Fingerprint) : Prop :=
  acceptRecords s.trust.peers (fingerprintHex fingerprint) (some host) ≠ s.trust.peers

end Shared

namespace Daemon
variable {s t : Daemon}

/-- The operations nobody is told of: a peer's record forgotten, the capture thread
ending, and a record changed for a session that then cannot be established. -/
def Silent (s : Daemon) : DaemonOp → Prop
  | .captureStopped => s.capturing = true
  | .decided host fingerprint approved _ admission =>
    approved = true ∧ s.shared.Renames host fingerprint ∧ ¬ s.shared.Free fingerprint admission.session
  | .request (.connect _) outside => ∃ accepted, outside.dial = .ok accepted ∧
      s.shared.Renames accepted.host accepted.fingerprint ∧
        (outside.write ≠ .done ∨ ¬ s.shared.Free accepted.fingerprint accepted.session)
  | .request (.removePeer selector) _ => ∃ record ∈ s.shared.trust.peers, record.selected selector = true
  | _ => False

end Daemon

namespace Shared
variable {s t : Shared}

/-- What every operation but those on the trust store does: it bumps the counter, or
leaves everything a status shows. -/
inductive Settles (s t : Shared) : Prop where
  | bumped : t.changes = s.changes + 1 → Settles s t
  | alike : t.changes = s.changes → t.Alike s → Settles s t

theorem Alike.of_queued {links : HashMap MachineId PeerLink}
    (queued : ∀ m, (links.lookup m).map PeerLink.shown = (s.state.links.lookup m).map PeerLink.shown) :
    Alike { s with state.links := links } s :=
  ⟨queued, rfl, rfl, rfl, rfl, rfl⟩

theorem Alike.of_cursor (s : Shared) (cursor : CursorState) : Alike { s with state.cursor := cursor } s :=
  ⟨fun _ => rfl, rfl, rfl, rfl, rfl, rfl⟩

theorem Alike.syncSuppression (alike : t.Alike s) : t.syncSuppression.Alike s :=
  ⟨alike.links, alike.active, alike.pending, alike.placements, alike.modifierSwaps, alike.peers⟩

theorem Alike.warp (alike : t.Alike s) (x y : Int32) : (t.warp x y).Alike s :=
  ⟨alike.links, alike.active, alike.pending, alike.placements, alike.modifierSwaps, alike.peers⟩

theorem send_alike (s : Shared) (machine : MachineId) (command : PeerCommand) :
    (s.send machine command).Alike s := by
  refine .of_queued fun m => ?_
  rw [HashMap.lookup_modify]
  split
  · exact (Option.map_map ..)
  · rfl

theorem forwardTo_alike (s : Shared) (peer : MachineId) (event : InputEvent) :
    (s.forwardTo peer event).Alike s := by
  refine .of_queued fun m => ?_
  rw [HashMap.lookup_modify]
  split
  · exact Option.map_map ..
  · rfl

theorem broadcast_alike (s : Shared) (command : PeerCommand) : (s.broadcast command).Alike s := by
  refine .of_queued fun m => ?_
  rw [HashMap.lookup_map]
  exact Option.map_map ..

theorem takeCommands_alike (s : Shared) (machine : MachineId) (count : Nat) :
    (s.takeCommands machine count).Alike s := by
  refine .of_queued fun m => ?_
  rw [HashMap.lookup_modify]
  split
  · exact Option.map_map ..
  · rfl

theorem handleCrossing_error {manager : SessionManager LogEvents}
    (refused : manager.handleCrossing crossing = (sessions, .error e)) : sessions = manager := by
  rw [SessionManager.handleCrossing] at refused
  split at refused
  · cases refused
  · split at refused <;> cases refused
    rfl

theorem advanceCursor_settles (moved : s.advanceCursor delta = some (t, crossed)) :
    t.changes = s.changes ∧ (crossed = false → t.Alike s) := by
  simp only [advanceCursor, Option.bind_eq_bind, Option.bind_eq_some_iff] at moved
  obtain ⟨scaled, _, result, _, moved⟩ := moved
  cases result with
  | error e =>
    cases moved
    exact ⟨rfl, fun _ => .of_cursor s _⟩
  | ok advance =>
    dsimp only at moved
    split at moved
    · cases moved
      exact ⟨rfl, fun _ => .of_cursor s _⟩
    · split at moved
      · rename_i sessions _ refused
        cases moved
        cases handleCrossing_error refused
        exact ⟨rfl, fun _ => .refl s⟩
      · cases moved
        refine ⟨?_, by rintro ⟨⟩⟩
        rw [placeCursorAfterCrossing]
        split <;> rfl

theorem routed_settles (settled : t.changes = s.changes ∧ (crossed = false → t.Alike s)) :
    s.Settles (if crossed then t.syncSuppression.notifyChange else t.syncSuppression) := by
  cases crossed with
  | false => exact .alike settled.1 (settled.2 rfl).syncSuppression
  | true => exact .bumped (congrArg (· + 1) settled.1)

theorem routeCaptured_settles (routed : s.routeCaptured event os = some t) : s.Settles t := by
  unfold routeCaptured at routed
  split at routed
  · obtain ⟨⟨moved, crossed⟩, advance, routed⟩ := Option.bind_eq_some_iff.mp routed
    cases routed
    obtain ⟨same, alike⟩ := advanceCursor_settles advance
    cases os with
    | none => exact routed_settles ⟨same, alike⟩
    | some at' => exact routed_settles ⟨same, fun stayed => (alike stayed).trans (.of_cursor s _)⟩
  · cases routed
    exact routed_settles ⟨rfl, fun _ => .refl s⟩
  · obtain ⟨⟨moved, crossed⟩, advance, routed⟩ := Option.bind_eq_some_iff.mp routed
    cases routed
    obtain ⟨same, alike⟩ := advanceCursor_settles advance
    cases crossed with
    | false => exact routed_settles ⟨same, fun _ => (forwardTo_alike moved _ _).trans (alike rfl)⟩
    | true => exact routed_settles ⟨same, fun wrong => nomatch wrong⟩
  · cases routed
    exact routed_settles ⟨rfl, fun _ => forwardTo_alike s _ _⟩

theorem yieldControlToPeer_settles (s : Shared) : s.Settles s.yieldControlToPeer := by
  rw [yieldControlToPeer_eq]
  split
  · rename_i active
    have same : s.state.sessions.setActive .here = s.state.sessions := if_neg (not_not.mpr active)
    rw [same]
    exact .alike rfl (.refl s)
  · exact .bumped rfl

theorem followPeerCursor_settles (s : Shared) (peer : MachineId) (x y : Int32) :
    s.Settles (s.followPeerCursor peer x y) := by
  rw [followPeerCursor, SessionManager.followPeer]
  split
  · exact .alike rfl (.refl s)
  · split
    · rename_i refused
      split at refused <;> cases refused
      exact .alike rfl (.refl s)
    · rename_i followed
      split at followed <;> cases followed
      dsimp only
      split
      · exact .bumped rfl
      · rename_i active
        have same : s.state.sessions.setActive (.remote peer) = s.state.sessions := if_neg active
        refine .alike rfl ?_
        rw [same]
        exact (Alike.of_cursor s _).syncSuppression

theorem Settles.warp (settles : s.Settles t) (x y : Int32) : s.Settles (t.warp x y) := by
  cases settles with
  | bumped bumped => exact .bumped bumped
  | alike same alike => exact .alike same (alike.warp x y)

theorem signalling_settles (s : Shared) (machine : MachineId) (session : SessionId) (message : ControlMessage) :
    s.Settles (s.signalling machine session message) :=
  signalling_keeps (.alike rfl (.refl s)) (fun x y => s.yieldControlToPeer_settles.warp x y)
    (s.followPeerCursor_settles machine) session message

theorem decidePending_settles (s : Shared) (selector : String) : s.Settles (s.decidePending selector).1 := by
  rw [decidePending]
  split
  · exact .bumped rfl
  · exact .alike rfl (.refl s)

theorem disconnect_settles (s : Shared) (host : String) (order : List MachineId) :
    s.Settles (s.disconnect host order).1 := by
  rw [disconnect]
  split
  · exact .alike rfl (s.send_alike _ _)
  · exact .alike rfl (.refl s)

theorem setLayout_settles (s : Shared) (host edge : String) (config : ConfigWrite) (order : List MachineId) :
    s.Settles (s.setLayout host edge config order).1 := by
  unfold setLayout
  split
  · exact .alike rfl (.refl s)
  · refine .bumped ?_
    dsimp only
    split <;> rfl

theorem setModifierSwap_settles (s : Shared) (host swap : String) (config : ConfigWrite) :
    s.Settles (s.setModifierSwap host swap config).1 := by
  unfold setModifierSwap
  split
  · exact .alike rfl (.refl s)
  · exact .bumped rfl

theorem cleanupPeer_changes (s : Shared) (machine : MachineId) (order : List MachineId) :
    (s.cleanupPeer machine order).changes = s.changes + 1 := by
  rw [cleanupPeer]
  split <;> rfl

theorem removePeer_cases (s : Shared) (selector : String) (order : List MachineId) (write : Write) :
    (s.removePeer selector order write).1.changes = s.changes ∧
      { (s.removePeer selector order write).1 with trust := s.trust }.Alike s ∧
      (s.removePeer selector order write).1.trust.peers = removeRecords s.trust.peers selector := by
  unfold removePeer
  split
  · exact ⟨rfl, s.send_alike _ _, TrustState.remove_peers ..⟩
  · exact ⟨rfl, .refl s, TrustState.remove_peers ..⟩

end Shared

namespace Daemon
variable {s t : Daemon}

theorem LooksLike.refl (s : Daemon) : s.LooksLike s := fun _ => rfl

theorem LooksLike.of_alike {shared : Shared} (alike : shared.Alike s.shared) : (s.withShared shared).LooksLike s :=
  status_congr alike rfl rfl rfl rfl

theorem LooksLike.peers (alike : t.LooksLike s) : t.shared.trust.peers = s.shared.trust.peers := by
  have same := alike ⟨[], [], []⟩
  rw [← peers_of_status ⟨[], [], []⟩, same, peers_of_status]

theorem announces_bumped (before : List Daemon)
    (bumped : t.shared.changes = (before.getLastD s).shared.changes + 1) :
    s.Announces (before ++ [t]) := by
  right
  refine ⟨t, ?_, by simp [LooksLike.refl]⟩
  induction before generalizing s with
  | nil =>
    rw [List.nil_append, bumps, if_neg]
    · exact .head _
    · rw [bumped]
      simp
  | cons first rest ih =>
    simp only [List.cons_append, bumps]
    rw [List.getLastD_cons] at bumped
    have later := ih bumped
    split
    · exact later
    · exact List.mem_cons_of_mem _ later

theorem announces_settles {shared : Shared} (settles : s.shared.Settles shared) :
    s.Announces [s.withShared shared] := by
  cases settles with
  | bumped bumped => exact announces_bumped [] bumped
  | alike _ alike => exact .inl (.of_alike alike)

theorem announces_unbumped (same : t.shared.changes = s.shared.changes) : s.Announces [t] ↔ t.LooksLike s := by
  simp [Announces, bumps, same]

theorem acceptPeer_looksLike (s : Daemon) (host : String) (fingerprint : Fingerprint) (write : Write) :
    (s.withShared (s.shared.acceptPeer host fingerprint write)).LooksLike s ↔
      ¬ s.shared.Renames host fingerprint := by
  have peers : (s.shared.acceptPeer host fingerprint write).trust.peers =
      acceptRecords s.shared.trust.peers (fingerprintHex fingerprint) (some host) := TrustState.accept_peers ..
  constructor
  · exact fun alike renames => renames (peers.symm.trans alike.peers)
  · exact fun same => .of_alike ⟨fun _ => rfl, rfl, rfl, rfl, rfl, peers.trans (not_not.mp same)⟩

theorem removePeer_looksLike (s : Daemon) (selector : String) (order : List MachineId) (write : Write) :
    (s.withShared (s.shared.removePeer selector order write).1).LooksLike s ↔
      ∀ record ∈ s.shared.trust.peers, record.selected selector ≠ true := by
  obtain ⟨_, alike, peers⟩ := s.shared.removePeer_cases selector order write
  have kept : removeRecords s.shared.trust.peers selector = s.shared.trust.peers ↔
      ∀ record ∈ s.shared.trust.peers, record.selected selector ≠ true := by
    simp [removeRecords, List.filter_eq_self]
  rw [← kept]
  constructor
  · exact fun same => peers.symm.trans same.peers
  · exact fun same => .of_alike ⟨alike.links, alike.active, alike.pending, alike.placements, alike.modifierSwaps,
      peers.trans same⟩

/-- Letting a peer in ends with a bump, where it is free to come in. -/
theorem letIn_cases (s : Daemon) (host : String) (fingerprint : Fingerprint) (admission : Admission) :
    (s.shared.Free fingerprint admission.session ∧ ∃ before t, s.letIn host fingerprint admission = before ++ [t] ∧
      t.shared.changes = (before.getLastD s).shared.changes + 1) ∨
    ¬ s.shared.Free fingerprint admission.session ∧ s.letIn host fingerprint admission = [s] := by
  rw [letIn]
  rcases s.shared.handleIncoming_cases host fingerprint admission.session admission.screen admission.order with
    ⟨free, linked, admitted, _, bumped⟩ | ⟨taken, e, refused⟩
  · refine .inl ⟨free, ?_⟩
    rw [admitted]
    dsimp only
    cases admission.undelivered with
    | none => exact ⟨[], _, rfl, bumped⟩
    | some order => exact ⟨[_], _, rfl, linked.cleanupPeer_changes _ order⟩
  · refine .inr ⟨taken, ?_⟩
    rw [refused]
    rfl

theorem incoming_announces (s : Daemon) (host : String) (fingerprint : Fingerprint) (decision : Nat)
    (admission : Admission) (ran : s.phases (.incoming host fingerprint decision admission) = some states) :
    s.Announces states := by
  cases ran
  split
  · rcases s.letIn_cases host fingerprint admission with ⟨_, before, t, admitted, bumped⟩ | ⟨_, refused⟩
    · rw [admitted]
      exact announces_bumped before bumped
    · rw [refused]
      exact .inl (.refl s)
  · exact announces_settles (.bumped rfl)

/-- The end of the wait is announced, but not the record of a peer that is not let in. -/
theorem decided_announces (s : Daemon) (host : String) (fingerprint : Fingerprint) (approved : Bool) (write : Write)
    (admission : Admission) (ran : s.phases (.decided host fingerprint approved write admission) = some states) :
    s.Announces states ↔ ¬ s.Silent (.decided host fingerprint approved write admission) := by
  cases approved with
  | false =>
    cases ran
    exact iff_of_true (announces_settles (.bumped rfl)) fun silent => Bool.false_ne_true silent.1
  | true =>
    cases ran
    let retained := s.withShared (s.shared.retainPending fingerprint)
    let accepted := retained.withShared (retained.shared.acceptPeer host fingerprint write)
    rcases accepted.letIn_cases host fingerprint admission with
      ⟨free, before, t, admitted, bumped⟩ | ⟨taken, refused⟩
    · refine iff_of_true ?_ fun silent => silent.2.2 free
      have last : s.Announces ((retained :: accepted :: before) ++ [t]) :=
        announces_bumped _ (by rwa [List.getLastD_cons, List.getLastD_cons])
      rwa [List.cons_append, List.cons_append, ← admitted] at last
    · have shown : accepted.LooksLike retained ↔ ¬ s.shared.Renames host fingerprint :=
        retained.acceptPeer_looksLike host fingerprint write
      have peers : accepted.shared.trust.peers =
          acceptRecords s.shared.trust.peers (fingerprintHex fingerprint) (some host) :=
        TrustState.accept_peers ..
      rw [refused]
      constructor
      · rintro (alike | ⟨u, found, alike⟩) ⟨_, renames, _⟩
        · exact renames (peers.symm.trans alike.peers)
        · have first : u = retained := by
            simpa [bumps, retained, accepted, withShared, Shared.retainPending, Shared.acceptPeer,
              Shared.notifyChange] using found
          subst first
          exact renames (peers.symm.trans alike.peers)
      · intro loud
        refine .inr ⟨retained, ?_, shown.mpr fun renames => loud ⟨rfl, renames, taken⟩⟩
        rw [bumps, if_neg]
        · exact .head _
        · simp [Shared.retainPending, Shared.notifyChange, withShared]

theorem connect_announces (s : Daemon) (host : String) (outside : Outside) :
    s.Announces [(s.connect outside).1] ↔ ¬ s.Silent (.request (.connect host) outside) := by
  simp only [connect, Silent]
  cases dialled : outside.dial with
  | error message => exact iff_of_true (.inl (.refl s)) (by simp)
  | ok accepted =>
    simp only [Except.ok.injEq, exists_eq_left']
    rcases s.shared.doConnect_cases accepted.host accepted.fingerprint accepted.session accepted.screen
      outside.write outside.order with ⟨⟨written, free⟩, linked, connected, _, bumped⟩ | ⟨failed, e, refused⟩
    · rw [connected]
      refine iff_of_true (announces_bumped [] bumped) ?_
      rintro ⟨_, unwritten | taken⟩
      · exact unwritten written
      · exact taken free
    · rw [refused]
      have unbumped := announces_unbumped (s := s)
        (t := s.withShared (s.shared.acceptPeer accepted.host accepted.fingerprint outside.write)) rfl
      rw [acceptPeer_looksLike] at unbumped
      exact unbumped.trans (not_congr ⟨fun renames => ⟨renames, failed⟩, And.left⟩)

theorem set_announces (s : Daemon) (config : ConfigWrite) (request : SettingsRequest) :
    s.Announces [(s.set config request).1] := by
  cases request with
  | layout host edge order =>
    have settles := s.shared.setLayout_settles host edge config order
    generalize placed : s.shared.setLayout host edge config order = result at settles
    rw [set, placed]
    exact announces_settles settles
  | modifiers host swap =>
    have settles := s.shared.setModifierSwap_settles host swap config
    generalize relabelled : s.shared.setModifierSwap host swap config = result at settles
    rw [set, relabelled]
    exact announces_settles settles
  | clipboard enabled => exact announces_bumped [] rfl

/-- A request is announced, but for a dial that fails late and a peer forgotten. -/
theorem request_announces (s : Daemon) (request : Request) (outside : Outside) :
    s.Announces [(s.dispatch outside request).1] ↔ ¬ s.Silent (.request request outside) := by
  cases request with
  | connect host => exact s.connect_announces host outside
  | removePeer selector =>
    obtain ⟨same, _⟩ := s.shared.removePeer_cases selector outside.order outside.write
    have unbumped := announces_unbumped (s := s)
      (t := s.withShared (s.shared.removePeer selector outside.order outside.write).1) same
    rw [removePeer_looksLike] at unbumped
    refine unbumped.trans ?_
    simp [Silent]
  | disconnect host => exact iff_of_true (announces_settles (s.shared.disconnect_settles host outside.order)) id
  | accept selector => exact iff_of_true (announces_settles (s.shared.decidePending_settles selector)) id
  | reject selector => exact iff_of_true (announces_settles (s.shared.decidePending_settles selector)) id
  | layout host edge =>
    refine iff_of_true ?_ id
    rcases host with _ | host <;> rcases edge with _ | edge
    · exact .inl (.refl s)
    · exact .inl (.refl s)
    · exact .inl (.refl s)
    · rw [dispatch, Prod.map_fst, id]
      exact s.set_announces outside.config (.layout host edge outside.order)
  | modifiers host swap =>
    refine iff_of_true ?_ id
    rcases host with _ | host <;> rcases swap with _ | swap
    · exact .inl (.refl s)
    · exact .inl (.refl s)
    · exact .inl (.refl s)
    · rw [dispatch, Prod.map_fst, id]
      exact s.set_announces outside.config (.modifiers host swap)
  | clipboard enabled => exact iff_of_true (s.set_announces outside.config (.clipboard enabled)) id
  | hello | subscribe | status | stop | peers => exact iff_of_true (.inl (.refl s)) id

end Daemon

/-- Exactly the silent operations leave a status behind that no subscriber is told of. -/
theorem changes_announced (s : Daemon) (op : DaemonOp) (ran : s.phases op = some states) :
    s.Announces states ↔ ¬ s.Silent op := by
  open Daemon in
  cases op with
  | captured event os =>
    obtain ⟨shared, routed, rfl⟩ := Option.map_eq_some_iff.mp ran
    exact iff_of_true (announces_settles (Shared.routeCaptured_settles routed)) id
  | captureStopped =>
    cases ran
    refine (announces_unbumped (by rfl)).trans ⟨fun alike capturing => ?_, fun stopped passes => ?_⟩
    · have shown := congrArg StatusInfo.capturing (alike ⟨[], [], []⟩)
      exact absurd (shown.trans capturing) Bool.false_ne_true
    · have still : s.capturing = false := Bool.eq_false_iff.mpr stopped
      have same : { s with capturing := false } = s := by rw [← still]
      exact congrArg (status · passes) same
  | signalled machine session message =>
    cases ran
    exact iff_of_true (announces_settles (s.shared.signalling_settles machine session message)) id
  | incoming host fingerprint decision admission =>
    exact iff_of_true (s.incoming_announces host fingerprint decision admission ran) id
  | decided host fingerprint approved write admission =>
    exact s.decided_announces host fingerprint approved write admission ran
  | cleanup machine order =>
    cases ran
    exact iff_of_true (announces_bumped [] (s.shared.cleanupPeer_changes machine order)) id
  | taken machine count =>
    cases ran
    exact iff_of_true (announces_settles (.alike rfl (s.shared.takeCommands_alike machine count))) id
  | copied data =>
    cases ran
    exact iff_of_true (announces_settles (.alike rfl (s.shared.broadcast_alike _))) id
  | request request outside =>
    cases ran
    exact s.request_announces request outside

/-- What the outside says when nothing goes wrong. -/
def Outside.quiet : Outside := ⟨⟨[], [], []⟩, [], .done, .saved, .error "no address"⟩

theorem changes_announced_switched : ∃ states,
    Daemon.fresh.phases (.request (.clipboard true) .quiet) = some states ∧ Daemon.fresh.Announces states :=
  ⟨_, rfl, (changes_announced .fresh (.request (.clipboard true) .quiet) rfl).mpr id⟩

def Daemon.acquainted : Daemon :=
  Daemon.fresh.withShared { Daemon.fresh.shared with trust := ⟨.missing, [⟨some "laptop", "ab"⟩]⟩ }

/-- The peer is forgotten, and whoever watches goes on seeing it. -/
theorem peer_still_shown : ¬ ∀ (s : Daemon) (op : DaemonOp) (states : List Daemon),
    s.phases op = some states → s.Announces states := by
  intro announces
  have told := announces .acquainted (.request (.removePeer "laptop") .quiet) _ rfl
  refine (Daemon.acquainted.request_announces (.removePeer "laptop") .quiet).mp told ?_
  exact ⟨⟨some "laptop", "ab"⟩, .head _, by simp [PeerRecord.selected]⟩

end Omnipresent
