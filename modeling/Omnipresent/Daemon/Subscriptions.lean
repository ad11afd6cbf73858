import Omnipresent.Daemon.Changes
import Omnipresent.Watch

/-! Subscriptions to the status, beside everything else the daemon's tasks do: each task
lets the others in between two of its locks and before it bumps the counter, a
subscription between any two of its reads. -/
namespace Omnipresent

structure Gathered where
  sessions : List SessionInfo
  pending : List PendingInfo
  placements : List LayoutInfo
  modifierSwaps : List ModifierInfo
  connected : List String
deriving DecidableEq, Repr

def Shared.gather (self : Shared) (passes : Passes) : Gathered where
  sessions := self.listSessions passes
  pending := self.state.pending.map fun p => ⟨p.host, p.fingerprint.display⟩
  placements := self.listLayout passes
  modifierSwaps := self.listModifierSwaps passes
  connected := (self.liveLinks passes).map fun link => link.fingerprint.display

/-- The trust store is read outside the state lock. -/
def Gathered.listPeers (self : Gathered) (records : List PeerRecord) : List PeerInfo :=
  records.map fun record => ⟨record.host, record.fingerprint, self.connected.contains record.fingerprint⟩

/-- The snapshot, once everything but the clipboard switch is read. -/
def Gathered.status (self : Gathered) (daemon : Daemon) (peers : List PeerInfo) (capturing : Bool) :
    StatusInfo where
  fingerprint := daemon.localFingerprint.display
  port := daemon.port
  capturing := capturing
  clipboardSharing := daemon.clipboard.isEnabled
  sessions := self.sessions
  pending := self.pending
  peers := peers
  placements := self.placements
  modifierSwaps := self.modifierSwaps

/-- What a task of the daemon does next under one lock. -/
inductive Section where
  | begin (op : DaemonOp)
  /-- The user approved the peer. -/
  | accept (host : String) (fingerprint : Fingerprint) (write : Write) (admission : Admission)
  | establish (host : String) (fingerprint : Fingerprint) (admission : Admission)
  | cleanup (machine : MachineId) (order : List MachineId)
  /-- The peer accepted the dial. -/
  | pin (accepted : Accepted) (write : Write) (order : List MachineId)
  | control (accepted : Accepted) (order : List MachineId)
  /-- Its session dropped, the peer's record goes too. -/
  | forget (selector : String) (write : Write)

namespace Daemon

/-- One section, and the next one of the same task; `none` is a panic. -/
def enter (self : Daemon) : Section → Option (Daemon × Option Section)
  | .begin (.captured event os) =>
    (self.shared.routeCaptured event os).map fun shared => (self.withShared shared, none)
  | .begin .captureStopped => some ({ self with capturing := false }, none)
  | .begin (.signalled machine session message) =>
    some (self.withShared (self.shared.signalling machine session message), none)
  | .begin (.incoming host fingerprint decision admission) =>
    some (if self.shared.trust.isTrusted fingerprint then (self, some (.establish host fingerprint admission))
      else (self.withShared (self.shared.askUser host fingerprint decision), none))
  | .begin (.decided host fingerprint approved write admission) =>
    some (self.withShared (self.shared.retainPending fingerprint),
      if approved then some (.accept host fingerprint write admission) else none)
  | .begin (.cleanup machine order) | .cleanup machine order =>
    some (self.withShared (self.shared.cleanupPeer machine order), none)
  | .begin (.taken machine count) => some (self.withShared (self.shared.takeCommands machine count), none)
  | .begin (.copied data) => some (self.withShared (self.shared.broadcast (.clipboard data)), none)
  | .begin (.request (.connect _) outside) => match outside.dial with
    | .error _ => some (self, none)
    | .ok accepted => some (self, some (.pin accepted outside.write outside.order))
  | .begin (.request (.removePeer selector) outside) =>
    some (self.withShared (self.shared.disconnect selector outside.order).1, some (.forget selector outside.write))
  | .begin (.request request outside) => some ((self.dispatch outside request).1, none)
  | .accept host fingerprint write admission =>
    -- Trust is kept in memory even where saving it fails.
    some (self.withShared (self.shared.acceptPeer host fingerprint write),
      some (.establish host fingerprint admission))
  | .establish host fingerprint admission =>
    match self.shared.handleIncoming host fingerprint admission.session admission.screen admission.order with
    | (refused, .error _) => some (self.withShared refused, none)
    | (linked, .ok ()) => some (self.withShared linked,
        admission.undelivered.map (.cleanup (machineIdOf fingerprint)))
  | .pin accepted write order =>
    some (self.withShared (self.shared.acceptPeer accepted.host accepted.fingerprint write),
      if write = .done then some (.control accepted order) else none)
  | .control accepted order =>
    match self.shared.establishLink accepted.host accepted.fingerprint accepted.session .controller
      ⟨accepted.screen.width, accepted.screen.height⟩ .right order with
    | (refused, .error _) => some (self.withShared refused, none)
    | (linked, .ok ()) => some (self.withShared linked.notifyChange, none)
  | .forget selector write =>
    some (self.withShared { self.shared with trust := (self.shared.trust.remove write selector).1 }, none)

instance (s : Shared) (host : String) (fingerprint : Fingerprint) : Decidable (s.Renames host fingerprint) :=
  inferInstanceAs (Decidable (_ ≠ _))

/-- What shows of a section although it bumps no counter. -/
def Hides (self : Daemon) : Section → Bool
  | .begin .captureStopped => self.capturing
  | .accept host fingerprint _ _ => decide (self.shared.Renames host fingerprint)
  | .pin accepted _ _ => decide (self.shared.Renames accepted.host accepted.fingerprint)
  | .forget selector _ => self.shared.trust.peers.any (·.selected selector)
  | _ => false

/-- The sections a task ends with although something shows that it told nobody of: the
capture thread at its end, a record changed for a session that cannot be established, and
a record forgotten. -/
def Silences (self : Daemon) (unannounced : Bool) : Section → Prop
  | .begin .captureStopped => self.capturing = true
  | .establish _ fingerprint admission => unannounced = true ∧ ¬ self.shared.Free fingerprint admission.session
  | .pin accepted write _ => write ≠ .done ∧ self.shared.Renames accepted.host accepted.fingerprint
  | .control accepted _ => unannounced = true ∧ ¬ self.shared.Free accepted.fingerprint accepted.session
  | .forget selector _ => ∃ record ∈ self.shared.trust.peers, record.selected selector = true
  | _ => False

instance (self : Daemon) (unannounced : Bool) (next : Section) : Decidable (self.Silences unannounced next) := by
  cases next with
  | «begin» op =>
    cases op with
    | captureStopped => exact inferInstanceAs (Decidable (_ = _))
    | _ => exact inferInstanceAs (Decidable False)
  | establish => exact inferInstanceAs (Decidable (_ ∧ ¬ (_ ∧ _)))
  | pin => exact inferInstanceAs (Decidable (¬ _ ∧ _))
  | control => exact inferInstanceAs (Decidable (_ ∧ ¬ (_ ∧ _)))
  | «forget» => exact inferInstanceAs (Decidable (∃ _ ∈ _, _))
  | _ => exact inferInstanceAs (Decidable False)

end Daemon

structure Task where
  next : Option Section
  /-- The lock is let go of, the counter is still to be bumped. -/
  notifying : Bool
  /-- Not in the program: whether what it changed since its last bump shows. -/
  unannounced : Bool

/-- The counter is bumped before the task goes on. -/
def Task.ready (self : Task) : Option Section := if self.notifying then none else self.next

inductive Progress where
  /-- It watches the counter. -/
  | subscribed
  /-- It watches the shutdown too, and is to look whether that has begun already. -/
  | armed
  | reading
  | gathered (gathered : Gathered)
  | listed (gathered : Gathered) (peers : List PeerInfo)
  | loaded (gathered : Gathered) (peers : List PeerInfo) (capturing : Bool)
  | writing (info : StatusInfo)
  | waiting
  | ended
deriving DecidableEq, Repr

structure Subscription where
  /-- The version of the counter it has marked. -/
  seen : Nat
  /-- The version of the shutdown signal it has marked. -/
  shutdownSeen : Nat
  progress : Progress
  /-- The statuses written to the client, oldest first. -/
  sent : List StatusInfo

structure Announcing where
  daemon : Daemon
  /-- How often the counter was bumped. -/
  version : Nat
  shuttingDown : Bool
  shutdownVersion : Nat
  tasks : List Task
  subscriptions : List Subscription

inductive Subscription.Action where
  | arm
  | check
  | gather (passes : Passes)
  | listPeers
  | loadCapturing
  | loadClipboard
  | written
  | changed
  | shutdown
  /-- Stray input is ignored. -/
  | line
  /-- The client is gone. -/
  | hangUp

/-- `stream_events`, one step. -/
def Subscription.step (self : Subscription) (board : Announcing) (action : Action) : Option Subscription :=
  match self.progress, action with
  | .subscribed, .arm => some { self with shutdownSeen := board.shutdownVersion, progress := .armed }
  | .armed, .check => some { self with progress := if board.shuttingDown then .ended else .reading }
  | .reading, .gather passes =>
    if board.daemon.shared.CoveredBy passes then
      some { self with progress := .gathered (board.daemon.shared.gather passes) }
    else none
  | .gathered gathered, .listPeers =>
    some { self with progress := .listed gathered (gathered.listPeers board.daemon.shared.trust.peers) }
  | .listed gathered peers, .loadCapturing =>
    some { self with progress := .loaded gathered peers board.daemon.capturing }
  | .loaded gathered peers capturing, .loadClipboard =>
    some { self with progress := .writing (gathered.status board.daemon peers capturing) }
  | .writing info, .written => some { self with progress := .waiting, sent := self.sent ++ [info] }
  | .writing _, .hangUp => some { self with progress := .ended }
  | .waiting, .changed =>
    if self.seen = board.version then none else some { self with seen := board.version, progress := .reading }
  | .waiting, .shutdown =>
    if self.shutdownSeen = board.shutdownVersion then none else some { self with progress := .ended }
  | .waiting, .line => some self
  | .waiting, .hangUp => some { self with progress := .ended }
  | _, _ => none

namespace Announcing

inductive Label where
  | spawn (op : DaemonOp)
  | enter (task : Nat)
  | notify (task : Nat)
  | subscribe
  | act (subscription : Nat) (action : Subscription.Action)
  | shutDown

def start (daemon : Daemon) : Announcing := ⟨daemon, 0, false, 0, [], []⟩

def step (self : Announcing) : Label → Option Announcing
  | .spawn op => some { self with tasks := self.tasks ++ [⟨some (.begin op), false, false⟩] }
  | .enter i => do
    let task ← self.tasks[i]?
    let next ← task.ready
    let (daemon, rest) ← self.daemon.enter next
    let task : Task :=
      { next := rest
        notifying := daemon.shared.changes != self.daemon.shared.changes
        unannounced := task.unannounced || self.daemon.Hides next }
    return { self with daemon, tasks := self.tasks.set i task }
  | .notify i => do
    let task ← self.tasks[i]?
    if task.notifying then
      some { self with
        version := self.version + 1
        tasks := self.tasks.set i { task with notifying := false, unannounced := false } }
    else none
  | .subscribe =>
    some { self with subscriptions := self.subscriptions ++ [⟨self.version, 0, .subscribed, []⟩] }
  | .act i action => do
    let subscription ← self.subscriptions[i]?
    let subscription ← subscription.step self action
    return { self with subscriptions := self.subscriptions.set i subscription }
  | .shutDown => some { self with shuttingDown := true, shutdownVersion := self.shutdownVersion + 1 }

def Step (s : Announcing) (label : Label) (t : Announcing) : Prop := s.step label = some t

def Quiet (s : Announcing) : Prop := ∀ task ∈ s.tasks, task.next = none ∧ task.notifying = false

/-- No task ends with something untold. -/
def Loud (s : Announcing) : Label → Prop
  | .enter i => ∀ task ∈ s.tasks[i]?, ∀ next ∈ task.next, ¬ s.daemon.Silences task.unannounced next
  | _ => True

instance (s : Announcing) (label : Label) : Decidable (s.Loud label) := by
  cases label with
  | enter i => exact inferInstanceAs (Decidable (∀ _ ∈ _, ∀ _ ∈ _, ¬ _))
  | _ => exact inferInstanceAs (Decidable True)

/-- A step, unless a task would end with something untold. -/
def execute (s : Announcing) (label : Label) : Option Announcing := if s.Loud label then s.step label else none

end Announcing

namespace Daemon
variable {s t : Daemon}

structure Alike (s t : Daemon) : Prop where
  shared : s.shared.Alike t.shared
  localFingerprint : s.localFingerprint = t.localFingerprint
  port : s.port = t.port
  capturing : s.capturing = t.capturing
  enabled : s.clipboard.enabled = t.clipboard.enabled

def Settles (s t : Daemon) : Prop := t.shared.changes ≠ s.shared.changes ∨ t.Alike s

theorem Alike.refl (s : Daemon) : s.Alike s := ⟨.refl _, rfl, rfl, rfl, rfl⟩

theorem Settles.refl (s : Daemon) : s.Settles s := .inr (.refl s)

theorem Settles.of_alike {shared : Shared} (alike : shared.Alike s.shared) : s.Settles (s.withShared shared) :=
  .inr ⟨alike, rfl, rfl, rfl, rfl⟩

theorem Settles.of_bumped (bumped : t.shared.changes = s.shared.changes + 1) : s.Settles t := by
  refine .inl fun same => ?_
  rw [bumped] at same
  simp at same

theorem Settles.of_shared {shared : Shared} (settles : s.shared.Settles shared) :
    s.Settles (s.withShared shared) := by
  cases settles with
  | bumped bumped => exact .of_bumped bumped
  | alike _ alike => exact .of_alike alike

theorem dispatch_settles (s : Daemon) (outside : Outside) (request : Request)
    (dial : ∀ host, request ≠ .connect host) (forget : ∀ selector, request ≠ .removePeer selector) :
    s.Settles (s.dispatch outside request).1 := by
  cases request with
  | connect host => exact absurd rfl (dial host)
  | removePeer selector => exact absurd rfl (forget selector)
  | disconnect host => exact .of_shared (s.shared.disconnect_settles host outside.order)
  | accept selector => exact .of_shared (s.shared.decidePending_settles selector)
  | reject selector => exact .of_shared (s.shared.decidePending_settles selector)
  | layout host edge =>
    rcases host with _ | host <;> rcases edge with _ | edge
    · exact .refl s
    · exact .refl s
    · exact .refl s
    · have settles := s.shared.setLayout_settles host edge outside.config outside.order
      generalize placed : s.shared.setLayout host edge outside.config outside.order = result at settles
      rw [dispatch, Prod.map_fst, set, placed]
      exact .of_shared settles
  | modifiers host swap =>
    rcases host with _ | host <;> rcases swap with _ | swap
    · exact .refl s
    · exact .refl s
    · exact .refl s
    · have settles := s.shared.setModifierSwap_settles host swap outside.config
      generalize relabelled : s.shared.setModifierSwap host swap outside.config = result at settles
      rw [dispatch, Prod.map_fst, set, relabelled]
      exact .of_shared settles
  | clipboard enabled => exact .of_bumped rfl
  | hello | subscribe | status | stop | peers => exact .refl s

/-- A section hides what it changes, or bumps the counter, or changes nothing that shows. -/
theorem enter_settles (entered : s.enter next = some (t, rest)) : s.Hides next = true ∨ s.Settles t := by
  rw [or_iff_not_imp_left, Bool.not_eq_true]
  intro shown
  have recorded (host fingerprint write) (same : ¬ s.shared.Renames host fingerprint) :
      s.Settles (s.withShared (s.shared.acceptPeer host fingerprint write)) := by
    refine .of_alike ⟨fun _ => rfl, rfl, rfl, rfl, rfl, ?_⟩
    exact (TrustState.accept_peers ..).trans (not_not.mp same)
  cases next with
  | «begin» op =>
    cases op with
    | captured event os =>
      obtain ⟨shared, routed, moved⟩ := Option.map_eq_some_iff.mp entered
      cases moved
      exact .of_shared (Shared.routeCaptured_settles routed)
    | captureStopped =>
      cases entered
      have still : s.capturing = false := shown
      exact .inr ⟨.refl _, rfl, rfl, still.symm, rfl⟩
    | signalled machine session message =>
      cases entered
      exact .of_shared (s.shared.signalling_settles machine session message)
    | incoming host fingerprint decision admission =>
      simp only [enter, Option.some.injEq] at entered
      split at entered <;> cases entered
      · exact .refl s
      · exact .of_bumped rfl
    | decided host fingerprint approved write admission =>
      cases entered
      exact .of_bumped rfl
    | cleanup machine order =>
      cases entered
      exact .of_bumped (s.shared.cleanupPeer_changes machine order)
    | taken machine count =>
      cases entered
      exact .of_alike (s.shared.takeCommands_alike machine count)
    | copied data =>
      cases entered
      exact .of_alike (s.shared.broadcast_alike _)
    | request request outside =>
      cases request with
      | connect host =>
        simp only [enter] at entered
        split at entered <;> cases entered <;> exact .refl s
      | removePeer selector =>
        cases entered
        exact .of_shared (s.shared.disconnect_settles selector outside.order)
      | _ =>
        cases entered
        exact s.dispatch_settles outside _ nofun nofun
  | accept host fingerprint write admission =>
    cases entered
    exact recorded host fingerprint write (of_decide_eq_false shown)
  | establish host fingerprint admission =>
    rcases s.shared.handleIncoming_cases host fingerprint admission.session admission.screen admission.order with
      ⟨_, linked, admitted, _, bumped⟩ | ⟨_, e, refused⟩
    · simp only [enter, admitted] at entered
      cases entered
      exact .of_bumped bumped
    · simp only [enter, refused] at entered
      cases entered
      exact .refl s
  | cleanup machine order =>
    cases entered
    exact .of_bumped (s.shared.cleanupPeer_changes machine order)
  | pin accepted write order =>
    cases entered
    exact recorded accepted.host accepted.fingerprint write (of_decide_eq_false shown)
  | control accepted order =>
    rcases s.shared.establishLink_cases accepted.host accepted.fingerprint accepted.session .controller
      ⟨accepted.screen.width, accepted.screen.height⟩ .right order with
      ⟨_, linked, established, _, same⟩ | ⟨_, e, refused⟩
    · simp only [enter, established] at entered
      cases entered
      exact .of_bumped (congrArg (· + 1) same)
    · simp only [enter, refused] at entered
      cases entered
      exact .refl s
  | forget selector write =>
    cases entered
    have none : ∀ record ∈ s.shared.trust.peers, ¬ record.selected selector = true := List.any_eq_false.mp shown
    refine .of_alike ⟨fun _ => rfl, rfl, rfl, rfl, rfl, ?_⟩
    rw [TrustState.remove_peers]
    simpa [removeRecords, List.filter_eq_self] using none

end Daemon

/-- The sections that announce a record made before. -/
def Section.carries : Section → Bool
  | establish .. | control .. => true
  | _ => false

namespace Daemon
variable {s t : Daemon}

/-- What is hidden is either carried on to the next section, or bumped. -/
theorem enter_carries (entered : s.enter next = some (t, rest)) (loud : ¬ s.Silences unannounced next)
    (carried : unannounced = true → next.carries = true) :
    t.shared.changes ≠ s.shared.changes ∨
      ((unannounced || s.Hides next) = true → ∃ later, rest = some later ∧ later.carries = true) := by
  have untold (plain : next.carries = false) (shown : s.Hides next = false) :
      (unannounced || s.Hides next) = true → ∃ later, rest = some later ∧ later.carries = true := by
    rw [shown, Bool.or_false]
    intro owed
    rw [carried owed] at plain
    cases plain
  cases next with
  | «begin» op =>
    refine .inr (untold rfl ?_)
    cases op with
    | captureStopped => exact Bool.eq_false_iff.mpr loud
    | _ => rfl
  | accept host fingerprint write admission =>
    cases entered
    exact .inr fun _ => ⟨_, rfl, rfl⟩
  | establish host fingerprint admission =>
    rcases s.shared.handleIncoming_cases host fingerprint admission.session admission.screen admission.order with
      ⟨_, linked, admitted, _, bumped⟩ | ⟨taken, _⟩
    · simp only [enter, admitted] at entered
      cases entered
      refine .inl fun same => ?_
      rw [withShared, bumped] at same
      simp at same
    · refine .inr fun owed => absurd ⟨?_, taken⟩ loud
      simpa [Hides] using owed
  | cleanup machine order => exact .inr (untold rfl rfl)
  | pin accepted write order =>
    cases entered
    by_cases written : write = .done
    · exact .inr fun _ => ⟨_, if_pos written, rfl⟩
    · exact .inr (untold rfl (decide_eq_false fun renames => loud ⟨written, renames⟩))
  | control accepted order =>
    rcases s.shared.establishLink_cases accepted.host accepted.fingerprint accepted.session .controller
      ⟨accepted.screen.width, accepted.screen.height⟩ .right order with
      ⟨_, linked, established, _, same⟩ | ⟨taken, _⟩
    · simp only [enter, established] at entered
      cases entered
      refine .inl fun unbumped => ?_
      rw [withShared, Shared.notifyChange, same] at unbumped
      simp at unbumped
    · refine .inr fun owed => absurd ⟨?_, taken⟩ loud
      simpa [Hides] using owed
  | forget selector write =>
    refine .inr (untold rfl (List.any_eq_false.mpr fun record member selected => ?_))
    exact loud ⟨record, member, selected⟩

theorem Alike.gather (alike : s.Alike t) (passes : Passes) : s.shared.gather passes = t.shared.gather passes := by
  have connected := alike.shared.liveLinks passes (fun link => link.fingerprint.display) fun _ => rfl
  simp only [Shared.gather, alike.shared.listSessions, alike.shared.pending, alike.shared.listLayout,
    alike.shared.listModifierSwaps, connected]

end Daemon

/-- What a subscription has read so far, and at last what it has written, is what it would
read now. -/
def Subscription.Fresh (daemon : Daemon) (self : Subscription) : Prop :=
  match self.progress with
  | .gathered gathered => ∃ passes, daemon.shared.CoveredBy passes ∧ gathered = daemon.shared.gather passes
  | .listed gathered peers => ∃ passes, daemon.shared.CoveredBy passes ∧ gathered = daemon.shared.gather passes ∧
      peers = gathered.listPeers daemon.shared.trust.peers
  | .loaded gathered peers capturing => ∃ passes, daemon.shared.CoveredBy passes ∧
      gathered = daemon.shared.gather passes ∧ peers = gathered.listPeers daemon.shared.trust.peers ∧
        capturing = daemon.capturing
  | .writing info => ∃ passes, daemon.shared.CoveredBy passes ∧ info = daemon.status passes
  | .waiting => ∃ passes, daemon.shared.CoveredBy passes ∧ self.sent.getLast? = some (daemon.status passes)
  | .subscribed | .armed | .reading | .ended => True

namespace Subscription
variable {s t : Daemon} {sub next : Subscription} {board : Announcing}

theorem Fresh.alike (fresh : sub.Fresh s) (alike : t.Alike s) : sub.Fresh t := by
  have peers : t.shared.trust.peers = s.shared.trust.peers := alike.shared.peers
  have status (passes) : t.status passes = s.status passes :=
    Daemon.status_congr alike.shared alike.localFingerprint alike.port alike.capturing alike.enabled passes
  have same : sub.Fresh t = sub.Fresh s := by
    simp only [Fresh, alike.gather, alike.shared.coveredBy, peers, alike.capturing, status]
  rwa [same]

theorem step_fresh (stepped : sub.step board action = some next) (fresh : sub.Fresh board.daemon) :
    next.Fresh board.daemon := by
  unfold step at stepped
  unfold Fresh at fresh
  split at stepped
  · cases stepped
    trivial
  · cases stepped
    cases board.shuttingDown <;> trivial
  · split at stepped <;> cases stepped
    exact ⟨_, ‹_›, rfl⟩
  · cases stepped
    simp only [*] at fresh
    obtain ⟨passes, covered, same⟩ := fresh
    exact ⟨passes, covered, same, rfl⟩
  · cases stepped
    simp only [*] at fresh
    obtain ⟨passes, covered, same, peers⟩ := fresh
    exact ⟨passes, covered, same, peers, rfl⟩
  · cases stepped
    simp only [*] at fresh
    obtain ⟨passes, covered, rfl, rfl, rfl⟩ := fresh
    exact ⟨passes, covered, rfl⟩
  · cases stepped
    simp only [*] at fresh
    obtain ⟨passes, covered, rfl⟩ := fresh
    exact ⟨passes, covered, List.getLast?_concat⟩
  · cases stepped
    trivial
  · split at stepped <;> cases stepped
    trivial
  · split at stepped <;> cases stepped
    trivial
  · cases stepped
    simpa only [Fresh, *] using fresh
  · cases stepped
    trivial
  · cases stepped

/-- Only to look again it marks the counter. -/
theorem step_seen (stepped : sub.step board action = some next) :
    next.seen = sub.seen ∨ next.seen = board.version ∧ next.progress = .reading := by
  unfold step at stepped
  split at stepped
  case h_3 =>
    split at stepped <;> cases stepped
    exact .inl rfl
  case h_9 =>
    split at stepped <;> cases stepped
    exact .inr ⟨rfl, rfl⟩
  case h_10 =>
    split at stepped <;> cases stepped
    exact .inl rfl
  case h_13 => cases stepped
  all_goals
    cases stepped
    exact .inl rfl

end Subscription

theorem mem_set_or {l : List α} (found : l[i]? = some a) (b : α) (member : x ∈ l) : x = a ∨ x ∈ l.set i b := by
  obtain ⟨j, at'⟩ := List.mem_iff_getElem?.mp member
  by_cases same : i = j
  · subst same
    exact .inl (Option.some.inj (at'.symm.trans found))
  · exact .inr (List.mem_iff_getElem?.mpr ⟨j, (List.getElem?_set_ne same).trans at'⟩)

theorem mem_set_self {l : List α} (found : l[i]? = some a) (b : α) : b ∈ l.set i b :=
  List.mem_set (List.getElem?_eq_some_iff.mp found).1 b

namespace Announcing
open Transition
variable {s t : Announcing}

/-- Some task has a bump to make for what it changed. -/
def Owed (s : Announcing) : Prop := ∃ task ∈ s.tasks, task.notifying = true ∨ task.unannounced = true

/-- What is not announced yet is going to be, and every subscription is right or is going
to look again. -/
structure Sound (s : Announcing) : Prop where
  carried : ∀ task ∈ s.tasks, task.unannounced = true →
    task.notifying = true ∨ ∃ later, task.next = some later ∧ later.carries = true
  marked : ∀ sub ∈ s.subscriptions, sub.seen ≤ s.version
  current : ∀ sub ∈ s.subscriptions,
    Watch.Current Subscription.Fresh s.Owed s.daemon s.version sub.seen sub

theorem start_sound (daemon : Daemon) : (start daemon).Sound where
  carried _ member := absurd member List.not_mem_nil
  marked _ member := absurd member List.not_mem_nil
  current _ member := absurd member List.not_mem_nil

theorem enter_inv (stepped : s.step (.enter i) = some t) : ∃ task next daemon rest,
    s.tasks[i]? = some task ∧ task.notifying = false ∧ task.next = some next ∧
      s.daemon.enter next = some (daemon, rest) ∧
      t = { s with
        daemon
        tasks := s.tasks.set i
          ⟨rest, daemon.shared.changes != s.daemon.shared.changes, task.unannounced || s.daemon.Hides next⟩ } := by
  simp only [step, Option.bind_eq_bind, Option.bind_eq_some_iff, Option.pure_def] at stepped
  obtain ⟨task, found, next, following, ⟨daemon, rest⟩, entered, result⟩ := stepped
  rw [Task.ready] at following
  split at following
  · cases following
  · exact ⟨task, next, daemon, rest, found, Bool.eq_false_iff.mpr ‹_›, following, entered,
      (Option.some.inj result).symm⟩

theorem Sound.enter (sound : s.Sound) (loud : s.Loud (.enter i)) (stepped : s.step (.enter i) = some t) :
    t.Sound := by
  obtain ⟨task, next, daemon, rest, found, silent, following, entered, rfl⟩ := enter_inv stepped
  have carries : task.unannounced = true → next.carries = true := fun owing => by
    rcases sound.carried task (List.mem_of_getElem? found) owing with notifying | ⟨later, same, carries⟩
    · rw [silent] at notifying
      cases notifying
    · cases following.symm.trans same
      exact carries
  have new := mem_set_self found
    ⟨rest, daemon.shared.changes != s.daemon.shared.changes, task.unannounced || s.daemon.Hides next⟩
  refine ⟨fun other member owing => ?_, sound.marked, fun sub member => ?_⟩
  · rcases List.mem_or_eq_of_mem_set member with kept | rfl
    · exact sound.carried other kept owing
    · refine (s.daemon.enter_carries entered (loud task found next following) carries).imp ?_ fun later => later owing
      exact bne_iff_ne.mpr
  · refine (sound.current sub member).change ?_ ?_
    · rcases s.daemon.enter_settles entered with hides | bumped | alike
      · exact .inr ⟨_, new, .inr (Bool.or_eq_true _ _ ▸ .inr hides)⟩
      · exact .inr ⟨_, new, .inl (bne_iff_ne.mpr bumped)⟩
      · exact .inl fun fresh => fresh.alike alike
    · rintro ⟨other, member, owes⟩
      rcases mem_set_or found _ member with rfl | kept
      · refine ⟨_, new, .inr ?_⟩
        rw [silent] at owes
        rw [owes.resolve_left Bool.false_ne_true, Bool.true_or]
      · exact ⟨other, kept, owes⟩

theorem notify_inv (stepped : s.step (.notify i) = some t) : ∃ task : Task,
    t = { s with
      version := s.version + 1
      tasks := s.tasks.set i { task with notifying := false, unannounced := false } } := by
  simp only [step, Option.bind_eq_bind, Option.bind_eq_some_iff] at stepped
  obtain ⟨task, _, stepped⟩ := stepped
  split at stepped <;> cases stepped
  exact ⟨task, rfl⟩

theorem Sound.notify (sound : s.Sound) (stepped : s.step (.notify i) = some t) : t.Sound := by
  obtain ⟨task, rfl⟩ := notify_inv stepped
  refine ⟨fun other member owing => ?_, fun sub member => (sound.marked sub member).trans (Nat.le_succ _),
    fun sub member => .bump (sound.marked sub member)⟩
  rcases List.mem_or_eq_of_mem_set member with kept | rfl
  · exact sound.carried other kept owing
  · cases owing

/-- An act of one subscription leaves everything else as it was. -/
theorem act_inv (stepped : s.step (.act i action) = some t) : ∃ sub next, s.subscriptions[i]? = some sub ∧
    sub.step s action = some next ∧ t = { s with subscriptions := s.subscriptions.set i next } := by
  simp only [step, Option.bind_eq_bind, Option.bind_eq_some_iff, Option.pure_def] at stepped
  obtain ⟨sub, found, next, stepped, result⟩ := stepped
  exact ⟨sub, next, found, stepped, (Option.some.inj result).symm⟩

theorem Sound.act (sound : s.Sound) (stepped : s.step (.act i action) = some t) : t.Sound := by
  obtain ⟨sub, next, found, moved, rfl⟩ := act_inv stepped
  have member := List.mem_of_getElem? found
  refine ⟨sound.carried, fun other changed => ?_, fun other changed => ?_⟩
  · rcases List.mem_or_eq_of_mem_set changed with kept | rfl
    · exact sound.marked other kept
    · rcases Subscription.step_seen moved with same | ⟨marked, _⟩
      · exact same ▸ sound.marked sub member
      · exact marked.le
  · rcases List.mem_or_eq_of_mem_set changed with kept | rfl
    · exact sound.current other kept
    · rcases Subscription.step_seen moved with same | ⟨_, reading⟩
      · rw [same]
        exact (sound.current sub member).read (Subscription.step_fresh moved)
      · left
        rw [Subscription.Fresh, reading]
        trivial

theorem Sound.step (sound : s.Sound) (loud : s.Loud label) (stepped : s.step label = some t) : t.Sound := by
  cases label with
  | spawn op =>
    cases stepped
    refine ⟨fun task member => ?_, sound.marked, fun sub member => ?_⟩
    · rcases List.mem_append.mp member with kept | new
      · exact sound.carried task kept
      · rw [List.mem_singleton.mp new]
        nofun
    · refine (sound.current sub member).change (.inl id) ?_
      rintro ⟨task, kept, owes⟩
      exact ⟨task, List.mem_append_left _ kept, owes⟩
  | enter i => exact sound.enter loud stepped
  | notify i => exact sound.notify stepped
  | subscribe =>
    cases stepped
    refine ⟨sound.carried, fun sub member => ?_, fun sub member => ?_⟩
    · rcases List.mem_append.mp member with kept | new
      · exact sound.marked sub kept
      · rw [List.mem_singleton.mp new]
    · rcases List.mem_append.mp member with kept | new
      · exact sound.current sub kept
      · rw [List.mem_singleton.mp new]
        exact .inl trivial
  | act i action => exact sound.act stepped
  | shutDown =>
    cases stepped
    exact ⟨sound.carried, sound.marked, sound.current⟩

theorem Sound.settled (sound : s.Sound) (quiet : s.Quiet) : ¬ s.Owed := by
  rintro ⟨task, member, owes⟩
  obtain ⟨done, silent⟩ := quiet task member
  rw [silent] at owes
  rcases sound.carried task member (owes.resolve_left Bool.false_ne_true) with notifying | ⟨later, following, _⟩
  · rw [silent] at notifying
    cases notifying
  · rw [done] at following
    cases following

theorem execute_sound (ran : s.execute label = some t) : guarded Step Loud s label t := by
  rw [execute] at ran
  split at ran
  · exact ⟨‹_›, ran⟩
  · cases ran

theorem run_sound (run : Reaches (guarded Step Loud) (start initial) labels s) : s.Sound :=
  run.invariant (fun sound ⟨loud, stepped⟩ => sound.step loud stepped) (start_sound initial)

/-- Once all tasks are done, the last thing written to a subscription that has nothing more to
look at is the status as it is. -/
theorem subscription_current (run : Reaches (guarded Step Loud) (start initial) labels s) (quiet : s.Quiet)
    (member : sub ∈ s.subscriptions) (waiting : sub.progress = .waiting) (caughtUp : sub.seen = s.version) :
    ∃ passes, s.daemon.shared.CoveredBy passes ∧ sub.sent.getLast? = some (s.daemon.status passes) := by
  have sound := run_sound run
  have fresh := (sound.current sub member).settled caughtUp (sound.settled quiet)
  rwa [Subscription.Fresh, waiting] at fresh

/-- One look of the first subscription, and the status written. -/
def look : List Label :=
  [.act 0 (.gather ⟨[], [], []⟩), .act 0 .listPeers, .act 0 .loadCapturing, .act 0 .loadClipboard, .act 0 .written]

/-- A client subscribes, and clipboard sharing is switched on. -/
def switching : List Label :=
  [.subscribe, .act 0 .arm, .act 0 .check] ++ look ++ [.spawn (.request (.clipboard true) .quiet), .enter 0, .notify 0]

def switched : Announcing := (switching.foldlM execute (start .fresh)).get rfl

def shown : Announcing := ((Label.act 0 .changed :: look).foldlM execute switched).get rfl

theorem switched_run : Reaches (guarded Step Loud) (start .fresh) switching switched :=
  .of_foldlM execute_sound (Option.some_get _).symm

theorem subscription_current_shown : shown.version = 1 ∧ ∀ sub ∈ shown.subscriptions, ∃ passes,
    shown.daemon.shared.CoveredBy passes ∧ sub.sent.getLast? = some (shown.daemon.status passes) := by
  have later : Reaches (guarded Step Loud) switched (.act 0 .changed :: look) shown :=
    .of_foldlM execute_sound (Option.some_get _).symm
  refine ⟨rfl, fun sub member => subscription_current (switched_run.trans later) ?_ member ?_ ?_⟩
  · intro task done
    cases List.mem_singleton.mp done
    exact ⟨rfl, rfl⟩
  · cases List.mem_singleton.mp member
    rfl
  · cases List.mem_singleton.mp member
    rfl

end Announcing
end Omnipresent
