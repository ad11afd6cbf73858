import Mathlib.Logic.Function.Iterate
import Omnipresent.App.Log
import Omnipresent.Daemon.Status
import Omnipresent.Transition

/-! The window's picture of the daemon. Its actions send commands and wait for the answers,
several of them at a time, while the daemon pushes snapshots of its own accord. -/
namespace Omnipresent
open Transition

inductive ConnectionState where
  | disconnected
  | connecting
  | connected
  /-- The daemon speaks a protocol newer than this build understands. -/
  | incompatible
deriving DecidableEq, Repr

structure DaemonVersion where
  protocolVersion : UInt32
  daemonVersion : String
  /-- False when the daemon is newer than this app understands. -/
  compatible : Bool
deriving DecidableEq, Repr

structure CheckInfo where
  name : String
  ok : Bool
  detail : String
deriving DecidableEq, Repr

/-- Why the embedded daemon stopped. -/
structure DaemonExit where
  reason : Option String
  stoodDown : Bool
deriving DecidableEq, Repr

structure DaemonState where
  connection : ConnectionState
  status : Option StatusInfo
  daemonVersion : String
  appVersion : String
  localAddress : Option String
  /-- Hosts a connection is being requested from. -/
  connecting : List String
  embedded : Bool
  checks : Option (List CheckInfo)
  log : Option DaemonLog
  error : Option String

def initialState : DaemonState := ⟨.connecting, none, "", "", none, [], false, none, none, none⟩

/-- Standing down, or a reason that is missing or empty, is nothing to report. -/
def exitMessage (exit : DaemonExit) : Option String :=
  if exit.stoodDown then none
  else (exit.reason.filter (· ≠ "")).map ("The daemon stopped: " ++ ·)

/-- Who goes on when a refresh is over. -/
inductive Caller where
  | nobody
  | init
  | connect (host : String)
  | startDaemon (startFailure : Option String)
deriving DecidableEq, Repr

inductive Awaiting where
  | listenStatus
  | listenDropped
  | listenExited
  | version
  | localAddress
  | hello (caller : Caller)
  /-- The status and whether the daemon is embedded, both. -/
  | snapshot (version : DaemonVersion) (caller : Caller)
  | refresh (caller : Caller)
  | cleanup
  | connect (host : String)
  | requestPermission
  | command
  | start
  | stop
  | doctor
  | log
deriving DecidableEq, Repr

/-- What comes of it: a command is answered or rejected with a message. -/
@[reducible] def Awaiting.Result : Awaiting → Type
  | version => Except String String
  | localAddress => Except String (Option String)
  | hello _ => Except String DaemonVersion
  | snapshot .. => Except String (StatusInfo × Bool)
  | doctor => Except String (List CheckInfo)
  | log => Except String DaemonLog
  | refresh _ | cleanup => Unit
  | _ => Except String Unit

inductive StoreAction where
  | init
  | refresh
  | connect (host : String)
  | requestPermission
  /-- Any of the actions that only `run` a command. -/
  | run
  | startDaemon
  | stopDaemon
  | runDoctor
  | readLog
  | clearError
deriving DecidableEq, Repr

inductive StoreEvent where
  | call (action : StoreAction)
  | settled (awaiting : Awaiting) (result : awaiting.Result)
  /-- The events pushed to the window. -/
  | status (payload : StatusInfo)
  | disconnected
  | exited (exit : DaemonExit)

structure Listeners where
  status : Nat
  dropped : Nat
  exited : Nat
deriving DecidableEq, Repr

structure DaemonStore where
  state : DaemonState
  listeners : Listeners
  awaiting : List Awaiting

namespace DaemonStore

def start : DaemonStore := ⟨initialState, ⟨0, 0, 0⟩, []⟩

def set (self : DaemonStore) (update : DaemonState → DaemonState) : DaemonStore :=
  { self with state := update self.state }

def await (self : DaemonStore) (awaiting : Awaiting) : DaemonStore :=
  { self with awaiting := self.awaiting ++ [awaiting] }

/-- A refresh that is over: whoever awaits it goes on a step later. -/
def resume (self : DaemonStore) : Caller → DaemonStore
  | .nobody => self
  | caller => self.await (.refresh caller)

/-- An action up to the first command it waits for. -/
def call (self : DaemonStore) : StoreAction → DaemonStore
  | .init => self.await .listenStatus
  | .refresh => self.await (.hello .nobody)
  | .connect host =>
    (self.set fun s => { s with connecting := s.connecting ++ [host], error := none }).await (.connect host)
  | .requestPermission => self.await .requestPermission
  | .run => self.await .command
  | .startDaemon => (self.set fun s => { s with connection := .connecting, error := none }).await .start
  | .stopDaemon => self.await .stop
  | .runDoctor => self.await .doctor
  | .readLog => self.await .log
  | .clearError => self.set fun s => { s with error := none }

/-- An action from an answer up to what it waits for next. -/
def settle (self : DaemonStore) : (awaiting : Awaiting) → awaiting.Result → DaemonStore
  | .listenStatus, .ok () =>
    { self with listeners.status := self.listeners.status + 1 }.await .listenDropped
  | .listenDropped, .ok () =>
    { self with listeners.dropped := self.listeners.dropped + 1 }.await .listenExited
  | .listenExited, .ok () =>
    { self with listeners.exited := self.listeners.exited + 1 }.await .version
  -- A listener that cannot be registered ends `init`.
  | .listenStatus, .error _ | .listenDropped, .error _ | .listenExited, .error _ => self
  | .version, .ok appVersion => (self.set fun s => { s with appVersion }).await .localAddress
  | .version, .error _ => self.await .localAddress
  | .localAddress, .ok localAddress =>
    ((self.set fun s => { s with localAddress }).await .doctor).await (.hello .init)
  | .localAddress, .error _ => (self.await .doctor).await (.hello .init)
  | .hello caller, .ok version =>
    if version.compatible then self.await (.snapshot version caller)
    else
      let error := s!"The daemon speaks protocol v{version.protocolVersion}, which is newer than this app " ++
        "understands. Update Omnipresent."
      (self.set fun s =>
        { s with connection := .incompatible, daemonVersion := version.daemonVersion, error }).resume caller
  | .snapshot version caller, .ok (status, embedded) =>
    (self.set fun s => { s with
      status
      embedded
      connection := .connected
      daemonVersion := version.daemonVersion
      error := none }).resume caller
  | .hello caller, .error error | .snapshot _ caller, .error error =>
    (self.set fun s => { s with connection := .disconnected, status := none, error }).resume caller
  | .refresh .nobody, _ => self
  | .refresh .init, _ => self.await .cleanup
  | .refresh (.connect host), _ =>
    self.set fun s => { s with connecting := s.connecting.filter (· ≠ host) }
  | .refresh (.startDaemon startFailure), _ =>
    (self.set fun s => { s with
      error := if s.connection = .connected then s.error
        else (startFailure.filter (· ≠ "")).or s.error }).await .doctor
  | .cleanup, _ =>
    let ⟨status, dropped, exited⟩ := self.listeners
    { self with listeners := ⟨status - 1, dropped - 1, exited - 1⟩ }
  | .connect host, .ok () => self.await (.hello (.connect host))
  | .connect host, .error error =>
    self.set fun s => { s with error, connecting := s.connecting.filter (· ≠ host) }
  | .requestPermission, .ok () => self.await .doctor
  | .command, .ok () => self.set fun s => { s with error := none }
  | .start, .ok () => self.await (.hello (.startDaemon none))
  | .start, .error error => self.await (.hello (.startDaemon (some error)))
  | .stop, .ok () =>
    (self.set fun s => { s with connection := .disconnected, status := none, error := none }).await .doctor
  | .doctor, .ok checks => self.set fun s => { s with checks }
  | .log, .ok log => self.set fun s => { s with log }
  | .requestPermission, .error error | .command, .error error | .stop, .error error
  | .doctor, .error error | .log, .error error => self.set fun s => { s with error }

def onStatus (payload : StatusInfo) (self : DaemonStore) : DaemonStore :=
  self.set fun s => { s with status := payload, connection := .connected, error := none }

def onDisconnected (self : DaemonStore) : DaemonStore :=
  self.set fun s =>
    if s.connection = .connected ∨ s.connection = .incompatible then { s with connection := .disconnected }
    else s

def onExited (exit : DaemonExit) (self : DaemonStore) : DaemonStore :=
  (self.set fun s => { s with embedded := false, error := (exitMessage exit).or s.error }).await (.hello .nobody)

def step (self : DaemonStore) : StoreEvent → Option DaemonStore
  | .call action => some (self.call action)
  | .settled awaiting result =>
    if awaiting ∈ self.awaiting then
      some ({ self with awaiting := self.awaiting.erase awaiting }.settle awaiting result)
    else none
  | .status payload => some ((onStatus payload)^[self.listeners.status] self)
  | .disconnected => some (onDisconnected^[self.listeners.dropped] self)
  | .exited exit => some ((onExited exit)^[self.listeners.exited] self)

variable {self : DaemonStore}

/-- What an answer makes of the connection: only the handshake and a stop change it. -/
theorem settle_connection (self : DaemonStore) (awaiting : Awaiting) (result : awaiting.Result) :
    (self.settle awaiting result).state.connection =
      match awaiting, result with
      | .hello _, .ok version => if version.compatible then self.state.connection else .incompatible
      | .snapshot .., .ok _ => .connected
      | .hello _, .error _ | .snapshot .., .error _ | .stop, .ok _ => .disconnected
      | _, _ => self.state.connection := by
  have resumed : ∀ (store : DaemonStore) caller, (store.resume caller).state = store.state := by
    intro store caller
    cases caller <;> rfl
  cases awaiting with
  | hello caller =>
    cases result with
    | ok version =>
      rw [settle]
      dsimp only
      split
      · rfl
      · rw [resumed]
        rfl
    | error error => exact congrArg DaemonState.connection (resumed _ caller)
  | snapshot version caller => cases result <;> exact congrArg DaemonState.connection (resumed _ caller)
  | refresh caller => cases caller <;> rfl
  | cleanup => rfl
  | _ => cases result <;> rfl

/-- A pushed status connects the window as soon as anyone listens. -/
theorem onStatus_connection (payload : StatusInfo) (self : DaemonStore) (listeners : Nat) :
    ((onStatus payload)^[listeners] self).state.connection =
      if listeners = 0 then self.state.connection else .connected := by
  cases listeners with
  | zero => rfl
  | succ listeners =>
    rw [Function.iterate_succ_apply']
    rfl

theorem onDisconnected_connection (self : DaemonStore) (listeners : Nat)
    (connected : (onDisconnected^[listeners] self).state.connection = .connected) :
    self.state.connection = .connected := by
  induction listeners with
  | zero => exact connected
  | succ listeners ih =>
    rw [Function.iterate_succ_apply', onDisconnected, set] at connected
    dsimp only at connected
    split at connected
    · cases connected
    · exact ih connected

theorem onExited_connection (exit : DaemonExit) (self : DaemonStore) (listeners : Nat) :
    ((onExited exit)^[listeners] self).state.connection = self.state.connection := by
  induction listeners with
  | zero => rfl
  | succ listeners ih =>
    rw [Function.iterate_succ_apply']
    exact ih

theorem call_connection (self : DaemonStore) (action : StoreAction)
    (connected : (self.call action).state.connection = .connected) : self.state.connection = .connected := by
  cases action with
  | startDaemon => cases connected
  | _ => exact connected

end DaemonStore

/-- What the hello that completes with a step reported. -/
def StoreEvent.reported : StoreEvent → Option Bool
  | .settled (.hello _) (.ok version) => some version.compatible
  | _ => none

/-- The store, along with what the last hello to complete reported. -/
structure Handshaken where
  store : DaemonStore
  reported : Option Bool

namespace Handshaken

def start : Handshaken := ⟨.start, none⟩

/-- An incompatible daemon is not shown as connected. -/
def Honest (self : Handshaken) : Prop := self.store.state.connection = .connected → self.reported = some true

def step (self : Handshaken) (event : StoreEvent) : Option Handshaken :=
  (self.store.step event).map fun store => ⟨store, event.reported.or self.reported⟩

def Moves (s : Handshaken) (event : StoreEvent) (t : Handshaken) : Prop := s.step event = some t

/-- A status that is pushed to a listener, or that a refresh has read, comes while the
last hello to complete called the daemon compatible. -/
def Vouched (self : Handshaken) : StoreEvent → Prop
  | .status _ => 0 < self.store.listeners.status → self.reported = some true
  | .settled (.snapshot ..) (.ok _) => self.reported = some true
  | _ => True

variable {s t : Handshaken}

theorem Honest.keeps {event : StoreEvent} (honest : s.Honest) (silent : event.reported = none)
    {store : DaemonStore} (back : store.state.connection = .connected → s.store.state.connection = .connected) :
    Honest ⟨store, event.reported.or s.reported⟩ := by
  intro connected
  rw [silent, Option.none_or]
  exact honest (back connected)

theorem settle_honest_iff (honest : s.Honest) (store : DaemonStore) (same : store.state = s.store.state)
    (awaiting : Awaiting) (result : awaiting.Result) :
    Honest ⟨store.settle awaiting result, (StoreEvent.settled awaiting result).reported.or s.reported⟩ ↔
      s.Vouched (.settled awaiting result) := by
  have connection := store.settle_connection awaiting result
  rw [same] at connection
  cases awaiting with
  | hello caller =>
    refine iff_of_true (fun connected => ?_) trivial
    dsimp only at connected connection
    rw [connection] at connected
    cases result with
    | ok version =>
      dsimp only at connected
      split at connected
      · rename_i compatible
        exact congrArg some compatible
      · cases connected
    | error error => cases connected
  | snapshot version caller =>
    cases result with
    | ok answers => exact ⟨fun known => known connection, fun known _ => known⟩
    | error error =>
      refine iff_of_true (honest.keeps rfl fun connected => ?_) trivial
      cases connection.symm.trans connected
  | stop =>
    cases result with
    | ok _ =>
      refine iff_of_true (honest.keeps rfl fun connected => ?_) trivial
      cases connection.symm.trans connected
    | error error => exact iff_of_true (honest.keeps rfl (connection.symm.trans ·)) trivial
  | _ => exact iff_of_true (honest.keeps rfl (connection.symm.trans ·)) trivial

/-- A step leaves an honest window honest exactly where it is vouched for. -/
theorem honest_iff (honest : s.Honest) (moves : s.Moves event t) : t.Honest ↔ s.Vouched event := by
  obtain ⟨store, stepped, rfl⟩ := Option.map_eq_some_iff.mp moves
  cases event with
  | call action =>
    cases stepped
    exact iff_of_true (honest.keeps rfl (s.store.call_connection action)) trivial
  | settled awaiting result =>
    rw [DaemonStore.step] at stepped
    split at stepped
    · cases stepped
      exact settle_honest_iff honest { s.store with awaiting := s.store.awaiting.erase awaiting } rfl
        awaiting result
    · cases stepped
  | status payload =>
    cases stepped
    rw [Honest, Vouched, DaemonStore.onStatus_connection]
    split
    · exact iff_of_true honest (by omega)
    · exact ⟨fun known _ => known rfl, fun known _ => known (by omega)⟩
  | disconnected =>
    cases stepped
    exact iff_of_true (honest.keeps rfl (s.store.onDisconnected_connection _)) trivial
  | exited exit =>
    cases stepped
    exact iff_of_true (honest.keeps rfl ((DaemonStore.onExited_connection exit _ _).symm.trans ·)) trivial

/-- Along every sequence of calls, answers and pushes, the window shows an incompatible
daemon as connected in no state exactly when every step is vouched for. -/
theorem honest_along_iff (events : List StoreEvent) :
    (∀ before t, before <+: events → Reaches Moves start before t → t.Honest) ↔
      Along Moves start events fun s event _ => s.Vouched event := by
  refine always_iff ?_ honest_iff
  intro connected
  cases connected

/-- The daemon answers the handshake with a protocol of the future, and then pushes a
status. -/
theorem honest_along_pushed : ¬ ∀ events t, Reaches Moves start events t → t.Honest := by
  intro always
  have stepped : ∀ {s event t}, step s event = some t → Moves s event t := id
  obtain ⟨t, run, shown⟩ := Reaches.of_any stepped
    (show (List.foldlM step start [.call .init, .settled .listenStatus (.ok ()), .settled .listenDropped (.ok ()),
        .settled .listenExited (.ok ()), .settled .version (.ok "0.9.1"), .settled .localAddress (.ok none),
        .settled (.hello .init) (.ok ⟨99, "9.0.0", false⟩),
        .status ⟨"ours", 4733, true, false, [], [], [], [], []⟩]).any
      (fun t => t.store.state.connection = .connected ∧ t.reported = some false) = true by decide)
  obtain ⟨connected, reported⟩ := of_decide_eq_true shown
  cases reported.symm.trans (always _ t run connected)

end Handshaken
end Omnipresent
