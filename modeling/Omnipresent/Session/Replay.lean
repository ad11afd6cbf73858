import Omnipresent.Session.Operations
import Mathlib.Data.List.Chain

/-! The event log as an account of the manager: read back from nothing, what it emitted
gives its sessions, their roles and where input goes. -/
namespace Omnipresent

structure SessionAccount where
  sessions : HashMap SessionId Session
  active : ActiveTarget

namespace SessionAccount

def empty : SessionAccount := ⟨∅, .here⟩

def apply (self : SessionAccount) : SessionEvent → SessionAccount
  | .established id peer role => { self with sessions := self.sessions.insert id ⟨id, peer, role⟩ }
  | .closed id => { self with sessions := self.sessions.erase id }
  | .roleChanged id role => { self with sessions := self.sessions.modify id fun s => { s with role } }
  | .activeTargetChanged target => { self with active := target }

def replay (log : List SessionEvent) : SessionAccount := log.foldl apply empty

theorem replay_append (log : List SessionEvent) (event : SessionEvent) :
    replay (log ++ [event]) = (replay log).apply event := by
  rw [replay, List.foldl_append]
  rfl

end SessionAccount

def SessionEvent.newTarget : SessionEvent → Option ActiveTarget
  | activeTargetChanged target => some target
  | _ => none

def targets (log : List SessionEvent) : List ActiveTarget := .here :: log.filterMap SessionEvent.newTarget

theorem targets_append (log : List SessionEvent) (event : SessionEvent) :
    targets (log ++ [event]) = targets log ++ event.newTarget.toList := by
  rw [targets, List.filterMap_append]
  cases event <;> rfl

/-- The log tells of these sessions and this target, which it last named, and it names
none twice in a row. -/
structure Accounts (log : List SessionEvent) (sessions : HashMap SessionId Session) (active : ActiveTarget) :
    Prop where
  replayed : SessionAccount.replay log = ⟨sessions, active⟩
  current : (targets log).getLast? = some active
  changing : (targets log).IsChain (· ≠ ·)

namespace Accounts
variable {log : List SessionEvent} {sessions : HashMap SessionId Session} {active : ActiveTarget}

theorem nil : Accounts [] ∅ .here := ⟨rfl, rfl, .singleton _⟩

theorem other (accounts : Accounts log sessions active) (event : SessionEvent) (stays : event.newTarget = none) :
    Accounts (log ++ [event]) ((SessionAccount.mk sessions active).apply event).sessions active := by
  have same : targets (log ++ [event]) = targets log := by
    rw [targets_append, stays, Option.toList_none, List.append_nil]
  refine ⟨?_, ?_, ?_⟩
  · rw [SessionAccount.replay_append, accounts.replayed]
    cases event with
    | activeTargetChanged target => cases stays
    | established | closed | roleChanged => rfl
  · rw [same]
    exact accounts.current
  · rw [same]
    exact accounts.changing

theorem target (accounts : Accounts log sessions active) {next : ActiveTarget} (moved : active ≠ next) :
    Accounts (log ++ [.activeTargetChanged next]) sessions next := by
  have longer : targets (log ++ [.activeTargetChanged next]) = targets log ++ [next] := targets_append log _
  refine ⟨?_, ?_, ?_⟩
  · rw [SessionAccount.replay_append, accounts.replayed]
    rfl
  · rw [longer, List.getLast?_append]
    rfl
  · rw [longer, List.isChain_append]
    refine ⟨accounts.changing, .singleton _, fun last isLast first isFirst => ?_⟩
    rw [accounts.current] at isLast
    cases isLast
    cases isFirst
    exact moved

end Accounts

namespace SessionManager
variable {manager : SessionManager RecordingEvents}

/-- The log a manager has written accounts for what it holds. -/
def Accounted (self : SessionManager RecordingEvents) : Prop :=
  Accounts self.events.events self.sessions self.active

namespace Accounted

theorem new (localMachine : MachineId) : (SessionManager.new localMachine (⟨[]⟩ : RecordingEvents)).Accounted :=
  .nil

theorem setActive (accounted : manager.Accounted) (target : ActiveTarget) :
    (manager.setActive target).Accounted := by
  rw [SessionManager.setActive]
  split
  · exact accounted.target ‹_›
  · exact accounted

theorem establish (accounted : manager.Accounted) (id : SessionId) (peer : MachineId) (role : Role) :
    (manager.establish id peer role).1.Accounted := by
  rw [SessionManager.establish]
  split
  · exact accounted
  · split
    · exact accounted
    · exact accounted.other (.established id peer role) rfl

/-- Input comes home before the session is told to be gone. -/
theorem close (accounted : manager.Accounted) (id : SessionId) : (manager.close id).1.Accounted := by
  unfold SessionManager.close
  cases manager.sessions.lookup id with
  | none => exact accounted
  | some session =>
    by_cases active : manager.active = .remote session.peer
    · have moved : manager.active ≠ .here := by
        rw [active]
        nofun
      simp only [if_pos active, SessionManager.setActive, if_pos moved]
      exact (accounted.target moved).other (.closed id) rfl
    · simp only [if_neg active]
      exact accounted.other (.closed id) rfl

theorem reverseRole (accounted : manager.Accounted) (id : SessionId) :
    (manager.reverseRole id).1.Accounted := by
  rw [SessionManager.reverseRole]
  cases manager.sessions.lookup id with
  | none => exact accounted
  | some session => exact accounted.other (.roleChanged id session.role.reversed) rfl

theorem followPeer (accounted : manager.Accounted) (peer : MachineId) :
    (manager.followPeer peer).1.Accounted := by
  rw [SessionManager.followPeer]
  split
  · exact accounted
  · exact accounted.setActive _

theorem handleCrossing (accounted : manager.Accounted) (crossing : Crossing) :
    (manager.handleCrossing crossing).1.Accounted := by
  rw [SessionManager.handleCrossing]
  split
  · exact accounted.setActive _
  · split
    · exact accounted
    · exact accounted.setActive _

theorem perform (accounted : manager.Accounted) (operation : SessionOperation) :
    (manager.perform operation).1.Accounted := by
  cases operation with
  | establish id peer role => exact accounted.establish id peer role
  | close id => exact accounted.close id
  | reverseRole id => exact accounted.reverseRole id
  | yieldControl => exact accounted.setActive .here
  | followPeer peer => exact accounted.followPeer peer
  | handleCrossing crossing => exact accounted.handleCrossing crossing

end Accounted

/-- Read back from nothing, the log gives the sessions with their roles and the target;
it names no target twice in a row, the local screen being the first; and what fails
changes neither the manager nor the log. -/
theorem log_accounts (localMachine : MachineId) (operations : List SessionOperation) :
    let manager := (new localMachine (⟨[]⟩ : RecordingEvents)).performAll operations
    SessionAccount.replay manager.events.events = ⟨manager.sessions, manager.active⟩ ∧
      (targets manager.events.events).IsChain (· ≠ ·) ∧
      ∀ operation e, (manager.perform operation).2 = .error e → (manager.perform operation).1 = manager := by
  intro manager
  have accounted : manager.Accounted :=
    performAll_induction (.new localMachine) (fun operation before => before.perform operation) operations
  exact ⟨accounted.replayed, accounted.changing, fun operation e failed => perform_error failed⟩

end SessionManager
end Omnipresent
