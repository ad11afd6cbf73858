import Omnipresent.Clipboard.Manager
import Omnipresent.Transition
import Mathlib.Logic.Function.Basic

/-! One manager called from many tasks: the flag, the OS clipboard and the record of
what was last synced are each touched on their own, so calls interleave. -/
namespace Omnipresent

/-- Where a call stands. A version counts the puts on the clipboard up to one. -/
inductive ClipboardCall where
  | idle
  /-- A poll that found sharing on. -/
  | polling
  /-- It has read this, at this version. -/
  | comparing (version : Nat) (current : Option ClipboardData)
  /-- A remote update that found sharing on and its payload valid. -/
  | updating (data : ClipboardData)
  /-- It has written that, as this version. -/
  | recording (version : Nat) (data : ClipboardData)
  /-- A switch-off that has not cleared the record yet. -/
  | forgetting
deriving DecidableEq

/-- The manager with its calls, and the history that says what they did. -/
structure ClipboardTasks where
  manager : ClipboardManager
  calls : Nat → ClipboardCall
  /-- The newest version that what was last synced ever came from. -/
  stored : Nat
  /-- What polls returned, with the version each had read. -/
  answered : List (Nat × ClipboardData)
  /-- A switch-off has returned, and sharing was not switched on since. -/
  off : Bool

inductive ClipboardOp where
  | poll (call : Nat)
  | read (call : Nat) (os : ClipboardManager.OsAnswer)
  | compare (call : Nat)
  | update (call : Nat) (data : ClipboardData)
  | write (call : Nat) (os : ClipboardManager.OsAnswer)
  | record (call : Nat)
  | switch (call : Nat) (enabled : Bool)
  | forget (call : Nat)
  | copy (content : Option ClipboardData)
deriving DecidableEq

namespace ClipboardTasks

def new (port : OsClipboard) (enabled : Bool) : ClipboardTasks where
  manager := .new port enabled
  calls _ := .idle
  stored := 0
  answered := []
  off := false

def withCall (self : ClipboardTasks) (call : Nat) (stands : ClipboardCall) : ClipboardTasks :=
  { self with calls := Function.update self.calls call stands }

def compare (self : ClipboardTasks) (version : Nat) (current : Option ClipboardData) : ClipboardTasks :=
  let (manager, answer) := self.manager.compare current
  { self with
    manager
    stored := if manager.lastSynced = self.manager.lastSynced then self.stored else max self.stored version
    answered := self.answered ++ (answer.map fun data => (version, data)).toList }

def record (self : ClipboardTasks) (version : Nat) (data : ClipboardData) : ClipboardTasks :=
  { self with manager := self.manager.record data, stored := max self.stored version }

/-- The next piece of a call; `none` where the call does not stand there. -/
def run (self : ClipboardTasks) : ClipboardOp → Option ClipboardTasks
  | .poll call => match self.calls call with
    | .idle => some (if self.manager.enabled then self.withCall call .polling else self)
    | _ => none
  | .read call os => match self.calls call, os with
    | .polling, some _ => some (self.withCall call .idle)
    | .polling, none =>
      some (self.withCall call (.comparing self.manager.port.puts.length self.manager.port.read))
    | _, _ => none
  | .compare call => match self.calls call with
    | .comparing version current => some ((self.compare version current).withCall call .idle)
    | _ => none
  | .update call data => match self.calls call with
    | .idle =>
      some (if self.manager.enabled ∧ data.validate = .ok () then self.withCall call (.updating data) else self)
    | _ => none
  | .write call os => match self.calls call, os with
    | .updating _, some _ => some (self.withCall call .idle)
    | .updating data, none =>
      some (withCall { self with manager := self.manager.writePort data } call
        (.recording (self.manager.port.puts.length + 1) data))
    | _, _ => none
  | .record call => match self.calls call with
    | .recording version data => some ((self.record version data).withCall call .idle)
    | _ => none
  | .switch call enabled => match self.calls call with
    | .idle =>
      let switched := { self with manager := self.manager.storeEnabled enabled }
      some (if enabled then { switched with off := false } else switched.withCall call .forgetting)
    | _ => none
  | .forget call => match self.calls call with
    | .forgetting => some { self.withCall call .idle with manager := self.manager.forget, off := true }
    | _ => none
  | .copy content => some { self with manager := self.manager.userCopy content }

end ClipboardTasks

def ClipboardStep (s : ClipboardTasks) (op : ClipboardOp) (t : ClipboardTasks) : Prop := s.run op = some t

theorem ClipboardStep.of_run {s t : ClipboardTasks} (ran : s.run op = some t) : ClipboardStep s op t := ran

namespace ClipboardTasks
variable {s t : ClipboardTasks}

theorem withCall_calls (s : ClipboardTasks) (call : Nat) (stands : ClipboardCall) (other : Nat) :
    (s.withCall call stands).calls other = if other = call then stands else s.calls other :=
  Function.update_apply ..

/-- Everything one piece can do, and where its call stood before. -/
inductive Moves (s : ClipboardTasks) : ClipboardOp → ClipboardTasks → Prop where
  | unpolled : Moves s (.poll call) s
  | unapplied : Moves s (.update call data) s
  | poll : s.calls call = .idle → s.manager.enabled = true → Moves s (.poll call) (s.withCall call .polling)
  | unread : s.calls call = .polling → Moves s (.read call os) (s.withCall call .idle)
  | read : s.calls call = .polling → Moves s (.read call none)
      (s.withCall call (.comparing s.manager.port.puts.length s.manager.port.read))
  | compare : s.calls call = .comparing version current →
      Moves s (.compare call) ((s.compare version current).withCall call .idle)
  | update : s.calls call = .idle → s.manager.enabled = true → data.validate = .ok () →
      Moves s (.update call data) (s.withCall call (.updating data))
  | unwritten : s.calls call = .updating data → Moves s (.write call os) (s.withCall call .idle)
  | write : s.calls call = .updating data → Moves s (.write call none)
      (withCall { s with manager := s.manager.writePort data } call
        (.recording (s.manager.port.puts.length + 1) data))
  | record : s.calls call = .recording version data →
      Moves s (.record call) ((s.record version data).withCall call .idle)
  | on : s.calls call = .idle → Moves s (.switch call true)
      { s with manager := s.manager.storeEnabled true, off := false }
  | off : s.calls call = .idle → Moves s (.switch call false)
      (withCall { s with manager := s.manager.storeEnabled false } call .forgetting)
  | forget : s.calls call = .forgetting → Moves s (.forget call)
      { s.withCall call .idle with manager := s.manager.forget, off := true }
  | copy : Moves s (.copy content) { s with manager := s.manager.userCopy content }

theorem moves (step : ClipboardStep s op t) : s.Moves op t := by
  unfold ClipboardStep run at step
  cases op with
  | poll call =>
    cases stands : s.calls call <;> simp only [stands, reduceCtorEq] at step
    split at step <;> cases step
    · exact .poll stands ‹_›
    · exact .unpolled
  | read call os =>
    cases stands : s.calls call <;> cases os <;> simp only [stands, reduceCtorEq] at step <;> cases step
    · exact .read stands
    · exact .unread stands
  | compare call =>
    cases stands : s.calls call <;> simp only [stands, reduceCtorEq] at step
    cases step
    exact .compare stands
  | update call data =>
    cases stands : s.calls call <;> simp only [stands, reduceCtorEq] at step
    split at step <;> cases step
    · exact .update stands (And.left ‹_›) (And.right ‹_›)
    · exact .unapplied
  | write call os =>
    cases stands : s.calls call <;> cases os <;> simp only [stands, reduceCtorEq] at step <;> cases step
    · exact .write stands
    · exact .unwritten stands
  | record call =>
    cases stands : s.calls call <;> simp only [stands, reduceCtorEq] at step
    cases step
    exact .record stands
  | switch call enabled =>
    cases stands : s.calls call <;> simp only [stands, reduceCtorEq] at step
    cases enabled <;> cases step
    · exact .off stands
    · exact .on stands
  | forget call =>
    cases stands : s.calls call <;> simp only [stands, reduceCtorEq] at step
    cases step
    exact .forget stands
  | copy content =>
    cases step
    exact .copy

/-- A call that comes back to where it stood leaves no trace of itself. -/
theorem withCall_idle (s : ClipboardTasks) (idle : s.calls call = .idle) : s.withCall call .idle = s := by
  rw [withCall, ← idle, Function.update_eq_self]

theorem withCall_withCall (s : ClipboardTasks) (call : Nat) (first second : ClipboardCall) :
    (s.withCall call first).withCall call second = s.withCall call second := by
  simp only [withCall, Function.update_idem]

/-- A poll nothing comes in between of is the manager's own. -/
theorem poll_alone (idle : s.calls call = .idle) (on : s.manager.enabled = true) :
    [.poll call, .read call none, .compare call].foldlM run s =
        some (s.compare s.manager.port.puts.length s.manager.port.read) ∧
      s.manager.pollLocalChange none = ((s.compare s.manager.port.puts.length s.manager.port.read).manager,
        .ok (s.manager.compare s.manager.port.read).2) := by
  have back := (s.compare s.manager.port.puts.length s.manager.port.read).withCall_idle idle
  have read : (s.withCall call .polling).run (.read call none) =
      some (s.withCall call (.comparing s.manager.port.puts.length s.manager.port.read)) := by
    simp only [run, withCall_calls, if_true, withCall_withCall]
    rfl
  have compared : (s.withCall call (.comparing s.manager.port.puts.length s.manager.port.read)).run
      (.compare call) = some (s.compare s.manager.port.puts.length s.manager.port.read) := by
    simp only [run, withCall_calls, if_true]
    exact congrArg some ((withCall_withCall _ call _ _).trans back)
  constructor
  · simp only [List.foldlM_cons, List.foldlM_nil, Option.bind_eq_bind]
    rw [show s.run (.poll call) = some (s.withCall call .polling) by simp only [run, idle, on, if_true],
      Option.bind_some, read, Option.bind_some, compared, Option.bind_some]
    rfl
  · simp only [ClipboardManager.pollLocalChange, on, Bool.true_eq_false, if_false, compare]

theorem update_alone (idle : s.calls call = .idle) (on : s.manager.enabled = true)
    (valid : data.validate = .ok ()) :
    ∃ t, [.update call data, .write call none, .record call].foldlM run s = some t ∧
      s.manager.handleRemoteUpdate data none = (t.manager, .ok ()) := by
  let written : ClipboardTasks := { s with manager := s.manager.writePort data }
  let version := s.manager.port.puts.length + 1
  have back := (written.record version data).withCall_idle idle
  have wrote : (s.withCall call (.updating data)).run (.write call none) =
      some (written.withCall call (.recording version data)) := by
    simp only [run, withCall_calls, if_true]
    exact congrArg some (withCall_withCall written call _ _)
  have recorded : (written.withCall call (.recording version data)).run (.record call) =
      some (written.record version data) := by
    simp only [run, withCall_calls, if_true]
    exact congrArg some ((withCall_withCall _ call _ _).trans back)
  refine ⟨written.record version data, ?_, ?_⟩
  · simp only [List.foldlM_cons, List.foldlM_nil, Option.bind_eq_bind]
    rw [show s.run (.update call data) = some (s.withCall call (.updating data)) by
      simp only [run, idle, on, valid, and_self, if_true], Option.bind_some, wrote, Option.bind_some, recorded,
      Option.bind_some]
    rfl
  · simp only [ClipboardManager.handleRemoteUpdate, on, valid, Bool.true_eq_false, if_false]
    rfl

end ClipboardTasks
end Omnipresent
