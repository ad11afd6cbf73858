import Omnipresent.Protocol.Clipboard

/-! The clipboard manager: what it does to the OS clipboard and to its own record of
what was last synced. Every piece that runs without letting others in between is one
function; an operation is its pieces in a row. -/
namespace Omnipresent

inductive ClipboardError where
  | disabled
  | platform (message : String)
  | validation (message : String)
deriving DecidableEq, Repr

/-- Something put on the OS clipboard, by the user or by this program. A clipboard can
be emptied, or hold what is neither text nor an image. -/
structure Put where
  content : Option ClipboardData
  byUser : Bool
deriving DecidableEq

/-- The OS clipboard, as everything ever put on it. -/
structure OsClipboard where
  puts : List Put
deriving DecidableEq

namespace OsClipboard

def read (self : OsClipboard) : Option ClipboardData := self.puts.getLast?.bind (·.content)

def write (self : OsClipboard) (data : ClipboardData) : OsClipboard := ⟨self.puts ++ [⟨some data, false⟩]⟩

def copy (self : OsClipboard) (content : Option ClipboardData) : OsClipboard :=
  ⟨self.puts ++ [⟨content, true⟩]⟩

@[simp] theorem read_write (self : OsClipboard) (data : ClipboardData) : (self.write data).read = some data := by
  simp [read, write]

end OsClipboard

structure ClipboardManager where
  port : OsClipboard
  enabled : Bool
  /-- The last content read or written. -/
  lastSynced : Option ClipboardData
deriving DecidableEq

namespace ClipboardManager

def new (port : OsClipboard) (enabled : Bool) : ClipboardManager := ⟨port, enabled, none⟩

def isEnabled (self : ClipboardManager) : Bool := self.enabled

/-- The first half of `set_enabled`. -/
def storeEnabled (self : ClipboardManager) (enabled : Bool) : ClipboardManager := { self with enabled }

/-- The second half, when switching off: re-enabling starts from a clean slate. -/
def forget (self : ClipboardManager) : ClipboardManager := { self with lastSynced := none }

def setEnabled (self : ClipboardManager) (enabled : Bool) : ClipboardManager :=
  if enabled then self.storeEnabled enabled else (self.storeEnabled enabled).forget

/-- The part of a poll under the lock: what was read against what was last synced.
Content that may not travel is recorded all the same. -/
def compare (self : ClipboardManager) (current : Option ClipboardData) :
    ClipboardManager × Option ClipboardData :=
  match current with
  | none => (self, none)
  | some data =>
    if self.lastSynced = some data then (self, none)
    else
      let recorded := { self with lastSynced := some data }
      match data.validate with
      | .error _ => (recorded, none)
      | .ok () => (recorded, some data)

/-- How the OS answered a read or a write: an error message, or none. -/
abbrev OsAnswer := Option String

def pollLocalChange (self : ClipboardManager) (os : OsAnswer) :
    ClipboardManager × Except ClipboardError (Option ClipboardData) :=
  if self.enabled = false then (self, .error .disabled)
  else match os with
    | some message => (self, .error (.platform message))
    | none =>
      let (self, answer) := self.compare self.port.read
      (self, .ok answer)

def writePort (self : ClipboardManager) (data : ClipboardData) : ClipboardManager :=
  { self with port := self.port.write data }

/-- The part of a remote update under the lock. -/
def record (self : ClipboardManager) (data : ClipboardData) : ClipboardManager :=
  { self with lastSynced := some data }

def handleRemoteUpdate (self : ClipboardManager) (data : ClipboardData) (os : OsAnswer) :
    ClipboardManager × Except ClipboardError Unit :=
  if self.enabled = false then (self, .error .disabled)
  else match data.validate with
    | .error e => (self, .error (.validation e.message))
    | .ok () =>
      match os with
      | some message => (self, .error (.platform message))
      | none => ((self.writePort data).record data, .ok ())

def userCopy (self : ClipboardManager) (content : Option ClipboardData) : ClipboardManager :=
  { self with port := self.port.copy content }

variable {self : ClipboardManager}

@[simp] theorem compare_port (self : ClipboardManager) (current : Option ClipboardData) :
    (self.compare current).1.port = self.port := by
  unfold compare
  split
  · rfl
  · split
    · rfl
    · dsimp only
      split <;> rfl

@[simp] theorem compare_enabled (self : ClipboardManager) (current : Option ClipboardData) :
    (self.compare current).1.enabled = self.enabled := by
  unfold compare
  split
  · rfl
  · split
    · rfl
    · dsimp only
      split <;> rfl

theorem compare_lastSynced (self : ClipboardManager) (data : ClipboardData) :
    (self.compare (some data)).1.lastSynced = some data := by
  simp only [compare]
  split
  · assumption
  · split <;> rfl

/-- An answer is what was read, valid, and not what was last synced. -/
theorem compare_answer : (self.compare current).2 = some data ↔
    current = some data ∧ self.lastSynced ≠ some data ∧ data.validate = .ok () := by
  unfold compare
  cases current with
  | none => simp
  | some read =>
    simp only [Option.some.injEq]
    split
    · rename_i same
      simp only [reduceCtorEq, false_iff, not_and]
      rintro rfl distinct
      exact absurd same distinct
    · rename_i distinct
      split
      · rename_i invalid
        simp only [reduceCtorEq, false_iff, not_and]
        rintro rfl _ valid
        cases invalid.symm.trans valid
      · rename_i valid
        simp only [Option.some.injEq]
        constructor
        · rintro rfl
          exact ⟨rfl, distinct, valid⟩
        · exact And.left

end ClipboardManager
end Omnipresent
