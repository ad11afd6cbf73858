import Omnipresent.Daemon.Ipc
import Omnipresent.Transition

/-! The daemon as a state machine: whatever its tasks do under the state lock,
in any order, with what the outside answers as part of each operation. -/
namespace Omnipresent

/-- One critical section. An order is that of the pass it makes over the links. -/
inductive Op where
  | captured (event : InputEvent) (os : Option (Int32 × Int32))
  | signalled (machine : MachineId) (session : SessionId) (message : ControlMessage)
  | incoming (host : String) (fingerprint : Fingerprint) (session : SessionId) (screen : ScreenSize)
      (order : List MachineId)
  | dialled (host : String) (fingerprint : Fingerprint) (session : SessionId) (screen : ScreenSize)
      (write : Write) (order : List MachineId)
  | cleanup (machine : MachineId) (order : List MachineId)
  | taken (machine : MachineId) (count : Nat)
  | copied (data : ClipboardData)
  | layout (host edge : String) (config : ConfigWrite) (order : List MachineId)
  | modifiers (host swap : String) (config : ConfigWrite)
  | disconnect (host : String) (order : List MachineId)
  | removePeer (selector : String) (order : List MachineId) (write : Write)
  | asked (host : String) (fingerprint : Fingerprint) (decision : Nat)
  | decided (selector : String)
  | retained (fingerprint : Fingerprint)
  | approved (host : String) (fingerprint : Fingerprint) (write : Write)

def Op.order : Op → Option (List MachineId)
  | incoming _ _ _ _ order | dialled _ _ _ _ _ order | cleanup _ order | layout _ _ _ order
  | disconnect _ order | removePeer _ order _ => some order
  | captured .. | signalled .. | taken .. | copied .. | modifiers .. | asked .. | decided ..
  | retained .. | approved .. => none

namespace Shared

/-- What an operation leaves behind; `none` is a panic, which poisons the lock. -/
def run (self : Shared) : Op → Option Shared
  | .captured event os => self.routeCaptured event os
  | .signalled machine session message => some (self.signalling machine session message)
  | .incoming host fingerprint session screen order =>
    some (self.handleIncoming host fingerprint session screen order).1
  | .dialled host fingerprint session screen write order =>
    some (self.doConnect host fingerprint session screen write order).1
  | .cleanup machine order => some (self.cleanupPeer machine order)
  | .taken machine count => some (self.takeCommands machine count)
  | .copied data => some (self.broadcast (.clipboard data))
  | .layout host edge config order => some (self.setLayout host edge config order).1
  | .modifiers host swap config => some (self.setModifierSwap host swap config).1
  | .disconnect host order => some (self.disconnect host order).1
  | .removePeer selector order write => some (self.removePeer selector order write).1
  | .asked host fingerprint decision => some (self.askUser host fingerprint decision)
  | .decided selector => some (self.decidePending selector).1
  | .retained fingerprint => some (self.retainPending fingerprint)
  | .approved host fingerprint write => some (self.acceptPeer host fingerprint write)

/-- The pass visits exactly the links there are once the operation is through:
it adds or drops links before it walks them. -/
def Walks (self : Shared) (op : Op) : Prop :=
  ∀ order, op.order = some order → HashMap.Order order self.state.links

/-- The same with the order checked, for running the daemon. -/
def execute (self : Shared) (op : Op) : Option Shared :=
  (self.run op).filter fun t => op.order.all fun order => HashMap.Order order t.state.links

end Shared

def Step (s : Shared) (op : Op) (t : Shared) : Prop := s.run op = some t ∧ t.Walks op

theorem Step.of_execute (executed : s.execute op = some t) : Step s op t := by
  obtain ⟨ran, walks⟩ := Option.filter_eq_some_iff.mp executed
  refine ⟨ran, fun order same => ?_⟩
  simpa [same] using walks

end Omnipresent
