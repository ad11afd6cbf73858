import Omnipresent.Protocol.Control
import Omnipresent.Protocol.Input
import Omnipresent.Session.Manager
import Omnipresent.Trust.State

/-! What the tasks of one daemon share, and the two derivations everything else
falls back on: the virtual desktop from the live links, the suppression flag
from the active target. -/
namespace Omnipresent

inductive PeerCommand where
  | input (event : InputEvent)
  | warp (x y : Int32)
  | cursorReturned (x y : Int32)
  | clipboard (data : ClipboardData)
  | disconnect
deriving DecidableEq

structure PeerLink where
  host : String
  fingerprint : Fingerprint
  session : SessionId
  role : Role
  screen : Screen
  /-- Which local edge this peer sits past. -/
  edge : Edge
  modifierSwap : ModifierSwap
  /-- Sent and not yet taken by the peer's task, oldest first. -/
  commands : List PeerCommand
deriving DecidableEq

def PeerLink.send (self : PeerLink) (command : PeerCommand) : PeerLink :=
  { self with commands := self.commands ++ [command] }

@[simp] theorem PeerLink.send_commands (self : PeerLink) (command : PeerCommand) :
    (self.send command).commands = self.commands ++ [command] := rfl

/-- An inbound connect request awaiting the user's decision. -/
structure PendingRequest where
  host : String
  fingerprint : Fingerprint
  /-- The handler at the other end of the decision channel. -/
  decision : Nat
deriving DecidableEq

/-- Session events go to the log, which nothing reads back. -/
structure LogEvents where
deriving DecidableEq, Repr

instance : SessionEvents LogEvents where
  emit self _ := self

structure State where
  sessions : SessionManager LogEvents
  layout : VirtualLayout
  cursor : CursorState
  links : HashMap MachineId PeerLink
  pending : List PendingRequest
  placements : HashMap String Edge
  modifierSwaps : HashMap String ModifierSwap

structure Shared where
  state : State
  trust : TrustState
  /-- Where the OS was told to put its cursor, oldest first; `none` when the OS
  denied injection access. -/
  sink : Option (List (Int32 × Int32))
  suppress : Bool
  localMachine : MachineId
  localScreen : Screen
  changes : UInt64

def ActiveTarget.isRemote : ActiveTarget → Bool
  | remote _ => true
  | here => false

namespace Shared

def syncSuppression (self : Shared) : Shared :=
  { self with suppress := self.state.sessions.active.isRemote }

def notifyChange (self : Shared) : Shared := { self with changes := self.changes + 1 }

/-- A pass over the links adds each machine to the desktop and puts it past its
edge, over whatever an earlier one put there. -/
def addLinks (self : Shared) (layout : VirtualLayout) (links : List (MachineId × PeerLink)) :
    VirtualLayout :=
  links.foldl (fun layout (machine, link) =>
    let layout := (layout.addMachine ⟨machine, link.screen⟩).1
    (layout.link self.localMachine link.edge machine).1) layout

/-- Rebuilds the virtual desktop from the live links, visited in this order. -/
def rebuildLayout (self : Shared) (order : List MachineId) : Shared :=
  let layout := (VirtualLayout.new.addMachine ⟨self.localMachine, self.localScreen⟩).1
  let layout := self.addLinks layout (self.state.links.iter order)
  let cursor :=
    -- Tracked on a machine that vanished: brought home.
    if layout.screen self.state.cursor.machine = none then ⟨self.localMachine, ⟨0, 0⟩⟩
    else self.state.cursor
  { self with state := { self.state with layout, cursor } }

def send (self : Shared) (machine : MachineId) (command : PeerCommand) : Shared :=
  { self with state.links := self.state.links.modify machine (·.send command) }

def broadcast (self : Shared) (command : PeerCommand) : Shared :=
  { self with state.links := self.state.links.map fun _ link => link.send command }

def warp (self : Shared) (x y : Int32) : Shared :=
  { self with sink := self.sink.map (· ++ [(x, y)]) }

/-- The daemon as it starts: no links, the cursor on its own screen. -/
def start (localMachine : MachineId) (localScreen : Screen) (trust : TrustState)
    (sink : Option (List (Int32 × Int32))) (placements : HashMap String Edge)
    (modifierSwaps : HashMap String ModifierSwap) : Shared :=
  let state :=
    { sessions := .new localMachine ⟨⟩, layout := .new, cursor := ⟨localMachine, ⟨0, 0⟩⟩,
      links := ∅, pending := [], placements, modifierSwaps }
  rebuildLayout { state, trust, sink, suppress := false, localMachine, localScreen, changes := 0 } []

end Shared
end Omnipresent
