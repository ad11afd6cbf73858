import Omnipresent.Daemon.Config

/-! The requests a client can make, and the daemon's answers to them. What the outside
has to say (the file system, the peer that is dialled, the order of a pass) comes with
the request. -/
namespace Omnipresent

def protocolVersion : UInt32 := 1

def daemonVersion : String := "0.9.1"

inductive Request where
  | hello
  | subscribe
  | status
  | stop
  | connect (host : String)
  | disconnect (host : String)
  | accept (selector : String)
  | reject (selector : String)
  | peers
  | removePeer (selector : String)
  | layout (host edge : Option String)
  | clipboard (enabled : Bool)
  | modifiers (host swap : Option String)
deriving DecidableEq, Repr

inductive Reply where
  | answer (response : Response)
  | hello (protocolVersion : UInt32) (daemonVersion : String)
  | status (info : StatusInfo)
  | peers (peers : List PeerInfo)
  | layout (placements : List LayoutInfo)
  | modifiers (swaps : List ModifierInfo)
deriving DecidableEq, Repr

/-- A dialled peer that accepted: the host it was dialled by, and what it sent. -/
structure Accepted where
  host : String
  fingerprint : Fingerprint
  session : SessionId
  screen : ScreenSize

structure Outside where
  passes : Passes
  /-- The pass over the links as the request leaves them. -/
  order : List MachineId
  write : Write
  config : ConfigWrite
  dial : Except String Accepted

def Shared.ConnectError.display : Shared.ConnectError → String
  | trust e => s!"could not persist trust: {e.display}"
  | session e => s!"cannot establish session: {e.display}"

namespace Daemon

def connect (self : Daemon) (outside : Outside) : Daemon × Response :=
  match outside.dial with
  | .error message => (self, .error message)
  | .ok accepted =>
    match self.shared.doConnect accepted.host accepted.fingerprint accepted.session accepted.screen outside.write
      outside.order with
    | (shared, .ok ()) => ({ self with shared }, .ok)
    | (shared, .error e) => ({ self with shared }, .error e.display)

def dispatch (self : Daemon) (outside : Outside) : Request → Daemon × Reply
  | .hello => (self, .hello protocolVersion daemonVersion)
  | .subscribe => (self, .answer (.error "subscribe is handled at the connection level"))
  | .status => (self, .status (self.status outside.passes))
  | .stop => (self, .answer .ok)
  | .connect _ => (self.connect outside).map id .answer
  | .disconnect host =>
    let (shared, response) := self.shared.disconnect host outside.order
    ({ self with shared }, .answer response)
  | .accept selector | .reject selector =>
    let (shared, _, response) := self.shared.decidePending selector
    ({ self with shared }, .answer response)
  | .peers => (self, .peers (self.shared.listPeers outside.passes))
  | .removePeer selector =>
    let (shared, response) := self.shared.removePeer selector outside.order outside.write
    ({ self with shared }, .answer response)
  | .layout (some host) (some edge) => (self.set outside.config (.layout host edge outside.order)).map id .answer
  | .layout none none => (self, .layout (self.shared.listLayout outside.passes))
  | .layout _ _ => (self, .answer
      (.error "give both a host and an edge to place a peer, or neither to list placements"))
  | .clipboard enabled => (self.set outside.config (.clipboard enabled)).map id .answer
  | .modifiers (some host) (some swap) => (self.set outside.config (.modifiers host swap)).map id .answer
  | .modifiers none none => (self, .modifiers (self.shared.listModifierSwaps outside.passes))
  | .modifiers _ _ => (self, .answer (.error "give both a host and a swap to set one, or neither to list them"))

end Daemon
end Omnipresent
