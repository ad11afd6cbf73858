import Omnipresent.Daemon.Connection

/-! The requests of the command line that change what the daemon's tasks share.
Saving the configuration is outside: how it ends only picks the answer. -/
namespace Omnipresent

inductive Response where
  | ok
  | error (message : String)
deriving DecidableEq, Repr

inductive ConfigWrite where
  | saved
  | unsaved (reason : String)
  | unread (reason : String)
deriving DecidableEq, Repr

/-- The code points `str::trim` takes for white space. -/
def isWhitespace (c : Char) : Bool :=
  let n := c.toNat
  (9 ≤ n && n ≤ 13) || n = 0x20 || n = 0x85 || n = 0xA0 || n = 0x1680 || (0x2000 ≤ n && n ≤ 0x200A) ||
    n = 0x2028 || n = 0x2029 || n = 0x202F || n = 0x205F || n = 0x3000

/-- `name.trim().to_ascii_lowercase()`. -/
def normalizeName (name : String) : String :=
  let trimmed := ((name.toList.dropWhile isWhitespace).reverse.dropWhile isWhitespace).reverse
  String.ofList (trimmed.map Char.toLower)

def parseEdge (name : String) : Option Edge :=
  match normalizeName name with
  | "left" => some .left
  | "right" => some .right
  | "top" | "up" => some .top
  | "bottom" | "down" => some .bottom
  | _ => none

def ModifierSwap.parse (name : String) : Option ModifierSwap :=
  match normalizeName name with
  | "none" | "off" => some .none
  | "meta-control" | "meta_control" | "cmd-ctrl" | "swap" | "on" => some .metaAndControl
  | _ => none

def edgeName : Edge → String
  | .left => "left"
  | .right => "right"
  | .top => "top"
  | .bottom => "bottom"

def ModifierSwap.name : ModifierSwap → String
  | .none => "none"
  | .metaAndControl => "meta-control"

theorem parseEdge_edgeName (edge : Edge) : parseEdge (edgeName edge) = some edge := by
  cases edge <;> decide

theorem ModifierSwap.parse_name (swap : ModifierSwap) : ModifierSwap.parse swap.name = some swap := by
  cases swap <;> decide

/-- A link a selector names: by host, or by a prefix of the fingerprint. -/
def PeerLink.selected (self : PeerLink) (selector : String) : Bool :=
  self.host = selector || self.fingerprint.display.startsWith selector

def PendingRequest.selected (self : PendingRequest) (selector : String) : Bool :=
  self.host = selector || self.fingerprint.display.startsWith selector

namespace Shared

/-- Places a peer host past an edge: for next time, and for any live session. -/
def setLayout (self : Shared) (host edge : String) (config : ConfigWrite) (order : List MachineId) :
    Shared × Response :=
  match parseEdge edge with
  | none => (self, .error s!"unknown edge '{edge}' — use left, right, top, or bottom")
  | some edge =>
    let placed :=
      { self with
        state.placements := self.state.placements.insert host edge
        state.links := self.state.links.map fun _ (link : PeerLink) =>
          if link.host = host then { link with edge } else link }
    let placed :=
      if placed.state.links = ∅ then placed else (placed.rebuildLayout order).syncSuppression
    (placed.notifyChange, match config with
      | .saved => .ok
      | .unsaved reason => .error s!"placed for now, but could not save it: {reason}"
      | .unread reason => .error s!"placed for now, but could not read the config to save it: {reason}")

def setModifierSwap (self : Shared) (host swap : String) (config : ConfigWrite) : Shared × Response :=
  match ModifierSwap.parse swap with
  | none => (self, .error s!"unknown swap '{swap}' — use none or meta-control")
  | some modifierSwap =>
    let set :=
      { self with
        state.modifierSwaps := self.state.modifierSwaps.insert host modifierSwap
        state.links := self.state.links.map fun _ (link : PeerLink) =>
          if link.host = host then { link with modifierSwap } else link }
    (set.notifyChange, match config with
      | .saved => .ok
      | .unsaved reason => .error s!"applied for now, but could not save it: {reason}"
      | .unread reason => .error s!"applied for now, but could not read the config to save it: {reason}")

def findLink (self : Shared) (selector : String) (order : List MachineId) : Option MachineId :=
  ((self.state.links.iter order).find? fun entry => entry.2.selected selector).map Prod.fst

def disconnect (self : Shared) (host : String) (order : List MachineId) : Shared × Response :=
  match self.findLink host order with
  | some machine => (self.send machine .disconnect, .ok)
  | none => (self, .error s!"no active session with {host}")

/-- Forgets a peer, after dropping a live session with it. -/
def removePeer (self : Shared) (selector : String) (order : List MachineId) (write : Write) :
    Shared × Response :=
  let dropped := match self.findLink selector order with
    | some machine => self.send machine .disconnect
    | none => self
  let (trust, removed) := dropped.trust.remove write selector
  ({ dropped with trust }, match removed with
    | .ok true => .ok
    | .ok false => .error s!"no known peer matches {selector}"
    | .error e => .error s!"could not update the trust store: {e.display}")

/-- Answers the first pending request the selector names, and takes it off the
list; the handler told is returned too. -/
def decidePending (self : Shared) (selector : String) : Shared × Option Nat × Response :=
  match self.state.pending.find? (·.selected selector) with
  | some request =>
    ({ self with state.pending := self.state.pending.eraseP (·.selected selector) }.notifyChange,
      some request.decision, .ok)
  | none => (self, none, .error s!"no pending request matches {selector}")

end Shared
end Omnipresent
