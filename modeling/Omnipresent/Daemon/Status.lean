import Omnipresent.Clipboard.Manager
import Omnipresent.Daemon.Ipc

/-! The snapshot a client is shown, gathered from everything the daemon's tasks
share: the state under its lock, the trust store, the clipboard manager, and the flag
of the capture thread. -/
namespace Omnipresent

structure SessionInfo where
  host : String
  fingerprint : String
  role : String
  /-- Whether input is currently routed to this peer. -/
  active : Bool
deriving DecidableEq, Repr

structure PendingInfo where
  host : String
  fingerprint : String
deriving DecidableEq, Repr

structure PeerInfo where
  host : Option String
  fingerprint : String
  connected : Bool
deriving DecidableEq, Repr

structure LayoutInfo where
  host : String
  edge : String
  /-- From a live session, not only saved for the next one. -/
  connected : Bool
deriving DecidableEq, Repr

structure ModifierInfo where
  host : String
  swap : String
  connected : Bool
deriving DecidableEq, Repr

structure StatusInfo where
  fingerprint : String
  port : UInt16
  capturing : Bool
  clipboardSharing : Bool
  sessions : List SessionInfo
  pending : List PendingInfo
  peers : List PeerInfo
  placements : List LayoutInfo
  modifierSwaps : List ModifierInfo
deriving DecidableEq, Repr

/-- Everything the tasks share, the part under the state lock among it. -/
structure Daemon where
  shared : Shared
  clipboard : ClipboardManager
  localFingerprint : Fingerprint
  port : UInt16
  /-- Whether the capture thread is alive. -/
  capturing : Bool

/-- The order of one pass over each of the maps. -/
structure Passes where
  links : List MachineId
  placements : List String
  modifierSwaps : List String

namespace Shared

/-- Each pass goes through all of its map, every key once. -/
def CoveredBy (self : Shared) (passes : Passes) : Prop :=
  HashMap.Order passes.links self.state.links ∧ HashMap.Order passes.placements self.state.placements ∧
    HashMap.Order passes.modifierSwaps self.state.modifierSwaps

instance (self : Shared) (passes : Passes) : Decidable (self.CoveredBy passes) :=
  inferInstanceAs (Decidable (_ ∧ _ ∧ _))

theorem exists_coveredBy (self : Shared) : ∃ passes, self.CoveredBy passes := by
  obtain ⟨links, first⟩ := HashMap.exists_order self.state.links
  obtain ⟨placements, second⟩ := HashMap.exists_order self.state.placements
  obtain ⟨modifierSwaps, third⟩ := HashMap.exists_order self.state.modifierSwaps
  exact ⟨⟨links, placements, modifierSwaps⟩, first, second, third⟩

def liveLinks (self : Shared) (passes : Passes) : List PeerLink :=
  (self.state.links.iter passes.links).map Prod.snd

def savedOnly (self : Shared) (passes : Passes) (saved : HashMap String ν) (order : List String) :
    List (String × ν) :=
  (saved.iter order).filter fun entry => entry.1 ∉ (self.liveLinks passes).map PeerLink.host

/-- Live sessions first, then saved-but-not-connected hosts. -/
def listLayout (self : Shared) (passes : Passes) : List LayoutInfo :=
  let live := (self.liveLinks passes).map fun link => ⟨link.host, edgeName link.edge, true⟩
  let saved := (self.savedOnly passes self.state.placements passes.placements).map fun (host, edge) =>
    ⟨host, edgeName edge, false⟩
  (live ++ saved).mergeSort fun a b => a.host ≤ b.host

def listModifierSwaps (self : Shared) (passes : Passes) : List ModifierInfo :=
  let live := (self.liveLinks passes).map fun link => ⟨link.host, link.modifierSwap.name, true⟩
  let saved := (self.savedOnly passes self.state.modifierSwaps passes.modifierSwaps).map fun (host, swap) =>
    ⟨host, swap.name, false⟩
  (live ++ saved).mergeSort fun a b => a.host ≤ b.host

def listPeers (self : Shared) (passes : Passes) : List PeerInfo :=
  let connected := (self.liveLinks passes).map fun link => link.fingerprint.display
  self.trust.peers.map fun record =>
    ⟨record.host, record.fingerprint, connected.contains record.fingerprint⟩

def listSessions (self : Shared) (passes : Passes) : List SessionInfo :=
  (self.liveLinks passes).map fun link =>
    { host := link.host
      fingerprint := link.fingerprint.display
      role := match link.role with
        | .controller => "controller"
        | .target => "target"
      active := self.state.sessions.active = .remote (machineIdOf link.fingerprint) }

end Shared

def Daemon.status (self : Daemon) (passes : Passes) : StatusInfo where
  fingerprint := self.localFingerprint.display
  port := self.port
  capturing := self.capturing
  clipboardSharing := self.clipboard.isEnabled
  sessions := self.shared.listSessions passes
  pending := self.shared.state.pending.map fun p => ⟨p.host, p.fingerprint.display⟩
  peers := self.shared.listPeers passes
  placements := self.shared.listLayout passes
  modifierSwaps := self.shared.listModifierSwaps passes

/-- A link as a status tells it: what is queued for the peer is not shown. -/
def PeerLink.shown (self : PeerLink) : PeerLink := { self with commands := [] }

namespace Shared
variable {s t u : Shared}

/-- Nothing a status reads under the state lock or from the trust store differs. -/
structure Alike (s t : Shared) : Prop where
  links : ∀ m, (s.state.links.lookup m).map PeerLink.shown = (t.state.links.lookup m).map PeerLink.shown
  active : s.state.sessions.active = t.state.sessions.active
  pending : s.state.pending = t.state.pending
  placements : s.state.placements = t.state.placements
  modifierSwaps : s.state.modifierSwaps = t.state.modifierSwaps
  peers : s.trust.peers = t.trust.peers

namespace Alike

theorem refl (s : Shared) : s.Alike s := ⟨fun _ => rfl, rfl, rfl, rfl, rfl, rfl⟩

theorem trans (first : s.Alike t) (second : t.Alike u) : s.Alike u where
  links m := (first.links m).trans (second.links m)
  active := first.active.trans second.active
  pending := first.pending.trans second.pending
  placements := first.placements.trans second.placements
  modifierSwaps := first.modifierSwaps.trans second.modifierSwaps
  peers := first.peers.trans second.peers

theorem coveredBy (alike : s.Alike t) (passes : Passes) : s.CoveredBy passes ↔ t.CoveredBy passes := by
  have linked (m) : m ∈ s.state.links ↔ m ∈ t.state.links := by
    have same := congrArg Option.isSome (alike.links m)
    rw [Option.isSome_map, Option.isSome_map] at same
    rw [← Finmap.lookup_isSome, ← Finmap.lookup_isSome, same]
  rw [CoveredBy, CoveredBy, HashMap.order_congr linked, alike.placements, alike.modifierSwaps]

theorem liveLinks (alike : s.Alike t) (passes : Passes) (f : PeerLink → α) (blind : ∀ link, f link.shown = f link) :
    (s.liveLinks passes).map f = (t.liveLinks passes).map f := by
  have read (shared : Shared) : (shared.liveLinks passes).map f = passes.links.filterMap fun m =>
      ((shared.state.links.lookup m).map PeerLink.shown).map f := by
    simp only [Shared.liveLinks, HashMap.iter, List.map_filterMap, Option.map_map]
    congr 1
    funext m
    congr 1
    funext link
    exact (blind link).symm
  simp only [read, alike.links]

theorem savedOnly (alike : s.Alike t) (passes : Passes) (saved : HashMap String ν) (order : List String) :
    s.savedOnly passes saved order = t.savedOnly passes saved order := by
  rw [Shared.savedOnly, alike.liveLinks passes PeerLink.host fun _ => rfl]
  rfl

theorem listLayout (alike : s.Alike t) (passes : Passes) : s.listLayout passes = t.listLayout passes := by
  unfold Shared.listLayout
  rw [alike.liveLinks passes _ fun _ => rfl, alike.placements, alike.savedOnly]

theorem listModifierSwaps (alike : s.Alike t) (passes : Passes) :
    s.listModifierSwaps passes = t.listModifierSwaps passes := by
  unfold Shared.listModifierSwaps
  rw [alike.liveLinks passes _ fun _ => rfl, alike.modifierSwaps, alike.savedOnly]

theorem listPeers (alike : s.Alike t) (passes : Passes) : s.listPeers passes = t.listPeers passes := by
  unfold Shared.listPeers
  rw [alike.liveLinks passes _ fun _ => rfl, alike.peers]

theorem listSessions (alike : s.Alike t) (passes : Passes) : s.listSessions passes = t.listSessions passes := by
  unfold Shared.listSessions
  rw [alike.active]
  exact alike.liveLinks passes _ fun _ => rfl

end Alike
end Shared

namespace Daemon
variable {s t : Daemon}

theorem status_congr (alike : s.shared.Alike t.shared) (fingerprint : s.localFingerprint = t.localFingerprint)
    (port : s.port = t.port) (capturing : s.capturing = t.capturing)
    (enabled : s.clipboard.enabled = t.clipboard.enabled) (passes : Passes) :
    s.status passes = t.status passes := by
  simp only [status, fingerprint, port, capturing, ClipboardManager.isEnabled, enabled, alike.listSessions passes,
    alike.pending, alike.listPeers passes, alike.listLayout passes, alike.listModifierSwaps passes]

/-- The records of the trust store can be read back off a status. -/
theorem peers_of_status (passes : Passes) :
    (s.status passes).peers.map (fun peer => PeerRecord.mk peer.host peer.fingerprint) = s.shared.trust.peers := by
  simp only [status, Shared.listPeers, List.map_map]
  exact List.map_id _

end Daemon
end Omnipresent
