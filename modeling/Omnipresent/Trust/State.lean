import Omnipresent.Security.Evaluate
import Omnipresent.Trust.Fingerprint
import Omnipresent.UpdateFirst

/-! The daemon's trust state: the records in memory, the trust file they are
saved to, and the decisions read off them. The file system's answer to a write
is an input, and so is whether the file still parses after a failed one. -/
namespace Omnipresent

structure PeerRecord where
  host : Option String
  fingerprint : String
deriving DecidableEq, Repr

/-- The trust file as a later `load` would read it. -/
inductive DiskFile where
  | missing
  | unreadable (reason : String)
  | invalid (reason : String)
  | records (peers : List PeerRecord)
deriving DecidableEq, Repr

/-- How a write of the trust file ends: done, refused with the file left as it
was, or broken off half way with a file that no longer parses. -/
inductive Write where
  | done
  | failed (reason : String)
  | torn (reason parse : String)
deriving DecidableEq, Repr

inductive TrustError where
  | io (reason : String)
  | parse (reason : String)
deriving DecidableEq, Repr

def TrustError.display : TrustError → String
  | io reason => s!"trust store i/o failed: {reason}"
  | parse reason => s!"trust store file is invalid: {reason}"

structure TrustState where
  disk : DiskFile
  peers : List PeerRecord
deriving DecidableEq, Repr

/-- The walk of `dedup_host_pins`: newest first, one record for each host. -/
def keepNewest : List String → List PeerRecord → List PeerRecord
  | _, [] => []
  | seen, r :: rest => match r.host with
    | some host => if host ∈ seen then keepNewest seen rest else r :: keepNewest (host :: seen) rest
    | none => r :: keepNewest seen rest

/-- The records left, and whether any was dropped. -/
def dedupHostPins (peers : List PeerRecord) : List PeerRecord × Bool :=
  let kept := (keepNewest [] peers.reverse).reverse
  (kept, kept.length ≠ peers.length)

/-- `MemStore::allowlist`. -/
def allowlistOf (peers : List PeerRecord) : AllowList :=
  peers.foldl (fun list record => match parseFingerprint record.fingerprint with
    | some fingerprint => list.allow (peerIdOf fingerprint)
    | none => list) .new

/-- `MemStore::pinned`: the first record keyed on this peer. -/
def pinnedOf (peers : List PeerRecord) (peer : PeerId) : Option Fingerprint :=
  (peers.filterMap fun record => parseFingerprint record.fingerprint).find? fun fingerprint =>
    peerIdOf fingerprint = peer

def decideInbound (peers : List PeerRecord) (fingerprint : Fingerprint) : TrustDecision :=
  let peer := peerIdOf fingerprint
  evaluate (allowlistOf peers) (pinnedOf peers peer) ⟨peer, fingerprint⟩

def isTrusted (peers : List PeerRecord) (fingerprint : Fingerprint) : Bool :=
  (decideInbound peers fingerprint).isTrusted

/-- The records `accept` first drops are the other claims to the host. -/
def retainHost (peers : List PeerRecord) (hex : String) : Option String → List PeerRecord
  | some host => peers.filter fun r => r.fingerprint = hex || r.host ≠ some host
  | none => peers

/-- The host of the record found, replaced when one is given. -/
def PeerRecord.rehost (host : Option String) (r : PeerRecord) : PeerRecord :=
  match host with
  | some host => { r with host := some host }
  | none => r

def acceptRecords (peers : List PeerRecord) (hex : String) (host : Option String) :
    List PeerRecord :=
  let peers := retainHost peers hex host
  match updateFirst (fun r => r.fingerprint = hex) (PeerRecord.rehost host) peers with
  | some peers => peers
  | none => peers ++ [⟨host, hex⟩]

/-- A record a selector names: by host, or by a prefix of the fingerprint. -/
def PeerRecord.selected (r : PeerRecord) (selector : String) : Bool :=
  r.host = some selector || r.fingerprint.startsWith selector

def removeRecords (peers : List PeerRecord) (selector : String) : List PeerRecord :=
  peers.filter fun r => !r.selected selector

structure PolicyViolation where
  reason : String
deriving DecidableEq, Repr

namespace TrustState

def save (self : TrustState) : Write → TrustState × Except TrustError Unit
  | .done => ({ self with disk := .records self.peers }, .ok ())
  | .failed reason => (self, .error (.io reason))
  | .torn reason parse => ({ self with disk := .invalid parse }, .error (.io reason))

def load (disk : DiskFile) (write : Write) : Except TrustError TrustState :=
  match disk with
  | .missing => .ok ⟨disk, []⟩
  | .unreadable reason => .error (.io reason)
  | .invalid reason => .error (.parse reason)
  | .records peers =>
    let (kept, dropped) := dedupHostPins peers
    if dropped then
      match save ⟨disk, kept⟩ write with
      | (state, .ok ()) => .ok state
      | (_, .error e) => .error e
    else .ok ⟨disk, kept⟩

def isTrusted (self : TrustState) (fingerprint : Fingerprint) : Bool :=
  Omnipresent.isTrusted self.peers fingerprint

def accept (self : TrustState) (write : Write) (fingerprint : Fingerprint) (host : Option String) :
    TrustState × Except TrustError Unit :=
  save { self with peers := acceptRecords self.peers (fingerprintHex fingerprint) host } write

def remove (self : TrustState) (write : Write) (selector : String) :
    TrustState × Except TrustError Bool :=
  let kept := removeRecords self.peers selector
  let state := { self with peers := kept }
  if kept.length ≠ self.peers.length then
    match save state write with
    | (state, .ok ()) => (state, .ok true)
    | (state, .error e) => (state, .error e)
  else (state, .ok false)

def pinnedForHost (self : TrustState) (host : String) : Option Fingerprint :=
  (self.peers.find? fun r => r.host = some host).bind fun r => parseFingerprint r.fingerprint

def authorizeServer (self : TrustState) (host : String) (fingerprint : Fingerprint) :
    Except PolicyViolation Unit :=
  match self.pinnedForHost host with
  | some pinned =>
    if pinned ≠ fingerprint then
      .error ⟨"the server's certificate fingerprint changed since it was pinned"⟩
    else .ok ()
  | none => .ok ()

@[simp] theorem save_peers (self : TrustState) (write : Write) :
    (self.save write).1.peers = self.peers := by
  cases write <;> rfl

@[simp] theorem accept_peers (self : TrustState) (write : Write) (fingerprint : Fingerprint)
    (host : Option String) : (self.accept write fingerprint host).1.peers =
      acceptRecords self.peers (fingerprintHex fingerprint) host :=
  save_peers _ _

@[simp] theorem remove_peers (self : TrustState) (write : Write) (selector : String) :
    (self.remove write selector).1.peers = removeRecords self.peers selector := by
  simp only [remove]
  split
  · cases write <;> rfl
  · rfl

end TrustState

/-- One call on the live trust state, with the file system's answer to it.
`reload` is a restart of the daemon on the same file. -/
inductive TrustOp where
  | accept (fingerprint : Fingerprint) (host : Option String) (write : Write)
  | remove (selector : String) (write : Write)
  | reload (write : Write)
deriving DecidableEq

/-- A reload that fails leaves no trust state to go on with. -/
inductive TrustStep : TrustState → TrustOp → TrustState → Prop where
  | accept : TrustStep s (.accept fingerprint host write) (s.accept write fingerprint host).1
  | remove : TrustStep s (.remove selector write) (s.remove write selector).1
  | reload : TrustState.load s.disk write = .ok t → TrustStep s (.reload write) t

end Omnipresent
