import Omnipresent.Protocol.Ids
import Mathlib.Data.Finset.Erase
import Mathlib.Data.Finset.Insert

/-! The trust policy: an allowlist first, then the pinned fingerprint. -/
namespace Omnipresent

structure AllowList where
  peers : Finset PeerId

namespace AllowList

def new : AllowList := ⟨∅⟩

def allow (self : AllowList) (peer : PeerId) : AllowList := ⟨insert peer self.peers⟩

def remove (self : AllowList) (peer : PeerId) : AllowList := ⟨self.peers.erase peer⟩

def contains (self : AllowList) (peer : PeerId) : Bool := peer ∈ self.peers

end AllowList

structure PeerIdentity where
  peer : PeerId
  fingerprint : Fingerprint
deriving DecidableEq

inductive TrustDecision where
  | trusted
  | trustOnFirstUse
  | notAllowed
  | fingerprintMismatch
deriving DecidableEq, Repr

def TrustDecision.isTrusted (decision : TrustDecision) : Bool := decision = .trusted

def evaluate (allowlist : AllowList) (pinned : Option Fingerprint) (identity : PeerIdentity) :
    TrustDecision :=
  if !allowlist.contains identity.peer then .notAllowed
  else match pinned with
    | none => .trustOnFirstUse
    | some fingerprint =>
      if fingerprint = identity.fingerprint then .trusted else .fingerprintMismatch

theorem evaluate_isTrusted : (evaluate allowlist pinned identity).isTrusted = true ↔
    allowlist.contains identity.peer = true ∧ pinned = some identity.fingerprint := by
  unfold evaluate
  cases listed : allowlist.contains identity.peer with
  | false => simp [TrustDecision.isTrusted]
  | true =>
    cases pinned with
    | none => simp [TrustDecision.isTrusted]
    | some fingerprint =>
      by_cases same : fingerprint = identity.fingerprint <;> simp [TrustDecision.isTrusted, same]

end Omnipresent
