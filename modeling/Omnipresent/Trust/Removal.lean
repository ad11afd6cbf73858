import Omnipresent.Trust.Hosts

/-! Which records a removal takes out. The selector is one free-form text, tried on every
record as a host and as the beginning of a fingerprint. -/
namespace Omnipresent
open Transition

/-- Recorded before the removal, and no longer after. -/
def TrustState.Deletes (s : TrustState) (write : Write) (selector : String) (r : PeerRecord) : Prop :=
  r ∈ s.peers ∧ r ∉ (s.remove write selector).1.peers

instance (s : TrustState) (write : Write) (selector : String) (r : PeerRecord) :
    Decidable (s.Deletes write selector r) := inferInstanceAs (Decidable (_ ∧ _))

/-- The selector can name one peer only: the fingerprints that begin with it are one, the
records of the host it is have one, and these two are the same. -/
structure Unambiguous (peers : List PeerRecord) (selector : String) : Prop where
  fingerprints : ∀ r ∈ peers, ∀ r' ∈ peers, r.fingerprint.startsWith selector = true →
    r'.fingerprint.startsWith selector = true → r.fingerprint = r'.fingerprint
  hosts : ∀ r ∈ peers, ∀ r' ∈ peers, r.host = some selector → r'.host = some selector →
    r.fingerprint = r'.fingerprint
  apart : ∀ r ∈ peers, ∀ r' ∈ peers, r.host = some selector → r'.fingerprint.startsWith selector = true →
    r.fingerprint = r'.fingerprint

theorem PeerRecord.selected_iff : PeerRecord.selected r selector = true ↔
    r.host = some selector ∨ r.fingerprint.startsWith selector = true := by
  rw [PeerRecord.selected, Bool.or_eq_true, decide_eq_true_eq]

theorem TrustState.deletes_iff {s : TrustState} :
    s.Deletes write selector r ↔ r ∈ s.peers ∧ r.selected selector = true := by
  rw [Deletes, remove_peers, mem_removeRecords]
  refine and_congr_right fun member => ?_
  rw [not_and, Bool.not_eq_false]
  exact ⟨fun selected => selected member, fun selected _ => selected⟩

theorem unambiguous_iff : Unambiguous peers selector ↔
    ∀ r ∈ peers, ∀ r' ∈ peers, r.selected selector = true → r'.selected selector = true →
      r.fingerprint = r'.fingerprint := by
  constructor
  · intro one r member r' member' selected selected'
    rcases PeerRecord.selected_iff.mp selected with host | text <;>
      rcases PeerRecord.selected_iff.mp selected' with host' | text'
    · exact one.hosts r member r' member' host host'
    · exact one.apart r member r' member' host text'
    · exact (one.apart r' member' r member host' text).symm
    · exact one.fingerprints r member r' member' text text'
  · intro one
    have named : ∀ {r : PeerRecord}, r.host = some selector → r.selected selector = true :=
      fun host => PeerRecord.selected_iff.mpr (.inl host)
    have begins : ∀ {r : PeerRecord}, r.fingerprint.startsWith selector = true → r.selected selector = true :=
      fun text => PeerRecord.selected_iff.mpr (.inr text)
    exact ⟨fun r member r' member' text text' => one r member r' member' (begins text) (begins text'),
      fun r member r' member' host host' => one r member r' member' (named host) (named host'),
      fun r member r' member' host text => one r member r' member' (named host) (begins text)⟩

/-- A removal deletes the records of one peer, and never all of several peers it names,
exactly when the selector can name one peer only. -/
theorem remove_one_peer_iff (s : TrustState) (write : Write) (selector : String) :
    ((∀ r r', s.Deletes write selector r → s.Deletes write selector r' → r.fingerprint = r'.fingerprint) ∧
      ∀ r ∈ s.peers, ∀ r' ∈ s.peers, r.selected selector = true → r'.selected selector = true →
        r.fingerprint ≠ r'.fingerprint → ∃ kept ∈ s.peers, kept.selected selector = true ∧
          ¬ s.Deletes write selector kept) ↔ Unambiguous s.peers selector := by
  rw [unambiguous_iff]
  constructor
  · rintro ⟨one, _⟩ r member r' member' selected selected'
    exact one r r' (TrustState.deletes_iff.mpr ⟨member, selected⟩)
      (TrustState.deletes_iff.mpr ⟨member', selected'⟩)
  · intro one
    refine ⟨fun r r' deleted deleted' => ?_, fun r member r' member' selected selected' distinct => ?_⟩
    · obtain ⟨member, selected⟩ := TrustState.deletes_iff.mp deleted
      obtain ⟨member', selected'⟩ := TrustState.deletes_iff.mp deleted'
      exact one r member r' member' selected selected'
    · exact absurd (one r member r' member' selected selected') distinct

/-- Along a run from a loaded file the host part takes care of itself: what is left to ask
is which fingerprints begin with the selector. -/
theorem unambiguous_of_run (loaded : TrustState.load disk write = .ok start)
    (run : Reaches TrustStep start ops s) : Unambiguous s.peers selector ↔
    ∀ r ∈ s.peers, r.fingerprint.startsWith selector = true → ∀ r' ∈ s.peers,
      r'.host = some selector ∨ r'.fingerprint.startsWith selector = true → r'.fingerprint = r.fingerprint := by
  constructor
  · intro one r member text r' member' selected
    rcases selected with host | text'
    · exact one.apart r' member' r member host text
    · exact one.fingerprints r' member' r member text' text
  · intro one
    refine ⟨fun r member r' member' text text' => (one r member text r' member' (.inr text')).symm, ?_,
      fun r member r' member' host text => one r' member' text r member (.inl host)⟩
    have single := run.invariant (P := fun s => SingleCertificate s.peers) .step (load_single loaded)
    exact fun r member r' member' => single r member r' member' selector

def confusable : List PeerRecord :=
  [⟨some "ca", fingerprintHex (.filled 3)⟩, ⟨some "desk", fingerprintHex (.filled 0xca)⟩]

/-- That name deletes both of them, and so does no text at all. -/
theorem remove_deletes_both :
    fingerprintHex (.filled 3) ≠ fingerprintHex (.filled 0xca) ∧ ∀ selector ∈ ["ca", ""], ∀ r ∈ confusable,
      (TrustState.mk (.records confusable) confusable).Deletes .done selector r := by
  decide +kernel

end Omnipresent
