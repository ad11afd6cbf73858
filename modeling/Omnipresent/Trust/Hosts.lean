import Omnipresent.Trust.Pins

/-! A host maps to a single certificate: `load` leaves one record for each host,
and no call, however its save ends, records a second fingerprint for one. -/
namespace Omnipresent
open Transition

/-- Records that name the same host carry the same fingerprint. -/
def SingleCertificate (peers : List PeerRecord) : Prop :=
  ∀ r ∈ peers, ∀ r' ∈ peers, ∀ host, r.host = some host → r'.host = some host → r.fingerprint = r'.fingerprint

def PeerRecord.apart (hex host : String) (r : PeerRecord) : Bool := r.fingerprint ≠ hex ∧ r.host ≠ some host

theorem SingleCertificate.subset (single : SingleCertificate peers) (subset : ∀ r ∈ kept, r ∈ peers) :
    SingleCertificate kept :=
  fun r member r' member' => single r (subset r member) r' (subset r' member')

theorem keepNewest_unseen (member : r ∈ keepNewest seen l) (named : r.host = some host) : host ∉ seen := by
  induction l generalizing seen with
  | nil => simp [keepNewest] at member
  | cons a rest ih =>
    rw [keepNewest] at member
    split at member
    · rename_i other present
      split at member
      · exact ih member
      · rename_i unseen
        rcases List.mem_cons.mp member with rfl | later
        · exact Option.some.inj (present.symm.trans named) ▸ unseen
        · exact fun met => ih later (List.mem_cons_of_mem _ met)
    · rename_i absent
      rcases List.mem_cons.mp member with rfl | later
      · cases absent.symm.trans named
      · exact ih later

theorem keepNewest_single (seen : List String) (l : List PeerRecord) : SingleCertificate (keepNewest seen l) := by
  induction l generalizing seen with
  | nil => exact fun r member => absurd member List.not_mem_nil
  | cons a rest ih =>
    rw [keepNewest]
    split
    · rename_i other present
      split
      · exact ih seen
      · -- What the walk keeps after a record of this host is of other hosts.
        have distinct : ∀ r ∈ keepNewest (other :: seen) rest, r.host ≠ a.host := fun r member same =>
          keepNewest_unseen member (same.trans present) List.mem_cons_self
        intro r member r' member' host named named'
        rcases List.mem_cons.mp member with rfl | later <;> rcases List.mem_cons.mp member' with rfl | later'
        · rfl
        · exact absurd (named'.trans named.symm) (distinct r' later')
        · exact absurd (named.trans named'.symm) (distinct r later)
        · exact ih _ r later r' later' host named named'
    · rename_i absent
      intro r member r' member' host named named'
      rcases List.mem_cons.mp member with rfl | later
      · cases absent.symm.trans named
      · rcases List.mem_cons.mp member' with rfl | later'
        · cases absent.symm.trans named'
        · exact ih seen r later r' later' host named named'

/-- A load leaves one record for each host, whatever the file held. -/
theorem load_single (loaded : TrustState.load disk write = .ok s) : SingleCertificate s.peers := by
  cases disk with
  | missing =>
    cases loaded
    exact fun r member => absurd member List.not_mem_nil
  | unreadable | invalid => cases loaded
  | records peers =>
    rw [(load_records loaded).1]
    exact (keepNewest_single [] peers.reverse).subset fun r member => List.mem_reverse.mp member

theorem SingleCertificate.accept (single : SingleCertificate peers) (fingerprint : Fingerprint)
    (host : Option String) : SingleCertificate (acceptRecords peers (fingerprintHex fingerprint) host) := by
  intro r member r' member' name named named'
  by_cases own : host = some name
  · subst own
    have texts := (acceptRecords_pinned peers name fingerprint).2
    exact (texts r member named).trans (texts r' member' named').symm
  · have kept : ∀ x ∈ acceptRecords peers (fingerprintHex fingerprint) host, x.host = some name → x ∈ peers := by
      intro x listed about
      obtain rfl | listed := mem_acceptRecords listed
      · exact absurd about own
      · exact (mem_retainHost.mp listed).1
    exact single r (kept r member named) r' (kept r' member' named') name named named'

theorem SingleCertificate.step (single : SingleCertificate s.peers) (step : TrustStep s op t) :
    SingleCertificate t.peers := by
  cases step with
  | accept =>
    rw [TrustState.accept_peers]
    exact single.accept _ _
  | remove =>
    rw [TrustState.remove_peers]
    exact single.subset fun r member => (mem_removeRecords.mp member).1
  | reload loaded => exact load_single loaded

/-- An acceptance leaves the records of other fingerprints and other hosts, in their order. -/
theorem acceptRecords_apart (peers : List PeerRecord) (hex host : String) :
    (acceptRecords peers hex (some host)).filter (·.apart hex host) = peers.filter (·.apart hex host) := by
  have retained : (retainHost peers hex (some host)).filter (·.apart hex host) =
      peers.filter (·.apart hex host) := by
    rw [retainHost, List.filter_filter]
    congr 1
    funext r
    by_cases text : r.fingerprint = hex <;> simp [PeerRecord.apart, text]
  rw [← retained]
  obtain ⟨before, r, after, split, hit, _, result⟩ | ⟨_, result⟩ := acceptRecords_cases peers hex (some host)
  · have old : r.apart hex host = false := by simp [PeerRecord.apart, hit]
    have new : (r.rehost (some host)).apart hex host = false := by simp [PeerRecord.apart, PeerRecord.rehost]
    rw [result, split, List.filter_append, List.filter_append, List.filter_cons_of_neg (by simp [new]),
      List.filter_cons_of_neg (by simp [old])]
  · simp [result, PeerRecord.apart]

/-- Along every run from a loaded file no host has two fingerprints; and once one is accepted
for a host, it is the only one the host can show, and the other records are as they were. -/
theorem one_certificate (loaded : TrustState.load disk write = .ok start) (run : Reaches TrustStep start ops s) :
    SingleCertificate s.peers ∧
    ∀ write fingerprint host t, s.accept write fingerprint (some host) = (t, .ok ()) →
      t.pinnedForHost host = some fingerprint ∧
      (∀ other, t.authorizeServer host other = .ok () ↔ other = fingerprint) ∧
      t.peers.filter (·.apart (fingerprintHex fingerprint) host) =
        s.peers.filter (·.apart (fingerprintHex fingerprint) host) := by
  refine ⟨run.invariant (P := fun s => SingleCertificate s.peers) .step (load_single loaded), ?_⟩
  intro write fingerprint host t accepted
  have pinned := (PinKept.accepted accepted).memory
  refine ⟨pinned.pinnedForHost, fun other => ?_, ?_⟩
  · by_cases same : other = fingerprint
    · simp [TrustState.authorizeServer, pinned.pinnedForHost, same]
    · simp [pinned.authorizeServer same, same]
  · have after : (s.accept write fingerprint (some host)).1 = t := congrArg Prod.fst accepted
    rw [← after, TrustState.accept_peers]
    exact acceptRecords_apart ..

theorem one_certificate_rotated :
    (TrustState.mk (.records [⟨some "desk", fingerprintHex (.filled 5)⟩])
      [⟨some "desk", fingerprintHex (.filled 5)⟩]).pinnedForHost "desk" = some (.filled 5) := by
  have loaded : TrustState.load (.records [⟨some "desk", fingerprintHex (.filled 3)⟩,
      ⟨some "desk", fingerprintHex (.filled 4)⟩]) .done = .ok ⟨.records [⟨some "desk", fingerprintHex (.filled 4)⟩],
        [⟨some "desk", fingerprintHex (.filled 4)⟩]⟩ := rfl
  exact ((one_certificate loaded (.refl _)).2 .done (.filled 5) "desk" _ rfl).1

end Omnipresent
