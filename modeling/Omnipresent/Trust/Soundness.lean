import Omnipresent.Trust.Records

/-! Nothing is trusted that was not in the trust file or accepted: the history
of every record that a decision can rest on. -/
namespace Omnipresent
open Transition

def DiskFile.peers : DiskFile → List PeerRecord
  | .records peers => peers
  | .missing | .unreadable _ | .invalid _ => []

/-- Accepts and removals only, each with any outcome of its write. -/
def TrustCall : TrustState → TrustOp → TrustState → Prop :=
  guarded TrustStep fun _ op => op.IsCall

/-- A record with a history along the calls: the file held it or a call accepted
it, no later call cleared it, and it has been among the records ever since. -/
inductive Held (file : List PeerRecord) (start : TrustState) :
    List TrustOp → TrustState → PeerRecord → Prop where
  | loaded : r ∈ file → r ∈ start.peers → Held file start [] start r
  | accepted : Reaches TrustCall start ops s →
      TrustCall s (.accept fingerprint host write) t →
      ⟨host, fingerprintHex fingerprint⟩ ∈ t.peers →
      Held file start (ops ++ [.accept fingerprint host write]) t ⟨host, fingerprintHex fingerprint⟩
  | kept : Held file start ops s r → TrustCall s op t → ¬ op.Clears r → r ∈ t.peers →
      Held file start (ops ++ [op]) t r

/-- One call: every record left was there before and not cleared, or is the one
the call accepted. -/
theorem TrustCall.records (call : TrustCall s op t) (member : r ∈ t.peers) :
    (r ∈ s.peers ∧ ¬ op.Clears r) ∨
      ∃ fingerprint host write, op = .accept fingerprint host write ∧
        r = ⟨host, fingerprintHex fingerprint⟩ := by
  obtain ⟨isCall, step⟩ := call
  cases step with
  | @accept _ fingerprint host write =>
    rw [TrustState.accept_peers] at member
    rcases mem_acceptRecords member with rfl | kept
    · exact .inr ⟨fingerprint, host, write, rfl, rfl⟩
    · obtain ⟨old, unclaimed⟩ := mem_retainHost.mp kept
      refine .inl ⟨old, ?_⟩
      cases host with
      | none => exact id
      | some host =>
        rintro ⟨named, distinct⟩
        rcases unclaimed with text | other
        · exact distinct text
        · exact other host rfl named
  | @remove _ selector write =>
    rw [TrustState.remove_peers, mem_removeRecords] at member
    exact .inl ⟨member.1, by simp [TrustOp.Clears, member.2]⟩
  | reload => exact absurd isCall id

theorem load_peers (loaded : TrustState.load disk write = .ok start) (member : r ∈ start.peers) :
    r ∈ disk.peers := by
  cases disk with
  | missing =>
    cases loaded
    exact member
  | unreadable | invalid => simp [TrustState.load] at loaded
  | records peers =>
    rw [(load_records loaded).1] at member
    exact mem_of_dedupHostPins member

theorem held_of_run (loaded : TrustState.load disk write = .ok start)
    (run : Reaches TrustCall start ops s) (member : r ∈ s.peers) :
    Held disk.peers start ops s r := by
  induction run generalizing r with
  | refl => exact .loaded (load_peers loaded member) member
  | next earlier last ih =>
    obtain ⟨old, spared⟩ | ⟨fingerprint, host, write, rfl, rfl⟩ := last.records member
    · exact .kept (ih old) last spared member
    · exact .accepted earlier last member

/-- Trust always rests on a record of exactly this fingerprint, all 32 bytes,
that was loaded or accepted and has been neither removed nor displaced. -/
theorem isTrusted_held (loaded : TrustState.load disk write = .ok start)
    (run : Reaches TrustCall start ops s) (trusted : s.isTrusted fingerprint = true) :
    ∃ r, Held disk.peers start ops s r ∧ parseFingerprint r.fingerprint = some fingerprint := by
  obtain ⟨r, member, parsed⟩ := isTrusted_mem trusted
  exact ⟨r, held_of_run loaded run member, parsed⟩

theorem isTrusted_held_first :
    ∃ r, Held [] ⟨.missing, []⟩ [.accept (.filled 4) (some "desk") .done]
        (TrustState.accept ⟨.missing, []⟩ .done (.filled 4) (some "desk")).1 r ∧
      parseFingerprint r.fingerprint = some (.filled 4) :=
  isTrusted_held (show TrustState.load .missing .done = .ok ⟨.missing, []⟩ from rfl)
    (.single ⟨trivial, .accept⟩) (by decide +kernel)

end Omnipresent
