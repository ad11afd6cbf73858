import Omnipresent.Trust.Records

/-! What a refused write leaves. `accept` and `remove` edit the records before they save
them, where `load` saves first, so the error comes after the change. -/
namespace Omnipresent

/-- What `accept` would record is recorded: the first record of the fingerprint has the host
given, if one is, and no other fingerprint has it. -/
structure Recorded (peers : List PeerRecord) (hex : String) (host : Option String) : Prop where
  first : ∃ r, peers.find? (·.fingerprint = hex) = some r ∧ (host = none ∨ r.host = host)
  alone : ∀ r ∈ peers, ∀ name, host = some name → r.host = some name → r.fingerprint = hex

theorem retainHost_eq_self : retainHost peers hex host = peers ↔
    ∀ r ∈ peers, ∀ name, host = some name → r.host = some name → r.fingerprint = hex := by
  cases host with
  | none => simp [retainHost]
  | some host =>
    rw [retainHost, List.filter_eq_self]
    simp only [Bool.or_eq_true, decide_eq_true_eq, Option.some.injEq, forall_eq']
    exact forall₂_congr fun r _ => by tauto

theorem rehost_eq_self (r : PeerRecord) : r.rehost host = r ↔ host = none ∨ r.host = host := by
  cases host with
  | none => simp [PeerRecord.rehost]
  | some host =>
    rw [PeerRecord.rehost, PeerRecord.mk.injEq]
    simp [eq_comm]

theorem retainHost_sublist (peers : List PeerRecord) (hex : String) (host : Option String) :
    (retainHost peers hex host).Sublist peers := by
  cases host with
  | none => exact List.Sublist.refl _
  | some host => exact List.filter_sublist

theorem acceptRecords_eq_self : acceptRecords peers hex host = peers ↔ Recorded peers hex host := by
  obtain ⟨before, r, after, split, hit, misses, result⟩ | ⟨misses, result⟩ := acceptRecords_cases peers hex host
  · have found : (retainHost peers hex host).find? (·.fingerprint = hex) = some r := by
      rw [split, List.find?_append, List.find?_eq_none.mpr (by simpa using misses), Option.none_or,
        List.find?_cons_of_pos (by simp [hit])]
    have kept : acceptRecords peers hex host = retainHost peers hex host ↔ host = none ∨ r.host = host := by
      rw [result, split, List.append_cancel_left_eq, List.cons.injEq, and_iff_left rfl, rehost_eq_self r]
    constructor
    · intro unchanged
      -- The records rewritten are as many as those retained, so none was dropped.
      have size : (retainHost peers hex host).length = peers.length := by
        rw [← congrArg List.length unchanged, result, split]
        simp
      have whole := (retainHost_sublist peers hex host).eq_of_length size
      exact ⟨⟨r, whole ▸ found, kept.mp (unchanged.trans whole.symm)⟩, retainHost_eq_self.mp whole⟩
    · intro recorded
      have whole := retainHost_eq_self.mpr recorded.alone
      obtain ⟨first, same, named⟩ := recorded.first
      rw [whole, same] at found
      exact (kept.mpr (Option.some.inj found ▸ named)).trans whole
  · constructor
    · intro unchanged
      -- The record appended was there, so it would have been retained and found.
      have appended : ⟨host, hex⟩ ∈ peers := by
        rw [← unchanged, result]
        exact List.mem_append_right _ List.mem_cons_self
      exact absurd rfl (misses _ (mem_retainHost.mpr ⟨appended, .inl rfl⟩))
    · intro recorded
      obtain ⟨first, same, _⟩ := recorded.first
      have text : first.fingerprint = hex := by simpa using List.find?_some same
      exact absurd text (misses first (mem_retainHost.mpr ⟨List.mem_of_find?_eq_some same, .inl text⟩))

theorem removeRecords_eq_self :
    removeRecords peers selector = peers ↔ ∀ r ∈ peers, r.selected selector = false := by
  simp [removeRecords, List.filter_eq_self]

theorem removeRecords_length : (removeRecords peers selector).length = peers.length ↔
    ∀ r ∈ peers, r.selected selector = false := by
  rw [← removeRecords_eq_self]
  exact ⟨(List.filter_sublist (l := peers)).eq_of_length, congrArg List.length⟩

/-- With the write refused and the file left as it was, an acceptance keeps the records only
where it had nothing to change, and a removal only where it did not come to write. -/
theorem refused_unchanged_iff (s : TrustState) (reason : String) :
    (∀ fingerprint host, (s.accept (.failed reason) fingerprint host).2 = .error (.io reason) ∧
      (s.accept (.failed reason) fingerprint host).1.disk = s.disk ∧
      ((s.accept (.failed reason) fingerprint host).1.peers = s.peers ↔
        Recorded s.peers (fingerprintHex fingerprint) host)) ∧
    ∀ selector, (s.remove (.failed reason) selector).1.disk = s.disk ∧
      ((s.remove (.failed reason) selector).2 = .error (.io reason) ↔ ∃ r ∈ s.peers, r.selected selector = true) ∧
      ((s.remove (.failed reason) selector).1.peers = s.peers ↔ ∀ r ∈ s.peers, r.selected selector = false) := by
  refine ⟨fun fingerprint host => ⟨rfl, rfl, ?_⟩, fun selector => ?_⟩
  · rw [TrustState.accept_peers]
    exact acceptRecords_eq_self
  · rw [TrustState.remove_peers, removeRecords_eq_self]
    by_cases kept : ∀ r ∈ s.peers, r.selected selector = false
    · have unwritten : s.remove (.failed reason) selector =
          ({ s with peers := removeRecords s.peers selector }, .ok false) :=
        if_neg (not_not_intro (removeRecords_length.mpr kept))
      rw [unwritten]
      refine ⟨rfl, iff_of_false nofun ?_, Iff.rfl⟩
      rintro ⟨r, member, selected⟩
      exact absurd selected (by simp [kept r member])
    · have written : s.remove (.failed reason) selector =
          ({ s with peers := removeRecords s.peers selector }, .error (.io reason)) :=
        if_pos fun same => kept (removeRecords_length.mp same)
      rw [written]
      refine ⟨rfl, iff_of_true rfl ?_, Iff.rfl⟩
      simpa using kept

/-- The first acceptance of all, its write refused: the caller gets the error, the file is
still missing, and the peer is trusted until the daemon stops. -/
theorem refused_accept_trusts :
    (TrustState.accept ⟨.missing, []⟩ (.failed "no space left") (.filled 3) (some "desk")).2 =
      .error (.io "no space left") ∧
    (TrustState.accept ⟨.missing, []⟩ (.failed "no space left") (.filled 3) (some "desk")).1 =
      ⟨.missing, [⟨some "desk", fingerprintHex (.filled 3)⟩]⟩ ∧
    (TrustState.accept ⟨.missing, []⟩ (.failed "no space left") (.filled 3) (some "desk")).1.isTrusted
      (.filled 3) = true := by
  refine ⟨rfl, rfl, ?_⟩
  decide +kernel

end Omnipresent
