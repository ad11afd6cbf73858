import Omnipresent.Trust.State
import Omnipresent.Transition

/-! What `accept`, `remove` and `load` do to the list of records: which records
they leave, which of them a call takes away, and which decision the list gives. -/
namespace Omnipresent

def AllowList.allowRecord (list : AllowList) (record : PeerRecord) : AllowList :=
  (parseFingerprint record.fingerprint).elim list fun fingerprint => list.allow (peerIdOf fingerprint)

theorem allowlistOf_eq_foldl (peers : List PeerRecord) :
    allowlistOf peers = peers.foldl AllowList.allowRecord .new := by
  rw [allowlistOf]
  congr
  funext list record
  simp only [AllowList.allowRecord]
  cases parseFingerprint record.fingerprint <;> rfl

theorem foldl_allowRecord_contains (peers : List PeerRecord) (list : AllowList) :
    (peers.foldl AllowList.allowRecord list).contains peer = true ↔ list.contains peer = true ∨
      ∃ r ∈ peers, ∃ fingerprint, parseFingerprint r.fingerprint = some fingerprint ∧
        peerIdOf fingerprint = peer := by
  induction peers generalizing list with
  | nil => simp
  | cons r rest ih =>
    rw [List.foldl_cons, ih, AllowList.allowRecord]
    cases parsed : parseFingerprint r.fingerprint with
    | none => simp [parsed]
    | some fingerprint =>
      simp only [Option.elim, AllowList.contains, AllowList.allow, Finset.mem_insert, decide_eq_true_eq,
        List.mem_cons, exists_eq_or_imp, parsed, Option.some.injEq, exists_eq_left']
      rw [or_comm (a := peer = peerIdOf fingerprint), or_assoc, eq_comm]

theorem allowlistOf_contains : (allowlistOf peers).contains peer = true ↔
    ∃ r ∈ peers, ∃ fingerprint, parseFingerprint r.fingerprint = some fingerprint ∧
      peerIdOf fingerprint = peer := by
  rw [allowlistOf_eq_foldl, foldl_allowRecord_contains]
  simp [AllowList.new, AllowList.contains]

theorem pinnedOf_cons (r : PeerRecord) (rest : List PeerRecord) (peer : PeerId) :
    pinnedOf (r :: rest) peer =
      match parseFingerprint r.fingerprint with
      | some fingerprint => if peerIdOf fingerprint = peer then some fingerprint else pinnedOf rest peer
      | none => pinnedOf rest peer := by
  cases parsed : parseFingerprint r.fingerprint with
  | none => simp [pinnedOf, parsed]
  | some fingerprint =>
    by_cases keyed : peerIdOf fingerprint = peer <;> simp [pinnedOf, parsed, keyed]

theorem pinnedOf_mem (pinned : pinnedOf peers peer = some fingerprint) :
    peerIdOf fingerprint = peer ∧
      ∃ r ∈ peers, parseFingerprint r.fingerprint = some fingerprint := by
  have keyed := List.find?_some pinned
  have member := List.mem_of_find?_eq_some pinned
  rw [List.mem_filterMap] at member
  exact ⟨by simpa using keyed, member⟩

/-- The first record keyed on the fingerprint's peer decides. The allowlist
adds nothing: that record is on it. -/
theorem isTrusted_iff : isTrusted peers fingerprint = true ↔
    pinnedOf peers (peerIdOf fingerprint) = some fingerprint := by
  rw [isTrusted, decideInbound, evaluate_isTrusted, allowlistOf_contains]
  constructor
  · exact And.right
  · intro pinned
    obtain ⟨_, r, member, parsed⟩ := pinnedOf_mem pinned
    exact ⟨⟨r, member, fingerprint, parsed, rfl⟩, pinned⟩

theorem isTrusted_mem (trusted : isTrusted peers fingerprint = true) :
    ∃ r ∈ peers, parseFingerprint r.fingerprint = some fingerprint :=
  (pinnedOf_mem (isTrusted_iff.mp trusted)).2

/-- What a call takes away from the records: a removal what it selects, an
acceptance for a host every other fingerprint recorded for that host. -/
def TrustOp.Clears : TrustOp → PeerRecord → Prop
  | .accept fingerprint (some host) _, r =>
    r.host = some host ∧ r.fingerprint ≠ fingerprintHex fingerprint
  | .accept _ none _, _ => False
  | .remove selector _, r => r.selected selector = true
  | .reload _, _ => False

def TrustOp.IsCall : TrustOp → Prop
  | .accept .. | .remove .. => True
  | .reload _ => False

theorem mem_retainHost : r ∈ retainHost peers hex host ↔
    r ∈ peers ∧ (r.fingerprint = hex ∨ ∀ h, host = some h → r.host ≠ some h) := by
  cases host with
  | none => simp [retainHost]
  | some host => simp [retainHost]

theorem PeerRecord.rehost_fingerprint (host : Option String) (r : PeerRecord) :
    (r.rehost host).fingerprint = r.fingerprint := by
  cases host <;> rfl

/-- `accept` in one place: the record rewritten is the first with the accepted
fingerprint, or a new one at the end. -/
theorem acceptRecords_cases (peers : List PeerRecord) (hex : String) (host : Option String) :
    (∃ before r after, retainHost peers hex host = before ++ r :: after ∧ r.fingerprint = hex ∧
      (∀ b ∈ before, b.fingerprint ≠ hex) ∧
      acceptRecords peers hex host = before ++ r.rehost host :: after) ∨
    ((∀ b ∈ retainHost peers hex host, b.fingerprint ≠ hex) ∧
      acceptRecords peers hex host = retainHost peers hex host ++ [⟨host, hex⟩]) := by
  rw [acceptRecords]
  cases updated : updateFirst (fun r => decide (r.fingerprint = hex)) (PeerRecord.rehost host)
      (retainHost peers hex host) with
  | none =>
    refine .inr ⟨fun b member => ?_, rfl⟩
    simpa using updateFirst_eq_none.mp updated b member
  | some result =>
    obtain ⟨before, r, after, split, rfl, hit, misses⟩ := updateFirst_eq_some updated
    refine .inl ⟨before, r, after, split, by simpa using hit, fun b member => ?_, rfl⟩
    simpa using misses b member

theorem mem_acceptRecords (member : r ∈ acceptRecords peers hex host) :
    r = ⟨host, hex⟩ ∨ r ∈ retainHost peers hex host := by
  obtain ⟨before, first, after, split, hit, _, result⟩ | ⟨_, result⟩ :=
    acceptRecords_cases peers hex host
  · rw [result, List.mem_append, List.mem_cons] at member
    rcases member with early | rfl | late
    · exact .inr (by simp [split, early])
    · cases host with
      | none => exact .inr (by simp [split, PeerRecord.rehost])
      | some host => exact .inl (by rw [PeerRecord.rehost, ← hit])
    · exact .inr (by simp [split, late])
  · rw [result, List.mem_append, List.mem_singleton] at member
    exact member.symm

/-- The fingerprints an acceptance leaves, in order: those kept, and the
accepted one at the end where it was not among them. -/
theorem acceptRecords_texts (peers : List PeerRecord) (hex : String) (host : Option String) :
    ∃ added, (acceptRecords peers hex host).map (·.fingerprint) =
      (retainHost peers hex host).map (·.fingerprint) ++ added := by
  obtain ⟨before, first, after, split, _, _, result⟩ | ⟨_, result⟩ :=
    acceptRecords_cases peers hex host
  · refine ⟨[], ?_⟩
    simp only [result, split, List.map_append, List.map_cons, PeerRecord.rehost_fingerprint,
      List.append_nil]
  · exact ⟨[hex], by rw [result, List.map_append, List.map_singleton]⟩

theorem mem_removeRecords : r ∈ removeRecords peers selector ↔
    r ∈ peers ∧ r.selected selector = false := by
  simp [removeRecords]

theorem mem_of_keepNewest (member : r ∈ keepNewest seen l) : r ∈ l := by
  induction l generalizing seen with
  | nil => simp [keepNewest] at member
  | cons a rest ih =>
    rw [keepNewest] at member
    split at member
    · split at member
      · exact List.mem_cons_of_mem _ (ih member)
      · rcases List.mem_cons.mp member with rfl | later
        · exact List.mem_cons_self
        · exact List.mem_cons_of_mem _ (ih later)
    · rcases List.mem_cons.mp member with rfl | later
      · exact List.mem_cons_self
      · exact List.mem_cons_of_mem _ (ih later)

theorem mem_of_dedupHostPins (member : r ∈ (dedupHostPins peers).1) : r ∈ peers := by
  simp only [dedupHostPins, List.mem_reverse] at member
  exact List.mem_reverse.mp (mem_of_keepNewest member)

theorem keepNewest_host (unseen : host ∉ seen) (named : ∃ r ∈ l, r.host = some host) :
    ∃ r ∈ keepNewest seen l, r.host = some host := by
  induction l generalizing seen with
  | nil => simp at named
  | cons a rest ih =>
    by_cases own : a.host = some host
    · exact ⟨a, by simp [keepNewest, own, unseen], own⟩
    · have later : ∃ r ∈ rest, r.host = some host := by
        obtain ⟨r, member, same⟩ := named
        rcases List.mem_cons.mp member with rfl | member
        · exact absurd same own
        · exact ⟨r, member, same⟩
      rw [keepNewest]
      split
      · rename_i other present
        split
        · exact ih unseen later
        · have distinct : host ≠ other := by
            rintro rfl
            exact own present
          have stillUnseen : host ∉ other :: seen := by simp [unseen, distinct]
          obtain ⟨r, member, same⟩ := ih stillUnseen later
          exact ⟨r, List.mem_cons_of_mem _ member, same⟩
      · obtain ⟨r, member, same⟩ := ih unseen later
        exact ⟨r, List.mem_cons_of_mem _ member, same⟩

theorem dedupHostPins_host (named : ∃ r ∈ peers, r.host = some host) :
    ∃ r ∈ (dedupHostPins peers).1, r.host = some host := by
  have reversed : ∃ r ∈ peers.reverse, r.host = some host := by
    simpa only [List.mem_reverse] using named
  simpa only [dedupHostPins, List.mem_reverse] using keepNewest_host List.not_mem_nil reversed

/-- A successful load: the deduplicated records of the file, which the file
then holds too unless nothing was dropped. -/
theorem load_records (loaded : TrustState.load (.records peers) write = .ok s) :
    s.peers = (dedupHostPins peers).1 ∧ (s.disk = .records s.peers ∨ s.disk = .records peers) := by
  simp only [TrustState.load] at loaded
  split at loaded
  · cases write <;> simp only [TrustState.save, Except.ok.injEq, reduceCtorEq] at loaded
    subst loaded
    exact ⟨rfl, .inl rfl⟩
  · cases loaded
    exact ⟨rfl, .inr rfl⟩

end Omnipresent
