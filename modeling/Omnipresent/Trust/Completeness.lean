import Omnipresent.Trust.Soundness
import Mathlib.Data.List.TakeWhile

/-! When an accepted fingerprint is trusted, and for how long. The decision
reads the first record keyed on the fingerprint's first eight bytes, so what
matters is which records stand ahead of the fingerprint's own. -/
namespace Omnipresent
open Transition

/-- The records ahead of the first with this text; all of them without one. -/
def ahead (peers : List PeerRecord) (hex : String) : List PeerRecord :=
  peers.takeWhile fun r => r.fingerprint ≠ hex

/-- Nothing ahead of the fingerprint's own record holds another fingerprint
with the same first eight bytes. -/
def AheadClear (peers : List PeerRecord) (fingerprint : Fingerprint) : Prop :=
  ∀ r ∈ ahead peers (fingerprintHex fingerprint), ∀ other,
    parseFingerprint r.fingerprint = some other → peerIdOf other = peerIdOf fingerprint →
      other = fingerprint

/-- The record `accept` finds for the fingerprint is not cleared by the call. -/
def Spares (fingerprint : Fingerprint) (s : TrustState) (op : TrustOp) : Prop :=
  op.IsCall ∧ ∀ r, s.peers.find? (fun r => r.fingerprint = fingerprintHex fingerprint) = some r →
    ¬ op.Clears r

theorem pinnedOf_append (front back : List PeerRecord) (peer : PeerId) :
    pinnedOf (front ++ back) peer = (pinnedOf front peer).or (pinnedOf back peer) := by
  simp only [pinnedOf, List.filterMap_append, List.find?_append]

theorem pinnedOf_own (text : r.fingerprint = fingerprintHex fingerprint) (rest : List PeerRecord) :
    pinnedOf (r :: rest) (peerIdOf fingerprint) = some fingerprint := by
  rw [pinnedOf_cons, text, fingerprintHex, parseFingerprint_display]
  exact if_pos rfl

/-- The list splits at the fingerprint's own record, and nothing ahead of it
decides otherwise. -/
def Decisive (peers : List PeerRecord) (fingerprint : Fingerprint) : Prop :=
  ∃ before r after, peers = before ++ r :: after ∧ r.fingerprint = fingerprintHex fingerprint ∧
    (∀ b ∈ before, b.fingerprint ≠ fingerprintHex fingerprint) ∧
    ∀ b ∈ before, ∀ other, parseFingerprint b.fingerprint = some other →
      peerIdOf other = peerIdOf fingerprint → other = fingerprint

theorem ahead_split (text : r.fingerprint = hex) (misses : ∀ b ∈ before, b.fingerprint ≠ hex)
    (after : List PeerRecord) : ahead (before ++ r :: after) hex = before := by
  rw [ahead, List.takeWhile_append_of_pos (by simpa using misses),
    List.takeWhile_cons_of_neg (by simp [text]), List.append_nil]

theorem ahead_all (misses : ∀ b ∈ peers, b.fingerprint ≠ hex) : ahead peers hex = peers :=
  List.takeWhile_eq_self_iff.mpr (by simpa using misses)

/-- Right after the acceptance: the records ahead, then the fingerprint's own. -/
theorem acceptRecords_ahead (peers : List PeerRecord) (fingerprint : Fingerprint)
    (host : Option String) :
    ∃ r after, acceptRecords peers (fingerprintHex fingerprint) host =
        ahead (retainHost peers (fingerprintHex fingerprint) host) (fingerprintHex fingerprint) ++
          r :: after ∧
      r.fingerprint = fingerprintHex fingerprint := by
  obtain ⟨before, r, after, split, hit, misses, result⟩ | ⟨misses, result⟩ :=
    acceptRecords_cases peers (fingerprintHex fingerprint) host
  · refine ⟨r.rehost host, after, ?_, (PeerRecord.rehost_fingerprint host r).trans hit⟩
    rw [result, split, ahead_split hit misses]
  · refine ⟨⟨host, fingerprintHex fingerprint⟩, [], ?_, rfl⟩
    rw [result, ahead_all misses]

theorem mem_ahead (member : r ∈ ahead peers hex) : r.fingerprint ≠ hex := by
  simpa using List.mem_takeWhile_imp member

theorem AheadClear.decisive
    (clear : AheadClear (retainHost peers (fingerprintHex fingerprint) host) fingerprint) :
    Decisive (acceptRecords peers (fingerprintHex fingerprint) host) fingerprint := by
  obtain ⟨r, after, result, text⟩ := acceptRecords_ahead peers fingerprint host
  exact ⟨_, r, after, result, text, fun _ => mem_ahead, clear⟩

theorem Decisive.isTrusted (decisive : Decisive peers fingerprint) :
    isTrusted peers fingerprint = true := by
  obtain ⟨before, r, after, rfl, text, -, clear⟩ := decisive
  rw [isTrusted_iff]
  induction before with
  | nil => exact pinnedOf_own text after
  | cons b rest ih =>
    rw [List.cons_append, pinnedOf_cons]
    have later := ih fun c member => clear c (List.mem_cons_of_mem _ member)
    split
    · rename_i other parsed
      split
      · rw [clear b List.mem_cons_self other parsed ‹_›]
      · exact later
    · exact later

theorem Decisive.filter (decisive : Decisive peers fingerprint) (keep : PeerRecord → Bool)
    (kept : ∀ r, peers.find? (fun r => r.fingerprint = fingerprintHex fingerprint) = some r →
      keep r = true) :
    Decisive (peers.filter keep) fingerprint := by
  obtain ⟨before, r, after, rfl, text, misses, clear⟩ := decisive
  have first : (before ++ r :: after).find?
      (fun r => r.fingerprint = fingerprintHex fingerprint) = some r := by
    rw [List.find?_append, List.find?_eq_none.mpr (by simpa using misses), Option.none_or,
      List.find?_cons_of_pos (by simp [text])]
  refine ⟨before.filter keep, r, after.filter keep, ?_, text, ?_, ?_⟩
  · rw [List.filter_append, List.filter_cons_of_pos (kept r first)]
  · exact fun b member => misses b (List.mem_of_mem_filter member)
  · exact fun b member => clear b (List.mem_of_mem_filter member)

/-- Being decisive is a matter of the texts, in order, and more may follow. -/
theorem Decisive.texts (decisive : Decisive peers fingerprint)
    (same : peers'.map (·.fingerprint) = peers.map (·.fingerprint) ++ added) :
    Decisive peers' fingerprint := by
  obtain ⟨before, r, after, rfl, text, misses, clear⟩ := decisive
  simp only [List.map_append, List.map_cons, List.append_assoc, List.cons_append] at same
  obtain ⟨front, back, rfl, frontTexts, backTexts⟩ := List.map_eq_append_iff.mp same
  obtain ⟨r', after', rfl, text', _⟩ := List.map_eq_cons_iff.mp backTexts
  have found : ∀ b ∈ front, ∃ b' ∈ before, b'.fingerprint = b.fingerprint := by
    intro b member
    have listed : b.fingerprint ∈ before.map (·.fingerprint) :=
      frontTexts ▸ List.mem_map_of_mem member
    simpa using listed
  refine ⟨front, r', after', rfl, text'.trans text, ?_, ?_⟩
  · intro b member
    obtain ⟨b', listed, equal⟩ := found b member
    exact equal ▸ misses b' listed
  · intro b member
    obtain ⟨b', listed, equal⟩ := found b member
    exact equal ▸ clear b' listed

theorem Decisive.step (decisive : Decisive s.peers fingerprint)
    (call : guarded TrustStep (Spares fingerprint) s op t) : Decisive t.peers fingerprint := by
  obtain ⟨⟨isCall, spared⟩, step⟩ := call
  cases step with
  | @accept _ other host write =>
    obtain ⟨added, texts⟩ := acceptRecords_texts s.peers (fingerprintHex other) host
    rw [TrustState.accept_peers]
    refine Decisive.texts ?_ texts
    cases host with
    | none => exact decisive
    | some host =>
      refine decisive.filter _ fun r first => ?_
      have unclaimed := spared r first
      simp only [TrustOp.Clears, not_and, not_not] at unclaimed
      simp only [Bool.or_eq_true, decide_eq_true_eq]
      exact or_iff_not_imp_right.mpr fun named => unclaimed (not_not.mp named)
  | @remove _ selector write =>
    rw [TrustState.remove_peers, removeRecords]
    refine decisive.filter _ fun r first => ?_
    simpa [TrustOp.Clears] using spared r first
  | reload => exact absurd isCall id

/-- Where nothing ahead collides, an accepted fingerprint is trusted at once and
along every run of calls that spare its record; where something does, and the
fingerprint is not also spelled some other way ahead, it is not trusted even
right after the acceptance. -/
theorem accept_trusted (s : TrustState) (fingerprint : Fingerprint) (host : Option String) (write : Write) :
    (AheadClear (retainHost s.peers (fingerprintHex fingerprint) host) fingerprint →
      ∀ {ops t}, Reaches (guarded TrustStep (Spares fingerprint)) (s.accept write fingerprint host).1 ops t →
        t.isTrusted fingerprint = true) ∧
    (¬ AheadClear (retainHost s.peers (fingerprintHex fingerprint) host) fingerprint →
      (∀ r ∈ ahead (retainHost s.peers (fingerprintHex fingerprint) host) (fingerprintHex fingerprint),
        parseFingerprint r.fingerprint ≠ some fingerprint) →
      (s.accept write fingerprint host).1.isTrusted fingerprint = false) := by
  constructor
  · intro clear ops t run
    have decisive : Decisive t.peers fingerprint := by
      refine run.invariant (P := fun s => Decisive s.peers fingerprint) Decisive.step ?_
      rw [TrustState.accept_peers]
      exact clear.decisive
    exact decisive.isTrusted
  · intro shadowed unspelled
    rw [Bool.eq_false_iff]
    intro trusted
    obtain ⟨r, after, result, text⟩ := acceptRecords_ahead s.peers fingerprint host
    rw [TrustState.isTrusted, TrustState.accept_peers, isTrusted_iff, result, pinnedOf_append,
      Option.or_eq_some_iff] at trusted
    obtain pinned | ⟨empty, _⟩ := trusted
    · obtain ⟨_, r, member, parsed⟩ := pinnedOf_mem pinned
      exact unspelled r member parsed
    · refine shadowed fun r member other parsed keyed => ?_
      have absent := List.find?_eq_none.mp empty other (List.mem_filterMap.mpr ⟨r, member, parsed⟩)
      simp [keyed] at absent

/-- Another certificate, accepted before, whose fingerprint begins with the same
eight bytes: the acceptance succeeds, and is_trusted still says no. -/
theorem accept_shadowed :
    ¬ ∀ (s : TrustState) (fingerprint : Fingerprint) (host : Option String) (write : Write),
      (s.accept write fingerprint host).2 = .ok () →
      ∀ ops t, Reaches (guarded TrustStep (Spares fingerprint)) (s.accept write fingerprint host).1 ops t →
        t.isTrusted fingerprint = true := by
  intro claimed
  let collider : Fingerprint := ⟨List.replicate 8 1 ++ List.replicate 24 2, rfl⟩
  have trusted := claimed (TrustState.accept ⟨.missing, []⟩ .done collider (some "desk")).1
    (.filled 1) (some "laptop") .done rfl [] _ (.refl _)
  revert trusted
  decide +kernel

end Omnipresent
