import Omnipresent.Trust.Soundness
import Mathlib.Data.List.Count

/-! How long a host stays pinned to the fingerprint accepted for it, over calls
and restarts. A record carries one host, so a pin can be lost to an acceptance
of the same fingerprint under another name. -/
namespace Omnipresent
open Transition

def pinRecord (host : String) (fingerprint : Fingerprint) : PeerRecord :=
  ⟨some host, fingerprintHex fingerprint⟩

/-- The pin is there, and no record says otherwise about the host. -/
def Pinned (peers : List PeerRecord) (host : String) (fingerprint : Fingerprint) : Prop :=
  pinRecord host fingerprint ∈ peers ∧
    ∀ r ∈ peers, r.host = some host → r.fingerprint = fingerprintHex fingerprint

/-- The call writes another host over the only record that holds the pin. -/
def MovesPin (host : String) (fingerprint : Fingerprint) (s : TrustState) : TrustOp → Prop
  | .accept accepted (some other) _ => accepted = fingerprint ∧ other ≠ host ∧
    s.peers.find? (fun r => r.fingerprint = fingerprintHex fingerprint) =
      some (pinRecord host fingerprint) ∧
    s.peers.count (pinRecord host fingerprint) = 1
  | _ => False

/-- The step neither ends the pin, by removing its record or pinning the host to
another fingerprint, nor moves it to another host. -/
def KeepsPin (host : String) (fingerprint : Fingerprint) (s : TrustState) (op : TrustOp) : Prop :=
  ¬ op.Clears (pinRecord host fingerprint) ∧ ¬ MovesPin host fingerprint s op

/-- The pin in memory, and in the trust file wherever that can still be read. -/
structure PinKept (host : String) (fingerprint : Fingerprint) (s : TrustState) : Prop where
  memory : Pinned s.peers host fingerprint
  disk : (∃ reason, s.disk = .invalid reason) ∨ ∃ peers, s.disk = .records peers ∧ Pinned peers host fingerprint

theorem pinRecord_of (named : r.host = some host) (text : r.fingerprint = fingerprintHex fingerprint) :
    r = pinRecord host fingerprint := by
  cases r
  cases named
  cases text
  rfl

theorem Pinned.pinnedForHost {s : TrustState} (pinned : Pinned s.peers host fingerprint) :
    s.pinnedForHost host = some fingerprint := by
  obtain ⟨present, texts⟩ := pinned
  cases found : s.peers.find? (fun r => r.host = some host) with
  | none => simpa [pinRecord] using List.find?_eq_none.mp found _ present
  | some r =>
    have named : r.host = some host := by simpa using List.find?_some found
    have text := texts r (List.mem_of_find?_eq_some found) named
    rw [TrustState.pinnedForHost, found, Option.bind_some, text, fingerprintHex,
      parseFingerprint_display]

theorem Pinned.authorizeServer {s : TrustState} (pinned : Pinned s.peers host fingerprint)
    (changed : other ≠ fingerprint) :
    s.authorizeServer host other =
      .error ⟨"the server's certificate fingerprint changed since it was pinned"⟩ := by
  rw [TrustState.authorizeServer, pinned.pinnedForHost]
  exact if_pos changed.symm

theorem TrustState.authorizeServer_unpinned {s : TrustState} (unpinned : s.pinnedForHost host = none)
    (other : Fingerprint) : s.authorizeServer host other = .ok () := by
  rw [TrustState.authorizeServer, unpinned]

/-- Accepting a fingerprint for a host pins it there, whatever was known. -/
theorem acceptRecords_pinned (peers : List PeerRecord) (host : String) (fingerprint : Fingerprint) :
    Pinned (acceptRecords peers (fingerprintHex fingerprint) (some host)) host fingerprint := by
  constructor
  · obtain ⟨before, r, after, _, hit, _, result⟩ | ⟨_, result⟩ :=
      acceptRecords_cases peers (fingerprintHex fingerprint) (some host)
    · have rehosted : r.rehost (some host) = pinRecord host fingerprint := pinRecord_of rfl hit
      simp [result, rehosted]
    · simp [result, pinRecord]
  · intro r member named
    obtain rfl | kept := mem_acceptRecords member
    · rfl
    · obtain ⟨_, text | unnamed⟩ := mem_retainHost.mp kept
      · exact text
      · exact absurd named (unnamed host rfl)

theorem mem_acceptRecords_of (kept : r ∈ retainHost peers hex host)
    (spared : (retainHost peers hex host).find? (fun r => r.fingerprint = hex) = some r →
      host = none ∨ 2 ≤ (retainHost peers hex host).count r) :
    r ∈ acceptRecords peers hex host := by
  obtain ⟨before, first, after, split, hit, misses, result⟩ | ⟨_, result⟩ :=
    acceptRecords_cases peers hex host
  · rw [result]
    rw [split, List.mem_append, List.mem_cons] at kept
    rcases kept with early | rfl | late
    · exact List.mem_append_left _ early
    · have found : (before ++ r :: after).find? (fun r => r.fingerprint = hex) = some r := by
        rw [List.find?_append, List.find?_eq_none.mpr (by simpa using misses), Option.none_or,
          List.find?_cons_of_pos (by simp [hit])]
      obtain rfl | counted := spared (split ▸ found)
      · exact List.mem_append_right _ List.mem_cons_self
      have absent : before.count r = 0 := List.count_eq_zero.mpr fun early => misses r early hit
      rw [split, List.count_append, absent, List.count_cons_self] at counted
      have late : r ∈ after := List.count_pos_iff.mp (by omega)
      exact List.mem_append_right _ (List.mem_cons_of_mem _ late)
    · exact List.mem_append_right _ (List.mem_cons_of_mem _ late)
  · rw [result]
    exact List.mem_append_left _ kept

theorem mem_retainHost_of (member : r ∈ peers)
    (uncleared : ¬ (TrustOp.accept accepted host write).Clears r) :
    r ∈ retainHost peers (fingerprintHex accepted) host := by
  refine mem_retainHost.mpr ⟨member, ?_⟩
  cases host with
  | none => exact .inr fun _ absent => nomatch absent
  | some other =>
    simp only [TrustOp.Clears, not_and, not_not] at uncleared
    by_cases named : r.host = some other
    · exact .inl (uncleared named)
    · exact .inr fun h same => Option.some.inj same ▸ named

/-- What the first filter drops is about the accepted host, so the pin's record
is found and counted after it as before. -/
theorem retainHost_find (accepted : Fingerprint) (host : Option String) (peers : List PeerRecord) :
    (retainHost peers (fingerprintHex accepted) host).find?
        (fun r => r.fingerprint = fingerprintHex accepted) =
      peers.find? (fun r => r.fingerprint = fingerprintHex accepted) := by
  cases host with
  | none => rfl
  | some other =>
    rw [retainHost, List.find?_filter]
    congr 1
    funext r
    by_cases text : r.fingerprint = fingerprintHex accepted <;> simp [text]

theorem retainHost_count (text : r.fingerprint = fingerprintHex accepted) (host : Option String)
    (peers : List PeerRecord) :
    (retainHost peers (fingerprintHex accepted) host).count r = peers.count r := by
  cases host with
  | none => rfl
  | some other => exact List.count_filter (by simp [text])

theorem Pinned.accept {s : TrustState} (pinned : Pinned s.peers host fingerprint)
    (keeps : KeepsPin host fingerprint s (.accept accepted named write)) :
    Pinned (acceptRecords s.peers (fingerprintHex accepted) named) host fingerprint := by
  obtain ⟨uncleared, unmoved⟩ := keeps
  by_cases own : named = some host
  · subst own
    have same : fingerprint = accepted := by
      simp only [TrustOp.Clears, pinRecord, true_and, not_not] at uncleared
      exact display_injective uncleared
    exact same ▸ acceptRecords_pinned s.peers host accepted
  · constructor
    · refine mem_acceptRecords_of (mem_retainHost_of pinned.1 uncleared) fun found => ?_
      have text : (pinRecord host fingerprint).fingerprint = fingerprintHex accepted := by
        simpa using List.find?_some found
      obtain rfl : fingerprint = accepted := display_injective text
      rw [retainHost_find] at found
      rw [retainHost_count text]
      have positive := List.count_pos_iff.mpr pinned.1
      cases named with
      | none => exact .inl rfl
      | some other =>
        refine .inr ?_
        have several : s.peers.count (pinRecord host fingerprint) ≠ 1 := fun single =>
          unmoved ⟨rfl, fun same => own (same ▸ rfl), found, single⟩
        omega
    · intro r member about
      obtain rfl | kept := mem_acceptRecords member
      · exact absurd about own
      · exact pinned.2 r (mem_retainHost.mp kept).1 about

theorem Pinned.remove (pinned : Pinned peers host fingerprint)
    (spared : (pinRecord host fingerprint).selected selector = false) :
    Pinned (removeRecords peers selector) host fingerprint :=
  ⟨mem_removeRecords.mpr ⟨pinned.1, spared⟩,
    fun r member => pinned.2 r (mem_removeRecords.mp member).1⟩

/-- A restart keeps one record for the host, and all of them hold the pin. -/
theorem Pinned.dedup (pinned : Pinned peers host fingerprint) :
    Pinned (dedupHostPins peers).1 host fingerprint := by
  obtain ⟨present, texts⟩ := pinned
  obtain ⟨r, member, named⟩ := dedupHostPins_host ⟨_, present, rfl⟩
  have text := texts r (mem_of_dedupHostPins member) named
  exact ⟨pinRecord_of named text ▸ member,
    fun other listed => texts other (mem_of_dedupHostPins listed)⟩

/-- A save writes the pin to the file, leaves the file, or breaks it. -/
theorem PinKept.save {s : TrustState} (memory : Pinned s.peers host fingerprint)
    (disk : (∃ reason, s.disk = .invalid reason) ∨ ∃ peers, s.disk = .records peers ∧ Pinned peers host fingerprint)
    (write : Write) : PinKept host fingerprint (s.save write).1 := by
  refine ⟨(TrustState.save_peers s write).symm ▸ memory, ?_⟩
  cases write with
  | done => exact .inr ⟨s.peers, rfl, memory⟩
  | failed => exact disk
  | torn _ parse => exact .inl ⟨parse, rfl⟩

theorem PinKept.step (kept : PinKept host fingerprint s)
    (moved : guarded TrustStep (KeepsPin host fingerprint) s op t) : PinKept host fingerprint t := by
  obtain ⟨keeps, step⟩ := moved
  cases step with
  | @accept _ accepted named write =>
    exact PinKept.save (s := { s with peers := acceptRecords s.peers _ named })
      (kept.memory.accept keeps) kept.disk write
  | @remove _ selector write =>
    have spared : (pinRecord host fingerprint).selected selector = false := by
      simpa [TrustOp.Clears] using keeps.1
    have memory := kept.memory.remove spared
    simp only [TrustState.remove]
    split
    · have saved := PinKept.save (s := { s with peers := removeRecords s.peers selector }) memory kept.disk write
      cases write <;> exact saved
    · exact ⟨memory, kept.disk⟩
  | reload loaded =>
    obtain ⟨_, broken⟩ | ⟨peers, stored, pinned⟩ := kept.disk
    · simp [broken, TrustState.load] at loaded
    · rw [stored] at loaded
      obtain ⟨same, disk⟩ := load_records loaded
      have memory : Pinned t.peers host fingerprint := same ▸ pinned.dedup
      exact ⟨memory, .inr (disk.elim (fun own => ⟨_, own, memory⟩) fun old => ⟨_, old, pinned⟩)⟩

theorem PinKept.accepted {s : TrustState} (succeeded : s.accept write fingerprint (some host) = (t, .ok ())) :
    PinKept host fingerprint t := by
  obtain rfl : write = .done := by
    cases write <;> simp [TrustState.accept, TrustState.save] at succeeded ⊢
  cases succeeded
  have memory := acceptRecords_pinned s.peers host fingerprint
  exact ⟨memory, .inr ⟨_, rfl, memory⟩⟩

/-- Writing another host over the only record of a pin forgets it: the next
certificate the host shows is a first use. -/
theorem MovesPin.unpins (pinned : Pinned s.peers host fingerprint)
    (moves : MovesPin host fingerprint s op) (step : TrustStep s op t) : t.pinnedForHost host = none := by
  cases step with
  | remove | reload => exact absurd moves id
  | @accept _ accepted named write =>
    cases named with
    | none => exact absurd moves id
    | some other =>
      obtain ⟨rfl, distinct, found, single⟩ := moves
      rw [TrustState.pinnedForHost, TrustState.accept_peers, Option.bind_eq_none_iff]
      suffices unnamed : (acceptRecords s.peers (fingerprintHex accepted) (some other)).find?
          (fun r => r.host = some host) = none by simp [unnamed]
      rw [← retainHost_find accepted (some other)] at found
      rw [← retainHost_count rfl (some other)] at single
      have about : ∀ r ∈ retainHost s.peers (fingerprintHex accepted) (some other),
          r.host = some host → r = pinRecord host accepted := fun r member named =>
        pinRecord_of named (pinned.2 r (mem_retainHost.mp member).1 named)
      obtain ⟨before, r, after, split, hit, misses, result⟩ | ⟨misses, _⟩ :=
        acceptRecords_cases s.peers (fingerprintHex accepted) (some other)
      · have first : r = pinRecord host accepted := by
          rw [split, List.find?_append, List.find?_eq_none.mpr (by simpa using misses),
            Option.none_or, List.find?_cons_of_pos (by simp [hit])] at found
          exact Option.some.inj found
        rw [split, first, List.count_append, List.count_cons_self] at single
        have early : pinRecord host accepted ∉ before := List.count_eq_zero.mp (by omega)
        have late : pinRecord host accepted ∉ after := List.count_eq_zero.mp (by omega)
        rw [result, List.find?_eq_none]
        intro r' member named
        simp only [decide_eq_true_eq] at named
        rw [List.mem_append, List.mem_cons] at member
        rcases member with listed | rfl | listed
        · exact early (about r' (by simp [split, listed]) named ▸ listed)
        · exact distinct (Option.some.inj named)
        · exact late (about r' (by simp [split, listed]) named ▸ listed)
      · exact absurd rfl (misses _ (List.mem_of_find?_eq_some found))

/-- Once accepted for a host, a fingerprint is the only one the host can show,
along every run over calls and restarts that keeps the pin. A step that moves
it lets the host show any fingerprint. -/
theorem pin_persists {s : TrustState} (succeeded : s.accept write fingerprint (some host) = (t, .ok ()))
    (run : Reaches (guarded TrustStep (KeepsPin host fingerprint)) t ops u) :
    (∀ other, other ≠ fingerprint → u.authorizeServer host other =
      .error ⟨"the server's certificate fingerprint changed since it was pinned"⟩) ∧
    ∀ op v, MovesPin host fingerprint u op → TrustStep u op v →
      ∀ other, v.authorizeServer host other = .ok () := by
  have kept : PinKept host fingerprint u :=
    run.invariant PinKept.step (.accepted succeeded)
  exact ⟨fun _ changed => kept.memory.authorizeServer changed,
    fun _ _ moves step => TrustState.authorizeServer_unpinned (moves.unpins kept.memory step)⟩

theorem pin_persists_restart :
    (TrustState.mk (.records [⟨some "desk", fingerprintHex (.filled 3)⟩, ⟨some "laptop", fingerprintHex (.filled 4)⟩])
        [⟨some "desk", fingerprintHex (.filled 3)⟩, ⟨some "laptop", fingerprintHex (.filled 4)⟩]).authorizeServer
      "desk" (.filled 5) = .error ⟨"the server's certificate fingerprint changed since it was pinned"⟩ := by
  have first : TrustState.accept ⟨.missing, []⟩ .done (.filled 3) (some "desk") = (_, .ok ()) := rfl
  have second : KeepsPin "desk" (.filled 3)
      (TrustState.accept ⟨.missing, []⟩ .done (.filled 3) (some "desk")).1
      (.accept (.filled 4) (some "laptop") .done) :=
    ⟨by simp [TrustOp.Clears, pinRecord], fun moves => absurd moves.1 (by decide)⟩
  have restart : TrustStep
      (TrustState.accept (TrustState.accept ⟨.missing, []⟩ .done (.filled 3) (some "desk")).1 .done
        (.filled 4) (some "laptop")).1 (.reload .done)
      ⟨.records [⟨some "desk", fingerprintHex (.filled 3)⟩, ⟨some "laptop", fingerprintHex (.filled 4)⟩],
        [⟨some "desk", fingerprintHex (.filled 3)⟩, ⟨some "laptop", fingerprintHex (.filled 4)⟩]⟩ :=
    .reload (by rfl)
  exact (pin_persists first (.next (.single ⟨second, .accept⟩) ⟨⟨id, id⟩, restart⟩)).1 (.filled 5) (by decide)

/-- Dialled under a second name, the same machine loses the pin of the first. -/
theorem pin_moved :
    ¬ ∀ (s : TrustState) (write : Write) (fingerprint : Fingerprint) (host : String) (t : TrustState),
      s.accept write fingerprint (some host) = (t, .ok ()) →
      ∀ ops u, Reaches (guarded TrustStep fun _ op => ¬ op.Clears (pinRecord host fingerprint)) t ops u →
        ∀ other, other ≠ fingerprint → ∃ violation, u.authorizeServer host other = .error violation := by
  intro claimed
  have again : TrustStep (TrustState.accept ⟨.missing, []⟩ .done (.filled 3) (some "desk")).1
      (.accept (.filled 3) (some "laptop") .done) _ := .accept
  obtain ⟨violation, refused⟩ := claimed ⟨.missing, []⟩ .done (.filled 3) "desk" _ rfl _ _
    (.single ⟨by simp [TrustOp.Clears, pinRecord], again⟩) (.filled 5) (by decide)
  have allowed : (TrustState.accept (TrustState.accept ⟨.missing, []⟩ .done (.filled 3) (some "desk")).1
      .done (.filled 3) (some "laptop")).1.authorizeServer "desk" (.filled 5) = .ok () := by rfl
  cases allowed.symm.trans refused

end Omnipresent
