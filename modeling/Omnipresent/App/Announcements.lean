import Mathlib.Data.Finset.Filter
import Mathlib.Data.Finset.Union
import Omnipresent.Daemon.Status

/-! Which waiting requests the app tells its user about. The daemon pushes a whole snapshot on
every change; what was announced is remembered by fingerprint, from one snapshot to the next. -/
namespace Omnipresent

def StatusInfo.waiting (status : StatusInfo) : Finset String := (status.pending.map (·.fingerprint)).toFinset

/-- The waiting requests not yet announced, and what is announced then. -/
def newRequests (status : StatusInfo) (announced : Finset String) : List PendingInfo × Finset String :=
  let announced := announced.filter (· ∈ status.waiting)
  let fresh := status.pending.filter fun request => request.fingerprint ∉ announced
  (fresh, announced ∪ (fresh.map (·.fingerprint)).toFinset)

/-- What is announced at each of the snapshots pushed to a subscription. -/
def announcements (announced : Finset String) : List StatusInfo → List (List PendingInfo)
  | [] => []
  | status :: rest => (newRequests status announced).1 :: announcements (newRequests status announced).2 rest

def requestsOf (fingerprint : String) (requests : List PendingInfo) : Nat :=
  requests.countP (·.fingerprint = fingerprint)

/-- The fingerprint waits in this snapshot and did not wait in the one before it, if any. -/
structure StartsWaiting (snapshots : List StatusInfo) (i : Nat) (fingerprint : String) : Prop where
  waits : ∃ status, snapshots[i]? = some status ∧ fingerprint ∈ status.waiting
  fresh : ∀ j status, i = j + 1 → snapshots[j]? = some status → fingerprint ∉ status.waiting

/-- A fingerprint is announced once where it starts waiting, and nowhere else. -/
def AnnouncedOnce (snapshots : List StatusInfo) : Prop :=
  ∀ i requests fingerprint, (announcements ∅ snapshots)[i]? = some requests →
    (StartsWaiting snapshots i fingerprint → requestsOf fingerprint requests = 1) ∧
    (¬ StartsWaiting snapshots i fingerprint → requestsOf fingerprint requests = 0)

theorem mem_waiting {status : StatusInfo} :
    fingerprint ∈ status.waiting ↔ ∃ request ∈ status.pending, request.fingerprint = fingerprint := by
  rw [StatusInfo.waiting, List.mem_toFinset, List.mem_map]

theorem newRequests_fresh (status : StatusInfo) (announced : Finset String) :
    (newRequests status announced).1 = status.pending.filter fun request => request.fingerprint ∉ announced := by
  refine List.filter_congr fun request listed => ?_
  have waits : request.fingerprint ∈ status.waiting := mem_waiting.mpr ⟨request, listed, rfl⟩
  simp [Finset.mem_filter, waits]

theorem newRequests_announced (status : StatusInfo) (announced : Finset String) :
    (newRequests status announced).2 = status.waiting := by
  ext fingerprint
  have added : fingerprint ∈ ((newRequests status announced).1.map (·.fingerprint)).toFinset ↔
      fingerprint ∈ status.waiting ∧ fingerprint ∉ announced := by
    rw [List.mem_toFinset, List.mem_map, newRequests_fresh, mem_waiting]
    constructor
    · rintro ⟨request, listed, rfl⟩
      obtain ⟨pending, fresh⟩ := List.mem_filter.mp listed
      exact ⟨⟨request, pending, rfl⟩, by simpa using fresh⟩
    · rintro ⟨⟨request, pending, rfl⟩, fresh⟩
      exact ⟨request, List.mem_filter.mpr ⟨pending, by simpa using fresh⟩, rfl⟩
  have extended : (newRequests status announced).2 = announced.filter (· ∈ status.waiting) ∪
      ((newRequests status announced).1.map (·.fingerprint)).toFinset := rfl
  rw [extended, Finset.mem_union, added, Finset.mem_filter]
  tauto

def announcedBefore (announced : Finset String) (snapshots : List StatusInfo) : Nat → Finset String
  | 0 => announced
  | i + 1 => (snapshots[i]?).elim ∅ StatusInfo.waiting

theorem announcements_getElem (announced : Finset String) (snapshots : List StatusInfo) (i : Nat) :
    (announcements announced snapshots)[i]? = (snapshots[i]?).map fun status =>
      status.pending.filter fun request => request.fingerprint ∉ announcedBefore announced snapshots i := by
  induction snapshots generalizing announced i with
  | nil => rfl
  | cons status rest ih =>
    rw [announcements, newRequests_announced]
    match i with
    | 0 => rw [List.getElem?_cons_zero, List.getElem?_cons_zero, Option.map_some, newRequests_fresh]; rfl
    | 1 => rw [List.getElem?_cons_succ, List.getElem?_cons_succ, ih]; rfl
    | i + 2 => rw [List.getElem?_cons_succ, List.getElem?_cons_succ, ih]; rfl

theorem startsWaiting_iff (found : snapshots[i]? = some status) : StartsWaiting snapshots i fingerprint ↔
    fingerprint ∈ status.waiting ∧ fingerprint ∉ announcedBefore ∅ snapshots i := by
  constructor
  · rintro ⟨⟨status', found', waits⟩, fresh⟩
    cases found.symm.trans found'
    refine ⟨waits, ?_⟩
    cases i with
    | zero => exact Finset.notMem_empty _
    | succ i =>
      rw [announcedBefore]
      cases earlier : snapshots[i]? with
      | none => exact Finset.notMem_empty _
      | some before => exact fresh i before rfl earlier
  · rintro ⟨waits, fresh⟩
    refine ⟨⟨status, found, waits⟩, ?_⟩
    rintro j before rfl earlier
    rwa [announcedBefore, earlier] at fresh

theorem requestsOf_pos {status : StatusInfo} :
    0 < requestsOf fingerprint status.pending ↔ fingerprint ∈ status.waiting := by
  rw [requestsOf, List.countP_pos_iff, mem_waiting]
  simp only [decide_eq_true_eq]

/-- Of a fingerprint that starts waiting all requests are announced, of others none. -/
theorem requestsOf_announced (found : snapshots[i]? = some status)
    (returned : (announcements ∅ snapshots)[i]? = some requests) (fingerprint : String) :
    (StartsWaiting snapshots i fingerprint →
      requestsOf fingerprint requests = requestsOf fingerprint status.pending) ∧
    (¬ StartsWaiting snapshots i fingerprint → requestsOf fingerprint requests = 0) := by
  rw [announcements_getElem, found, Option.map_some, Option.some.injEq] at returned
  rw [startsWaiting_iff found, ← returned, requestsOf, List.countP_filter]
  constructor
  · rintro ⟨_, fresh⟩
    refine List.countP_congr fun request _ => ?_
    simp only [Bool.and_eq_true, decide_eq_true_eq]
    exact ⟨And.left, fun same => ⟨same, same ▸ fresh⟩⟩
  · intro stale
    rw [List.countP_eq_zero]
    intro request listed
    simp only [Bool.and_eq_true, decide_eq_true_eq]
    rintro ⟨rfl, fresh⟩
    exact stale ⟨mem_waiting.mpr ⟨request, listed, rfl⟩, fresh⟩

/-- Along every sequence of snapshots each fingerprint is announced once for each time it
waits exactly when none begins to wait with several requests at once. -/
theorem announced_once_iff (snapshots : List StatusInfo) : AnnouncedOnce snapshots ↔
    ∀ i status fingerprint, snapshots[i]? = some status → StartsWaiting snapshots i fingerprint →
      requestsOf fingerprint status.pending ≤ 1 := by
  constructor
  · intro once i status fingerprint found starts
    obtain ⟨requests, returned⟩ : ∃ requests, (announcements ∅ snapshots)[i]? = some requests := by
      rw [announcements_getElem, found]
      exact ⟨_, rfl⟩
    rw [← (requestsOf_announced found returned fingerprint).1 starts,
      (once i requests fingerprint returned).1 starts]
  · intro single i requests fingerprint returned
    obtain ⟨status, found⟩ : ∃ status, snapshots[i]? = some status := by
      rw [announcements_getElem, Option.map_eq_some_iff] at returned
      obtain ⟨status, found, _⟩ := returned
      exact ⟨status, found⟩
    obtain ⟨all, none⟩ := requestsOf_announced found returned fingerprint
    refine ⟨fun starts => ?_, none⟩
    have waits : 0 < requestsOf fingerprint status.pending :=
      requestsOf_pos.mpr ((startsWaiting_iff found).mp starts).1
    have few := single i status fingerprint found starts
    rw [all starts]
    omega

/-- A peer that dialed twice before the first snapshot came is announced twice at it. -/
theorem announced_twice : ¬ AnnouncedOnce
    [⟨"ours", 4733, true, false, [], [⟨"studio", "aa"⟩, ⟨"studio", "aa"⟩], [], [], []⟩] := by
  intro once
  have starts : StartsWaiting
      [⟨"ours", 4733, true, false, [], [⟨"studio", "aa"⟩, ⟨"studio", "aa"⟩], [], [], []⟩] 0 "aa" := by
    refine ⟨⟨_, rfl, by decide⟩, ?_⟩
    rintro j _ same
    cases same
  exact absurd ((once 0 _ "aa" rfl).1 starts) (by decide)

end Omnipresent
