import Omnipresent.Clipboard.Interleaving

/-! The echo guard: while what was last synced only ever moves on, in the order in
which things were put on the clipboard, a poll returns user copies and each once. -/
namespace Omnipresent
open Transition

namespace OsClipboard

def holding (initial : Option ClipboardData) : OsClipboard := ⟨[⟨initial, true⟩]⟩

def put (self : OsClipboard) : Nat → Option Put
  | 0 => none
  | version + 1 => self.puts[version]?

theorem put_length (self : OsClipboard) : (self.put self.puts.length).bind (·.content) = self.read := by
  rw [read, List.getLast?_eq_getElem?]
  cases length : self.puts.length with
  | zero => simp [put, List.eq_nil_of_length_eq_zero length]
  | succ n => rfl

theorem put_append (self : OsClipboard) (next : Put) (known : self.put version = some earlier) :
    put ⟨self.puts ++ [next]⟩ version = some earlier := by
  cases version with
  | zero => exact known
  | succ n =>
    obtain ⟨bound, _⟩ := List.getElem?_eq_some_iff.mp known
    exact (List.getElem?_append_left bound).trans known

theorem put_append_cases (self : OsClipboard) (next : Put) (known : put ⟨self.puts ++ [next]⟩ version = some p) :
    self.put version = some p ∨ version = self.puts.length + 1 ∧ p = next := by
  cases version with
  | zero => exact .inl known
  | succ n =>
    rcases Nat.lt_trichotomy n self.puts.length with earlier | same | later
    · exact .inl ((List.getElem?_append_left earlier).symm.trans known)
    · subst same
      exact .inr ⟨rfl, by simpa [put] using known.symm⟩
    · have beyond : (self.puts ++ [next])[n]? = none :=
        List.getElem?_eq_none (by rw [List.length_append, List.length_singleton]; omega)
      exact absurd (beyond.symm.trans known) (Option.some_ne_none p).symm

theorem put_append_length (self : OsClipboard) (next : Put) :
    put ⟨self.puts ++ [next]⟩ (self.puts.length + 1) = some next := by
  simp [put]

end OsClipboard

def ClipboardOp.KeepsOn : ClipboardOp → Prop
  | switch _ enabled => enabled = true
  | _ => True

/-- A call holds something that was put on the clipboard as the version it says, and
none is switching sharing off. -/
def ClipboardCall.Traced (port : OsClipboard) : ClipboardCall → Prop
  | comparing version current => ∀ data, current = some data → ∃ byUser, port.put version = some ⟨some data, byUser⟩
  | updating data => data.validate = .ok ()
  | recording version data => port.put version = some ⟨some data, false⟩ ∧ data.validate = .ok ()
  | forgetting => False
  | idle | polling => True

theorem ClipboardCall.Traced.append {stands : ClipboardCall} (traced : stands.Traced port) (next : Put) :
    stands.Traced ⟨port.puts ++ [next]⟩ := by
  cases stands with
  | comparing version current =>
    intro data same
    obtain ⟨byUser, known⟩ := traced data same
    exact ⟨byUser, port.put_append next known⟩
  | recording version data => exact ⟨port.put_append next traced.1, traced.2⟩
  | _ => exact traced

namespace ClipboardTasks
variable {s t : ClipboardTasks}

/-- Every answer was put on the clipboard by a user copy, the newest there when it was
read, and no copy was answered twice. -/
structure FromUser (s : ClipboardTasks) : Prop where
  copied : ∀ {version data}, (version, data) ∈ s.answered →
    s.manager.port.put version = some ⟨some data, true⟩
  once : (s.answered.map Prod.fst).Nodup

/-- What was last synced does not go back to an older version, and no poll compares
what a remote update has written and is yet to record. -/
def InOrder (s : ClipboardTasks) : ClipboardOp → Prop
  | .compare call => ∀ version data, s.calls call = .comparing version (some data) →
      s.manager.lastSynced = some data ∨
        s.stored ≤ version ∧ ∀ other, s.calls other ≠ .recording version data
  | .record call => ∀ version data, s.calls call = .recording version data →
      s.manager.lastSynced = some data ∨ s.stored ≤ version
  | _ => True

/-- What was last synced is the newest version stored, and remote content is stored or
about to be. -/
structure Guarded (s : ClipboardTasks) : Prop extends FromUser s where
  traced : ∀ call, (s.calls call).Traced s.manager.port
  remote : ∀ {version content}, s.manager.port.put version = some ⟨content, false⟩ →
    version ≤ s.stored ∨ ∃ call data, s.calls call = .recording version data
  empty : s.stored = 0 → s.manager.lastSynced = none
  synced : 0 < s.stored → ∃ data byUser, s.manager.lastSynced = some data ∧
    s.manager.port.put s.stored = some ⟨some data, byUser⟩ ∧
    (byUser = true → data.validate = .ok () → (s.stored, data) ∈ s.answered)
  settled : ∀ {version data}, (version, data) ∈ s.answered → version ≤ s.stored
  on : s.manager.enabled = true

theorem compare_same (version : Nat) (same : current = none ∨ s.manager.lastSynced = current) :
    s.compare version current = s := by
  have unchanged : s.manager.compare current = (s.manager, none) := by
    cases current with
    | none => rfl
    | some data =>
      have same := same.resolve_left (Option.some_ne_none data)
      simp only [ClipboardManager.compare, same, if_true]
  simp only [compare, unchanged, if_true, Option.map_none, Option.toList_none, List.append_nil]

theorem compare_new (version : Nat) (distinct : s.manager.lastSynced ≠ some data) :
    s.compare version (some data) =
      { s with
        manager.lastSynced := some data
        stored := max s.stored version
        answered := s.answered ++ if data.validate = .ok () then [(version, data)] else [] } := by
  simp only [compare, ClipboardManager.compare, if_neg distinct]
  cases data.validate with
  | error e => simp [distinct.symm]
  | ok => simp [distinct.symm]

namespace Guarded

/-- What a poll finds new, in order, is a user copy newer than anything stored. -/
theorem fresh (guarded : s.Guarded) (stands : s.calls call = .comparing version (some data))
    (inOrder : s.InOrder (.compare call)) (distinct : s.manager.lastSynced ≠ some data) :
    s.manager.port.put version = some ⟨some data, true⟩ ∧ s.stored < version := by
  obtain ⟨later, apart⟩ := (inOrder version data stands).resolve_left distinct
  have traced := guarded.traced call
  rw [stands] at traced
  obtain ⟨byUser, known⟩ := traced data rfl
  have newer : s.stored < version := by
    refine Nat.lt_of_le_of_ne later fun same => ?_
    have positive : 0 < s.stored := by
      rw [same]
      cases version with
      | zero => cases known
      | succ n => exact Nat.succ_pos n
    obtain ⟨data', _, last, known', _⟩ := guarded.synced positive
    rw [same, known] at known'
    cases known'
    exact distinct last
  refine ⟨?_, newer⟩
  cases byUser with
  | true => exact known
  | false =>
    rcases guarded.remote known with stored | ⟨other, data', recording⟩
    · omega
    · have traced := guarded.traced other
      rw [recording] at traced
      obtain rfl : data' = data := by
        have same := traced.1.symm.trans known
        simpa using same
      exact absurd recording (apart other)

theorem new (initial : Option ClipboardData) : (ClipboardTasks.new (.holding initial) true).Guarded where
  copied answered := by cases answered
  once := List.nodup_nil
  traced _ := trivial
  remote := by
    intro version content known
    rcases version with _ | _ | version <;> cases known
  empty _ := rfl
  synced positive := by cases positive
  settled answered := by cases answered
  on := rfl

theorem moved (guarded : s.Guarded) {call : Nat} {stands : ClipboardCall}
    (traced : stands.Traced s.manager.port) (released : ∀ version data, s.calls call ≠ .recording version data) :
    (s.withCall call stands).Guarded where
  copied := guarded.copied
  once := guarded.once
  traced other := by
    rw [withCall_calls]
    split
    · exact traced
    · exact guarded.traced other
  remote known := by
    rcases guarded.remote known with stored | ⟨other, data, recording⟩
    · exact .inl stored
    · refine .inr ⟨other, data, ?_⟩
      rw [withCall_calls, if_neg fun same => released _ _ (same ▸ recording)]
      exact recording
  empty := guarded.empty
  synced := guarded.synced
  settled := guarded.settled
  on := guarded.on

theorem put {calls : Nat → ClipboardCall} (guarded : s.Guarded) (next : Put)
    (recorded : next.byUser = false → ∃ call data, calls call = .recording (s.manager.port.puts.length + 1) data)
    (kept : ∀ {call version data}, s.calls call = .recording version data → calls call = .recording version data)
    (traced : ∀ call, (calls call).Traced ⟨s.manager.port.puts ++ [next]⟩) :
    Guarded { s with manager.port := ⟨s.manager.port.puts ++ [next]⟩, calls } where
  copied answered := s.manager.port.put_append next (guarded.copied answered)
  once := guarded.once
  traced := traced
  remote known := by
    rcases s.manager.port.put_append_cases next known with earlier | ⟨rfl, rfl⟩
    · rcases guarded.remote earlier with stored | ⟨call, data, recording⟩
      · exact .inl stored
      · exact .inr ⟨call, data, kept recording⟩
    · exact .inr (recorded rfl)
  empty := guarded.empty
  synced positive := by
    obtain ⟨data, byUser, last, known, answered⟩ := guarded.synced positive
    exact ⟨data, byUser, last, s.manager.port.put_append next known, answered⟩
  settled := guarded.settled
  on := guarded.on

theorem compare (guarded : s.Guarded) (stands : s.calls call = .comparing version current)
    (inOrder : s.InOrder (.compare call)) : ((s.compare version current).withCall call .idle).Guarded := by
  have released : ∀ version data, s.calls call ≠ .recording version data := by
    intro version data recording
    cases stands.symm.trans recording
  by_cases same : current = none ∨ s.manager.lastSynced = current
  · rw [compare_same version same]
    exact guarded.moved trivial released
  · obtain ⟨some, distinct⟩ := not_or.mp same
    obtain ⟨data, rfl⟩ := Option.ne_none_iff_exists'.mp some
    obtain ⟨known, newer⟩ := guarded.fresh stands inOrder distinct
    refine Guarded.moved (s := s.compare version (.some data)) ?_ trivial released
    rw [compare_new version distinct, Nat.max_eq_right newer.le]
    have answers : ∀ {v d}, (v, d) ∈ (s.answered ++ if data.validate = .ok () then [(version, data)] else []) →
        (v, d) ∈ s.answered ∨ v = version ∧ d = data := by
      intro v d member
      rcases List.mem_append.mp member with earlier | now
      · exact .inl earlier
      · split at now
        · exact .inr (Prod.mk.inj (List.mem_singleton.mp now))
        · cases now
    refine ⟨⟨fun answered => ?_, ?_⟩, guarded.traced, fun remote => ?_, fun zero => ?_, fun _ => ?_,
      fun answered => ?_, guarded.on⟩
    · rcases answers answered with earlier | ⟨rfl, rfl⟩
      · exact guarded.copied earlier
      · exact known
    · have unseen : version ∉ s.answered.map Prod.fst := by
        intro member
        obtain ⟨⟨v, d⟩, answered, rfl⟩ := List.mem_map.mp member
        exact absurd (guarded.settled answered) (Nat.not_le.mpr newer)
      rw [List.map_append, List.nodup_append]
      refine ⟨guarded.once, by split <;> simp, fun v earlier v' now => ?_⟩
      split at now
      · rw [List.map_singleton, List.mem_singleton] at now
        intro same
        rw [same, now] at earlier
        exact unseen earlier
      · cases now
    · rcases guarded.remote remote with stored | recording
      · exact .inl (stored.trans newer.le)
      · exact .inr recording
    · exact absurd zero (Nat.ne_of_gt (Nat.zero_lt_of_lt newer))
    · refine ⟨data, true, rfl, known, fun _ valid => ?_⟩
      rw [if_pos valid]
      exact List.mem_append_right _ (List.mem_singleton_self _)
    · rcases answers answered with earlier | ⟨rfl, rfl⟩
      · exact (guarded.settled earlier).trans newer.le
      · exact le_rfl

theorem record (guarded : s.Guarded) (stands : s.calls call = .recording version data)
    (inOrder : s.InOrder (.record call)) : ((s.record version data).withCall call .idle).Guarded := by
  have traced := guarded.traced call
  rw [stands] at traced
  obtain ⟨known, _⟩ := traced
  have positive : 0 < version := by
    cases version with
    | zero => cases known
    | succ n => exact Nat.succ_pos n
  refine ⟨⟨guarded.copied, guarded.once⟩, fun other => ?_, fun {v content} remote => ?_, fun zero => ?_,
    fun _ => ?_, fun answered => (guarded.settled answered).trans (Nat.le_max_left _ _), guarded.on⟩
  · rw [withCall_calls]
    split
    · trivial
    · exact guarded.traced other
  · rcases guarded.remote remote with stored | ⟨other, data', recording⟩
    · exact .inl (stored.trans (Nat.le_max_left _ _))
    · by_cases same : other = call
      · obtain ⟨rfl, rfl⟩ := ClipboardCall.recording.inj (stands.symm.trans (same ▸ recording))
        exact .inl (Nat.le_max_right _ _)
      · refine .inr ⟨other, data', ?_⟩
        rw [withCall_calls, if_neg same]
        exact recording
  · exact absurd zero (Nat.ne_of_gt (Nat.lt_of_lt_of_le positive (Nat.le_max_right _ _)))
  · change ∃ data' byUser, some data = some data' ∧
      s.manager.port.put (max s.stored version) = some ⟨some data', byUser⟩ ∧
      (byUser = true → data'.validate = .ok () → (max s.stored version, data') ∈ s.answered)
    by_cases later : s.stored ≤ version
    · rw [Nat.max_eq_right later]
      exact ⟨data, false, rfl, known, fun wrong => by cases wrong⟩
    · have last := (inOrder version data stands).resolve_right later
      rw [Nat.max_eq_left (by omega)]
      obtain ⟨data', byUser, last', rest⟩ := guarded.synced (by omega)
      exact ⟨data', byUser, last.symm.trans last', rest⟩

theorem step (guarded : s.Guarded) (keepsOn : op.KeepsOn) (inOrder : s.InOrder op)
    (step : ClipboardStep s op t) : t.Guarded := by
  cases moves step with
  | unpolled | unapplied => exact guarded
  | poll stands _ => exact guarded.moved trivial (by simp [stands])
  | unread stands => exact guarded.moved trivial (by simp [stands])
  | read stands =>
    refine guarded.moved (fun data same => ?_) (by simp [stands])
    have newest := s.manager.port.put_length
    rw [same, Option.bind_eq_some_iff] at newest
    obtain ⟨⟨_, byUser⟩, known, rfl⟩ := newest
    exact ⟨byUser, known⟩
  | compare stands => exact guarded.compare stands inOrder
  | update stands _ valid => exact guarded.moved valid (by simp [stands])
  | unwritten stands => exact guarded.moved trivial (by simp [stands])
  | @write call data stands =>
    have traced := guarded.traced call
    rw [stands] at traced
    refine guarded.put ⟨some data, false⟩ (fun _ => ⟨call, data, ?_⟩) ?_ ?_
    · exact Function.update_self ..
    · intro other version data' recording
      refine (Function.update_of_ne ?_ _ _).trans recording
      rintro rfl
      cases stands.symm.trans recording
    · intro other
      rw [Function.update_apply]
      split
      · exact ⟨s.manager.port.put_append_length _, traced⟩
      · exact (guarded.traced other).append _
  | record stands => exact guarded.record stands inOrder
  | on => exact ⟨⟨guarded.copied, guarded.once⟩, guarded.traced, guarded.remote, guarded.empty, guarded.synced,
      guarded.settled, rfl⟩
  | off => cases keepsOn
  | @forget call stands =>
    have traced := guarded.traced call
    rw [stands] at traced
    cases traced
  | copy =>
    exact guarded.put ⟨_, true⟩ (fun wrong => by cases wrong) id fun call => (guarded.traced call).append _

theorem of_run
    (run : Reaches (guarded ClipboardStep fun s op => op.KeepsOn ∧ s.InOrder op)
      (.new (.holding initial) true) ops s) :
    s.Guarded := by
  refine run.invariant (P := fun s => s.Guarded) ?_ (.new initial)
  rintro s op t guarded ⟨⟨keepsOn, inOrder⟩, step⟩
  exact guarded.step keepsOn inOrder step

/-- A poll that compares what a remote update is yet to record returns it. -/
theorem echoes (guarded : s.Guarded) (stands : s.calls call = .comparing version (some data))
    (distinct : s.manager.lastSynced ≠ some data) (awaiting : s.calls other = .recording version data)
    (step : ClipboardStep s (.compare call) t) : ¬ t.FromUser := by
  have traced := guarded.traced other
  rw [awaiting] at traced
  obtain ⟨known, valid⟩ := traced
  intro fromUser
  have compared : some ((s.compare version (some data)).withCall call .idle) = some t := by
    rw [← step]
    simp only [run, stands]
  cases compared
  have answered : (version, data) ∈ (s.compare version (some data)).answered := by
    rw [compare_new version distinct, if_pos valid]
    exact List.mem_append_right _ (List.mem_singleton_self _)
  have copied := fromUser.copied answered
  have same : (s.compare version (some data)).manager.port = s.manager.port := by
    rw [compare_new version distinct]
  cases known.symm.trans (same ▸ copied)

end Guarded

/-- What the next poll finds, when what was last synced has gone back to something
older than all there is to record. -/
theorem Guarded.reannounces (guarded : s.Guarded) (settled : s.stored = s.manager.port.puts.length)
    (valid : ∀ data, s.manager.port.read = some data → data.validate = .ok ())
    (port : t.manager.port = s.manager.port) (answered : ∀ entry ∈ s.answered, entry ∈ t.answered)
    (back : t.manager.lastSynced = some data) (distinct : s.manager.lastSynced ≠ some data)
    (on : t.manager.enabled = true) (idle : t.calls call = .idle) (positive : 0 < s.stored) :
    ∃ u, [.poll call, .read call none, .compare call].foldlM run t = some u ∧ ¬ u.FromUser := by
  obtain ⟨newest, byUser, last, known, announced⟩ := guarded.synced positive
  have read : s.manager.port.read = some newest := by
    rw [← s.manager.port.put_length, ← settled, known]
    rfl
  refine ⟨_, (poll_alone idle on).1, fun fromUser => ?_⟩
  have stale : t.manager.lastSynced ≠ some newest := by
    rw [back, ← last]
    exact fun same => distinct same.symm
  rw [port, read, compare_new _ stale, if_pos (valid newest read), ← settled] at fromUser
  have again := fromUser.copied (List.mem_append_right _ (List.mem_singleton_self _))
  rw [port, known] at again
  cases again
  -- A user copy, so it was announced when it was stored.
  have before := answered _ (announced rfl (valid newest read))
  have once := fromUser.once
  rw [List.map_append, List.nodup_append] at once
  exact once.2.2 s.stored (List.mem_map_of_mem before) s.stored
    (List.mem_map_of_mem (List.mem_singleton_self _)) rfl

end ClipboardTasks

open ClipboardTasks

/-- With sharing on throughout, and every comparison and record in order: every answer
of a poll was put on the clipboard by a user copy, and none was returned before. Out
of order, once all that was put on the clipboard has been recorded, an answer is wrong
there or at the next poll. -/
theorem answers_from_user
    (run : Reaches (guarded ClipboardStep fun s op => op.KeepsOn ∧ s.InOrder op)
      (.new (.holding initial) true) ops s) :
    s.FromUser ∧
    (∀ call version data other t, s.calls call = .comparing version (some data) → s.manager.lastSynced ≠ some data →
      s.calls other = .recording version data → ClipboardStep s (.compare call) t → ¬ t.FromUser) ∧
    ∀ op t, op.KeepsOn → ¬ s.InOrder op → ClipboardStep s op t → s.stored = s.manager.port.puts.length →
      (∀ data, s.manager.port.read = some data → data.validate = .ok ()) →
      ¬ t.FromUser ∨ ∃ call u, [.poll call, .read call none, .compare call].foldlM ClipboardTasks.run t = some u ∧
        ¬ u.FromUser := by
  have guarded := Guarded.of_run run
  refine ⟨guarded.toFromUser, fun _ _ _ _ _ stands distinct awaiting => guarded.echoes stands distinct awaiting, ?_⟩
  intro op t keepsOn outOfOrder step settled valid
  cases op with
  | compare call =>
    simp only [InOrder, not_forall, not_or, not_and] at outOfOrder
    obtain ⟨version, data, stands, distinct, late⟩ := outOfOrder
    by_cases later : s.stored ≤ version
    · obtain ⟨other, awaiting⟩ := late later
      exact .inl (guarded.echoes stands distinct (not_not.mp awaiting) step)
    · right
      have compared : some ((s.compare version (some data)).withCall call .idle) = some t := by
        rw [← step]
        simp only [ClipboardTasks.run, stands]
      cases compared
      rw [compare_new version distinct]
      exact ⟨call, guarded.reannounces settled valid rfl (fun _ => List.mem_append_left _) rfl distinct guarded.on
        (Function.update_self ..) (by omega)⟩
  | record call =>
    simp only [InOrder, not_forall, not_or] at outOfOrder
    obtain ⟨version, data, stands, distinct, late⟩ := outOfOrder
    right
    have recorded : some ((s.record version data).withCall call .idle) = some t := by
      rw [← step]
      simp only [ClipboardTasks.run, stands]
    cases recorded
    exact ⟨call, guarded.reannounces settled valid rfl (fun _ => id) rfl distinct guarded.on
      (Function.update_self ..) (by omega)⟩
  | _ => exact absurd trivial outOfOrder

theorem answers_from_user_copied : ∃ s : ClipboardTasks, s.answered = [(2, .text "copied")] ∧ s.FromUser := by
  obtain ⟨s, run, tested⟩ := Reaches.of_any ClipboardStep.of_run
    (show ([.copy (some (.text "copied")), .poll 0, .read 0 none].foldlM
        ClipboardTasks.run (.new (.holding none) true)).any
      (fun s => s.stored = 0 ∧ s.manager.port.put 2 = some ⟨some (.text "copied"), true⟩ ∧
        s.calls 0 = .comparing 2 (some (.text "copied")) ∧
        (s.run (.compare 0)).any (·.answered = [(2, .text "copied")])) = true by decide +kernel)
  obtain ⟨stored, user, stands, compared⟩ := of_decide_eq_true tested
  obtain ⟨t, step, answered⟩ := (Option.any_eq_true _ _).mp compared
  have earlier : Reaches (guarded ClipboardStep fun s op => op.KeepsOn ∧ s.InOrder op) _ _ s :=
    (run.guard (fun op => ∀ s : ClipboardTasks, op.KeepsOn ∧ s.InOrder op)
      (by simp [ClipboardOp.KeepsOn, InOrder])).mono fun ⟨inOrder, step⟩ => ⟨inOrder _, step⟩
  have kept := Guarded.of_run earlier
  have inOrder : s.InOrder (.compare 0) := by
    intro version data stands'
    obtain ⟨rfl, same⟩ := ClipboardCall.comparing.inj (stands.symm.trans stands')
    refine .inr ⟨by omega, fun other recording => ?_⟩
    have traced := kept.traced other
    rw [recording] at traced
    cases user.symm.trans traced.1
  have last : guarded ClipboardStep (fun s op => op.KeepsOn ∧ s.InOrder op) s (.compare 0) t :=
    ⟨⟨trivial, inOrder⟩, step⟩
  exact ⟨t, of_decide_eq_true answered, (answers_from_user (earlier.next last)).1⟩

/-- A poll that comes between a remote update's write and its record returns it. -/
theorem echo_answered : ¬ ∀ (initial : Option ClipboardData) (ops : List ClipboardOp) (s : ClipboardTasks),
    Reaches (guarded ClipboardStep fun _ op => op.KeepsOn) (.new (.holding initial) true) ops s → s.FromUser := by
  intro fromUser
  obtain ⟨s, run, tested⟩ := Reaches.of_any ClipboardStep.of_run
    (show ([.update 0 (.text "remote"), .write 0 none, .poll 1, .read 1 none, .compare 1].foldlM
        ClipboardTasks.run (.new (.holding none) true)).any
      (fun s => (2, .text "remote") ∈ s.answered ∧
        s.manager.port.put 2 = some ⟨some (.text "remote"), false⟩) = true by decide +kernel)
  obtain ⟨answered, remote⟩ := of_decide_eq_true tested
  have keepsOn := run.guard ClipboardOp.KeepsOn (by simp [ClipboardOp.KeepsOn])
  cases remote.symm.trans ((fromUser _ _ s keepsOn).copied answered)

end Omnipresent
