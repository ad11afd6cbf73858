import Omnipresent.App.Supervisor

/-! What a start leaves running. The daemon's thread comes out of `run` before it clears the
flag, and clears the flag before it ends, and it can do so while a start is still under way. -/
namespace Omnipresent
open Transition

/-- The supervisor at every moment of its threads and of a start. -/
structure EmbeddedDaemon where
  supervisor : Supervisor
  /-- The threads whose `run` has returned and that have not cleared the flag yet. -/
  leaving : List Nat
  /-- Whether a start has done its work under the lock and not returned yet. -/
  starting : Bool
deriving DecidableEq, Repr

inductive EmbeddedEvent where
  | start
  /-- The start returns. -/
  | started
  | stop
  | requested (answer : Except String Unit)
  | joined
  | timedOut
  /-- A thread's `run` returns. -/
  | left (thread : Nat)
  /-- A thread that has left `run` clears the flag. -/
  | cleared (thread : Nat)
  /-- A thread ends, after its report or by a panic. -/
  | ended (thread : Nat)

namespace EmbeddedDaemon
variable {s t : EmbeddedDaemon} {event : EmbeddedEvent}

def fresh : EmbeddedDaemon := ⟨.fresh, [], false⟩

def call : EmbeddedEvent → Option SupervisorEvent
  | .start => some .start
  | .started => none
  | .stop => some .stop
  | .requested answer => some (.requested answer)
  | .joined => some .joined
  | .timedOut => some .timedOut
  | .left _ => none
  | .cleared thread => some (.returned thread)
  | .ended thread => some (.ended thread)

/-- When it can happen: a start or a stop has to get the lock. -/
def enabled (self : EmbeddedDaemon) : EmbeddedEvent → Bool
  | .start | .stop => !self.starting
  | .started => self.starting
  | .left thread => self.supervisor.threads[thread]? = some .running ∧ thread ∉ self.leaving
  | .cleared thread => thread ∈ self.leaving
  | .ended thread => thread ∉ self.leaving
  | .requested _ | .joined | .timedOut => true

def advance (self : EmbeddedDaemon) (supervisor : Supervisor) : EmbeddedEvent → EmbeddedDaemon
  | .start => ⟨supervisor, self.leaving, true⟩
  | .started => ⟨supervisor, self.leaving, false⟩
  | .left thread => ⟨supervisor, thread :: self.leaving, self.starting⟩
  | .cleared thread => ⟨supervisor, self.leaving.filter (· ≠ thread), self.starting⟩
  | .stop | .requested _ | .joined | .timedOut | .ended _ => ⟨supervisor, self.leaving, self.starting⟩

def step (self : EmbeddedDaemon) (event : EmbeddedEvent) : Option EmbeddedDaemon :=
  if self.enabled event then
    match call event with
    | some event' => (self.supervisor.step event').map (self.advance · event)
    | none => some (self.advance self.supervisor event)
  else none

def Step (s : EmbeddedDaemon) (event : EmbeddedEvent) (t : EmbeddedDaemon) : Prop := s.step event = some t

/-- A daemon thread of this supervisor that has not left `run`. -/
def Inside (self : EmbeddedDaemon) (thread : Nat) : Prop :=
  self.supervisor.threads[thread]? = some .running ∧ thread ∉ self.leaving

def isEmbedded (self : EmbeddedDaemon) : Bool := self.supervisor.running

/-- A start that returns, which it does with `Ok`, leaves a daemon running and says so. -/
def StartMeansRunning (_ : EmbeddedDaemon) (event : EmbeddedEvent) (t : EmbeddedDaemon) : Prop :=
  event = .started → (∃ thread, t.Inside thread) ∧ t.isEmbedded = true

/-- No stop's request fails while its thread is still there. A thread let out of the slot so would
clear the flag when it ends, whichever thread is in `run` by then. -/
def Lets (self : EmbeddedDaemon) (event : EmbeddedEvent) : Prop :=
  ∀ event', call event = some event' → self.supervisor.Lets event'

/-- No start finds a thread in the slot that has left `run` and has not finished, and no
thread leaves `run` while a start is under way, be it by a panic. -/
def Stays (self : EmbeddedDaemon) : EmbeddedEvent → Prop
  | .start => ∀ handle, self.supervisor.thread = some handle → self.supervisor.isFinished handle = false →
    self.Inside handle
  | .left _ => self.starting = false
  | .ended thread => self.starting = true → ¬ self.Inside thread
  | _ => True

end EmbeddedDaemon

namespace Supervisor
variable {s t : Supervisor} {thread : Nat}

/-- A start leaves its thread in the slot: one that was there and is not gone, or a new one. -/
theorem start_cases (s : Supervisor) :
    (∃ handle, s.thread = some handle ∧ s.isFinished handle = false ∧ s.start.1 = s) ∨
    s.start.1 =
      { s with threads := s.threads ++ [.running], thread := some s.threads.length, running := true } := by
  rw [start]
  cases kept : s.thread.filter fun handle => !s.isFinished handle with
  | none => exact .inr rfl
  | some handle =>
    obtain ⟨found, alive⟩ := Option.filter_eq_some_iff.mp kept
    refine .inl ⟨handle, found, by simpa using alive, ?_⟩
    change { s with thread := some handle } = s
    rw [← found]

/-- What a step does to the threads and the flag: a start may spawn, a thread may clear the
flag or end, and a stop, at whatever point, does neither. -/
def Moves (s : Supervisor) (event : SupervisorEvent) (t : Supervisor) : Prop :=
  match event with
  | .start => s.stopping = none ∧ t = s.start.1
  | .stop => s.stopping = none ∧ t = s.stop
  | .requested _ | .joined | .timedOut => s.stopping ≠ none ∧ t.threads = s.threads ∧ t.running = s.running
  | .returned thread => s.threads[thread]? = some ThreadStage.running ∧
      t = { s with threads := s.threads.set thread .reporting, running := false }
  | .ended thread => t = { s with threads := s.threads.set thread .finished }

theorem requested_quiet (s : Supervisor) (handle : Option Nat) (answer : Except String Unit) :
    (s.requested handle answer).1.threads = s.threads ∧ (s.requested handle answer).1.running = s.running := by
  rw [requested.eq_def]
  cases handle with
  | none => exact ⟨rfl, rfl⟩
  | some handle => cases requestStop answer <;> exact ⟨rfl, rfl⟩

theorem step_moves (stepped : Step s event t) : s.Moves event t := by
  rw [Step, step.eq_def] at stepped
  cases event with
  | start | stop | returned =>
    obtain ⟨guard, same⟩ := Option.ite_none_right_eq_some.mp stepped
    exact ⟨guard, (Option.some.inj same).symm⟩
  | ended thread =>
    obtain ⟨_, same⟩ := Option.ite_none_right_eq_some.mp stepped
    exact (Option.some.inj same).symm
  | requested answer =>
    dsimp only at stepped
    split at stepped
    · rename_i handle busy
      cases stepped
      exact ⟨by simp [busy], requested_quiet s handle answer⟩
    · cases stepped
  | joined =>
    dsimp only at stepped
    split at stepped
    · rename_i handle busy
      obtain ⟨_, same⟩ := Option.ite_none_right_eq_some.mp stepped
      cases same
      exact ⟨by simp [busy], rfl, rfl⟩
    · cases stepped
  | timedOut =>
    dsimp only at stepped
    split at stepped
    · rename_i handle busy
      cases stepped
      exact ⟨by simp [busy], rfl, rfl⟩
    · cases stepped

theorem running_of_set {threads : List ThreadStage} (stopped : stage ≠ ThreadStage.running)
    (found : (threads.set thread stage)[other]? = some ThreadStage.running) :
    thread ≠ other ∧ threads[other]? = some ThreadStage.running := by
  rw [List.getElem?_set] at found
  split at found
  · split at found
    · exact absurd (Option.some.inj found) stopped
    · cases found
  · rename_i different
    exact ⟨different, found⟩

/-- The flag is set while any thread is in `run` and has not cleared it. -/
def Flagged (self : Supervisor) : Prop :=
  ∀ thread : Nat, self.threads[thread]? = some ThreadStage.running → self.running = true

theorem Flagged.step (flagged : s.Flagged) (owned : s.Owned) (stepped : Step s event t) : t.Flagged := by
  have moves := step_moves stepped
  have quiet : t.threads = s.threads ∧ t.running = s.running → t.Flagged := by
    rintro ⟨threads, running⟩ thread found
    rw [threads] at found
    rw [running]
    exact flagged thread found
  cases event with
  | start =>
    obtain ⟨_, rfl⟩ := moves
    obtain ⟨_, _, _, same⟩ | spawned := start_cases s
    · rwa [same]
    · rw [spawned]
      exact fun _ _ => rfl
  | stop => exact quiet (by rw [moves.2]; exact ⟨rfl, rfl⟩)
  | requested | joined | timedOut => exact quiet moves.2
  | returned thread =>
    obtain ⟨running, rfl⟩ := moves
    intro other still
    -- The thread that clears the flag was the only one there.
    obtain ⟨different, found⟩ := running_of_set (by rintro ⟨⟩) still
    have mine := owned.owner thread ⟨_, running, by rintro ⟨⟩⟩
    have others := owned.owner other ⟨_, found, by rintro ⟨⟩⟩
    exact absurd (Option.some.inj (mine.symm.trans others)) different
  | ended thread =>
    cases moves
    exact fun other still => flagged other (running_of_set (by rintro ⟨⟩) still).2

end Supervisor

namespace EmbeddedDaemon
variable {s t : EmbeddedDaemon} {event : EmbeddedEvent}

/-- A thread that is leaving is in `run` as far as the supervisor knows; and a start under way
has its thread in the slot. -/
structure Sound (s : EmbeddedDaemon) : Prop where
  owned : s.supervisor.Owned
  flagged : s.supervisor.Flagged
  leaving : ∀ thread ∈ s.leaving, s.supervisor.threads[thread]? = some ThreadStage.running
  slot : s.starting = true → s.supervisor.stopping = none ∧ ∃ handle, s.supervisor.thread = some handle

theorem Sound.fresh : EmbeddedDaemon.fresh.Sound where
  owned := .fresh
  flagged thread found := by cases found
  leaving thread listed := absurd listed List.not_mem_nil
  slot starting := by cases starting

theorem step_cases (stepped : Step s event t) : s.enabled event = true ∧
    ((∃ event' supervisor, call event = some event' ∧ Supervisor.Step s.supervisor event' supervisor ∧
      t = s.advance supervisor event) ∨ (call event = none ∧ t = s.advance s.supervisor event)) := by
  rw [Step, step] at stepped
  obtain ⟨enabled, next⟩ := Option.ite_none_right_eq_some.mp stepped
  refine ⟨enabled, ?_⟩
  split at next
  · rename_i event' called
    obtain ⟨supervisor, moved, same⟩ := Option.map_eq_some_iff.mp next
    exact .inl ⟨event', supervisor, called, moved, same.symm⟩
  · rename_i own
    exact .inr ⟨own, (Option.some.inj next).symm⟩

theorem unlocked (enabled : s.enabled .stop = true) : s.starting = false := by
  simpa [EmbeddedDaemon.enabled] using enabled

theorem running_set {threads : List ThreadStage} (found : threads[other]? = some ThreadStage.running)
    (different : thread ≠ other) (stage : ThreadStage) :
    (threads.set thread stage)[other]? = some ThreadStage.running := by
  rw [List.getElem?_set_ne different, found]

theorem Sound.step (sound : s.Sound) (lets : s.Lets event) (stepped : Step s event t) : t.Sound := by
  obtain ⟨enabled, ⟨event', supervisor, called, moved, rfl⟩ | ⟨own, rfl⟩⟩ := step_cases stepped
  · have owned := (sound.owned.step moved).2 (lets event' called)
    have flagged := sound.flagged.step sound.owned moved
    have moves := Supervisor.step_moves moved
    cases event with
    | started | left => cases called
    | start =>
      cases called
      obtain ⟨idle, rfl⟩ := moves
      obtain ⟨handle, found, _, same⟩ | spawned := s.supervisor.start_cases
      · refine ⟨owned, flagged, ?_, fun _ => ?_⟩
        · rw [advance, same]
          exact sound.leaving
        · rw [advance, same]
          exact ⟨idle, handle, found⟩
      · refine ⟨owned, flagged, fun thread listed => ?_, fun _ => ?_⟩
        · rw [advance, spawned]
          exact List.getElem?_append_left (List.getElem?_eq_some_iff.mp (sound.leaving thread listed)).1 ▸
            sound.leaving thread listed
        · rw [advance, spawned]
          exact ⟨idle, _, rfl⟩
    | stop =>
      cases called
      obtain ⟨_, rfl⟩ := moves
      refine ⟨owned, flagged, sound.leaving, fun starting => ?_⟩
      cases (unlocked enabled).symm.trans starting
    | requested | joined | timedOut =>
      cases called
      obtain ⟨busy, threads, _⟩ := moves
      refine ⟨owned, flagged, fun thread listed => ?_, fun starting => absurd (sound.slot starting).1 busy⟩
      exact threads ▸ sound.leaving thread listed
    | cleared thread =>
      cases called
      obtain ⟨_, rfl⟩ := moves
      refine ⟨owned, flagged, fun other listed => ?_, sound.slot⟩
      obtain ⟨before, different⟩ := List.mem_filter.mp listed
      exact running_set (sound.leaving other before) (Ne.symm (of_decide_eq_true different)) _
    | ended thread =>
      cases called
      cases moves
      refine ⟨owned, flagged, fun other listed => ?_, sound.slot⟩
      refine running_set (sound.leaving other listed) ?_ _
      rintro rfl
      exact of_decide_eq_true enabled listed
  · cases event with
    | started => exact ⟨sound.owned, sound.flagged, sound.leaving, by rintro ⟨⟩⟩
    | left thread =>
      refine ⟨sound.owned, sound.flagged, fun other listed => ?_, sound.slot⟩
      rcases List.mem_cons.mp listed with rfl | before
      · exact (of_decide_eq_true enabled).1
      · exact sound.leaving other before
    | start | stop | requested | joined | timedOut | cleared | ended => cases own

/-- While a start is under way the thread in the slot is in `run`. -/
def Staying (self : EmbeddedDaemon) : Prop :=
  self.starting = true → ∀ handle, self.supervisor.thread = some handle → self.Inside handle

theorem Staying.step (staying : s.Staying) (sound : s.Sound) (stays : s.Stays event) (stepped : Step s event t) :
    t.Staying := by
  obtain ⟨enabled, ⟨event', supervisor, called, moved, rfl⟩ | ⟨own, rfl⟩⟩ := step_cases stepped
  · have moves := Supervisor.step_moves moved
    cases event with
    | started | left => cases called
    | start =>
      cases called
      obtain ⟨_, rfl⟩ := moves
      intro _ handle found
      rw [advance] at found ⊢
      obtain ⟨held, inSlot, alive, same⟩ | spawned := s.supervisor.start_cases
      · rw [same] at found ⊢
        cases inSlot.symm.trans found
        exact stays handle inSlot alive
      · -- The new thread has only just begun.
        rw [spawned] at found ⊢
        cases found
        refine ⟨List.getElem?_concat_length, fun listed => ?_⟩
        have old := (List.getElem?_eq_some_iff.mp (sound.leaving _ listed)).1
        exact absurd old (Nat.lt_irrefl _)
    | stop =>
      cases called
      intro starting
      cases (unlocked enabled).symm.trans starting
    | requested | joined | timedOut =>
      cases called
      exact fun starting => absurd (sound.slot starting).1 moves.1
    | cleared thread =>
      cases called
      obtain ⟨_, rfl⟩ := moves
      intro starting handle found
      obtain ⟨running, stayed⟩ := staying starting handle found
      have different : thread ≠ handle := by
        rintro rfl
        exact stayed (of_decide_eq_true enabled)
      exact ⟨running_set running different _, fun listed => stayed (List.mem_filter.mp listed).1⟩
    | ended thread =>
      cases called
      cases moves
      intro starting handle found
      have inside := staying starting handle found
      have different : thread ≠ handle := by
        rintro rfl
        exact stays starting inside
      exact ⟨running_set inside.1 different _, inside.2⟩
  · cases event with
    | started => rintro ⟨⟩
    | left thread =>
      intro starting
      cases (show s.starting = false from stays).symm.trans starting
    | start | stop | requested | joined | timedOut | cleared | ended => cases own

structure Steady (s : EmbeddedDaemon) : Prop where
  sound : s.Sound
  staying : s.Staying

theorem Steady.fresh : EmbeddedDaemon.fresh.Steady := ⟨.fresh, by rintro ⟨⟩⟩

theorem Steady.step (steady : s.Steady) (admitted : s.Lets event ∧ s.Stays event) (stepped : Step s event t) :
    t.Steady :=
  ⟨steady.sound.step admitted.1 stepped, steady.staying.step steady.sound admitted.2 stepped⟩

/-- When a start returns, the thread it answers for is in `run`. -/
def Returns (self : EmbeddedDaemon) (event : EmbeddedEvent) : Prop :=
  event = .started → ∀ handle, self.supervisor.thread = some handle → self.Inside handle

/-- The daemon a returning start leaves running is the one in the slot, and then the flag is set. -/
theorem Sound.started (sound : s.Sound) (stepped : Step s event t) :
    StartMeansRunning s event t ↔ s.Returns event := by
  by_cases returns : event = .started
  · subst returns
    obtain ⟨enabled, ⟨_, _, called, _, _⟩ | ⟨_, rfl⟩⟩ := step_cases stepped
    · cases called
    obtain ⟨idle, handle, found⟩ := sound.slot enabled
    constructor
    · intro means _ handle' found'
      obtain ⟨⟨thread, inside⟩, _⟩ := means rfl
      have held := sound.owned.held idle thread ⟨_, inside.1, by rintro ⟨⟩⟩
      cases held.symm.trans found'
      exact inside
    · intro inside _
      have mine := inside rfl handle found
      exact ⟨⟨handle, mine⟩, sound.flagged handle mine.1⟩
  · exact iff_of_true (fun same => absurd same returns) fun same => absurd same returns

/-- Start means running as long as no start finds a thread in the slot that has left `run`, none
leaves it during a start, and no stop's request fails with its thread still there. Given the
last, it does exactly where the thread in the slot is in `run` when the start returns. -/
theorem start_means_running (events : List EmbeddedEvent) :
    (Along Step fresh events (fun s event _ => s.Lets event ∧ s.Stays event) →
      Along Step fresh events StartMeansRunning) ∧
    (Along Step fresh events (fun s event t => s.Lets event ∧ StartMeansRunning s event t) ↔
      Along Step fresh events fun s event _ => s.Lets event ∧ s.Returns event) := by
  constructor
  · intro admitted before event s t start run last
    have steady := run.along Steady.fresh Steady.step
      (fun before event s t start run last _ => admitted before event s t start run last)
      ((List.prefix_append _ _).trans start)
    refine (steady.sound.started last).mpr fun returns => ?_
    obtain ⟨enabled, _⟩ := step_cases last
    subst returns
    exact steady.staying enabled
  · exact along_iff Sound.fresh (fun sound stepped => and_congr_right fun _ => sound.started stepped)
      fun sound admitted stepped => sound.step admitted.1 stepped

/-- The daemon fails, and before its thread has told so and ended, it is started again. -/
def startedInVain : List EmbeddedEvent := [.start, .started, .left 0, .cleared 0, .start, .started]

/-- The start returns with no daemon thread in `run`, and none embedded. -/
theorem start_returns_without_daemon :
    (∃ s, Reaches Step fresh startedInVain s ∧ (∀ thread, ¬ s.Inside thread) ∧ s.isEmbedded = false) ∧
      ¬ ∀ events, Along Step fresh events StartMeansRunning := by
  have run : Reaches Step fresh (startedInVain.take 5) ⟨⟨[.reporting], some 0, false, none⟩, [], true⟩ :=
    .of_foldlM (fun stepped => stepped) (by decide +kernel)
  have last : Step ⟨⟨[.reporting], some 0, false, none⟩, [], true⟩ .started
      ⟨⟨[.reporting], some 0, false, none⟩, [], false⟩ := rfl
  refine ⟨⟨_, run.next last, fun thread inside => ?_, rfl⟩, fun along => ?_⟩
  · have reporting := List.mem_singleton.mp (List.mem_of_getElem? inside.1)
    cases reporting
  · have embedded := (along startedInVain (startedInVain.take 5) .started _ _ (List.prefix_refl _) run last rfl).2
    cases embedded

end EmbeddedDaemon

end Omnipresent
