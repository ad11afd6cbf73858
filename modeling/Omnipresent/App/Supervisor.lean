import Mathlib.Data.List.Infix
import Omnipresent.Transition

/-! The supervisor of the embedded daemon: a slot for the handle of the thread that runs
it, behind a lock which each call of start and stop holds to its end, and the threads
themselves, which end whenever they do. -/
namespace Omnipresent
open Transition

/-- A daemon thread inside `run`, out of it and telling so, or gone. -/
inductive ThreadStage where
  | running
  | reporting
  | finished
deriving DecidableEq, Repr

inductive StopStage where
  | requesting (handle : Option Nat)
  | waiting (handle : Nat)
deriving DecidableEq, Repr

structure Supervisor where
  /-- Every thread spawned so far; a handle is a position here. -/
  threads : List ThreadStage
  thread : Option Nat
  running : Bool
  /-- The stop that holds the lock. -/
  stopping : Option StopStage
deriving DecidableEq, Repr

inductive SupervisorEvent where
  | start
  | stop
  /-- The stop request is answered. -/
  | requested (answer : Except String Unit)
  | joined
  | timedOut
  /-- A thread's `run` returns. -/
  | returned (thread : Nat)
  /-- A thread ends, after its report or by a panic. -/
  | ended (thread : Nat)

/-- Nothing listening is the state the caller wanted anyway. -/
def requestStop : Except String Unit → Except String Unit
  | .ok _ => .ok ()
  | .error message => if "not running".toList <:+: message.toList then .ok () else .error message

namespace Supervisor
variable {s t : Supervisor} {handle : Nat} {before stage : ThreadStage}

def fresh : Supervisor := ⟨[], none, false, none⟩

def isFinished (self : Supervisor) (handle : Nat) : Bool := self.threads[handle]?.all (· = .finished)

/-- Starts the daemon unless one of ours is already running; a finished thread is reaped. -/
def start (self : Supervisor) : Supervisor × Except String Unit :=
  match self.thread.filter fun handle => !self.isFinished handle with
  | some handle => ({ self with thread := some handle }, .ok ())
  | none =>
    ({ self with threads := self.threads ++ [.running], thread := some self.threads.length, running := true }, .ok ())

/-- A stop takes the handle out of the slot before it asks the daemon. -/
def stop (self : Supervisor) : Supervisor :=
  { self with thread := none, stopping := some (.requesting self.thread) }

/-- What a stop does with the answer; it gives back its own where it ends there. -/
def requested (self : Supervisor) (handle : Option Nat) (answer : Except String Unit) :
    Supervisor × Option (Except String Unit) :=
  match handle with
  | none => ({ self with stopping := none }, some (requestStop answer))
  | some handle =>
    match requestStop answer with
    | .error message => ({ self with stopping := none }, some (.error message))
    | .ok _ => ({ self with stopping := some (.waiting handle) }, none)

/-- Past the deadline the handle is put back. -/
def timedOut (self : Supervisor) (handle : Nat) : Supervisor × Except String Unit :=
  ({ self with thread := some handle, stopping := none }, .error "the daemon did not stop in time")

def joined (self : Supervisor) : Supervisor × Except String Unit := ({ self with stopping := none }, .ok ())

def step (self : Supervisor) : SupervisorEvent → Option Supervisor
  | .start => if self.stopping = none then some self.start.1 else none
  | .stop => if self.stopping = none then some self.stop else none
  | .requested answer =>
    match self.stopping with
    | some (.requesting handle) => some (self.requested handle answer).1
    | _ => none
  | .joined =>
    match self.stopping with
    | some (.waiting handle) => if self.isFinished handle then some self.joined.1 else none
    | _ => none
  | .timedOut =>
    match self.stopping with
    | some (.waiting handle) => some (self.timedOut handle).1
    | _ => none
  | .returned thread =>
    if self.threads[thread]? = some .running then
      some { self with threads := self.threads.set thread .reporting, running := false }
    else none
  | .ended thread =>
    if self.threads[thread]?.any (· ≠ .finished) then
      some { self with threads := self.threads.set thread .finished }
    else none

def Step (s : Supervisor) (event : SupervisorEvent) (t : Supervisor) : Prop := s.step event = some t

def Unfinished (self : Supervisor) (thread : Nat) : Prop :=
  ∃ stage, self.threads[thread]? = some stage ∧ stage ≠ .finished

/-- Between calls, whatever thread is not gone is the one in the slot. -/
def Held (self : Supervisor) : Prop :=
  self.stopping = none → ∀ thread, self.Unfinished thread → self.thread = some thread

/-- The thread is held, and no start spawns another while there is one. -/
def OneDaemon (s : Supervisor) (event : SupervisorEvent) (t : Supervisor) : Prop :=
  t.Held ∧ (event = .start → (∃ thread, s.Unfinished thread) → t.threads = s.threads)

/-- A stop whose request fails finds its thread gone already. -/
def Lets (self : Supervisor) : SupervisorEvent → Prop
  | .requested answer => ∀ handle message, self.stopping = some (.requesting (some handle)) →
      requestStop answer = .error message → self.isFinished handle
  | _ => True

/-- The one handle there is, in the slot or with the stop that took it out. -/
def holder (self : Supervisor) : Option Nat :=
  match self.stopping with
  | none => self.thread
  | some (.requesting handle) => handle
  | some (.waiting handle) => some handle

/-- Whatever thread is not gone, its handle is not lost; the slot is empty during a stop. -/
structure Owned (s : Supervisor) : Prop where
  owner : ∀ thread, s.Unfinished thread → s.holder = some thread
  taken : s.stopping ≠ none → s.thread = none

theorem isFinished_eq_false : s.isFinished handle = false ↔ s.Unfinished handle := by
  rw [isFinished, Unfinished]
  cases s.threads[handle]? with
  | none => simp
  | some stage => simp

theorem Unfinished.of_set (before : s.Unfinished handle) (threads : t.threads = s.threads.set handle stage)
    (unfinished : t.Unfinished other) : s.Unfinished other := by
  obtain ⟨stage', found, alive⟩ := unfinished
  rw [threads, List.getElem?_set] at found
  split at found
  · subst other
    exact before
  · exact ⟨stage', found, alive⟩

namespace Owned

theorem fresh : Supervisor.fresh.Owned where
  owner thread unfinished := by
    obtain ⟨stage, found, _⟩ := unfinished
    cases found
  taken busy := absurd rfl busy

theorem held (owned : s.Owned) : s.Held := by
  intro idle thread unfinished
  have holder := owned.owner thread unfinished
  rwa [Supervisor.holder, idle] at holder

/-- Where a thread is still there, a start changes nothing; where none is, it holds the one
it spawns. -/
theorem start (owned : s.Owned) (idle : s.stopping = none) :
    s.start.1.Owned ∧ ((∃ thread, s.Unfinished thread) → s.start.1.threads = s.threads) := by
  have held := owned.held idle
  rw [Supervisor.start]
  cases kept : s.thread.filter fun handle => !s.isFinished handle with
  | some handle =>
    have found := (Option.filter_eq_some_iff.mp kept).1
    refine ⟨⟨fun thread unfinished => ?_, fun busy => absurd idle busy⟩, fun _ => rfl⟩
    rw [Supervisor.holder, idle]
    exact found.symm.trans (held thread unfinished)
  | none =>
    have gone : ∀ thread, ¬ s.Unfinished thread := by
      intro thread unfinished
      have alive := isFinished_eq_false.mpr unfinished
      rw [held thread unfinished] at kept
      simp [Option.filter, alive] at kept
    refine ⟨⟨fun thread unfinished => ?_, fun busy => absurd idle busy⟩,
      fun ⟨thread, unfinished⟩ => absurd unfinished (gone thread)⟩
    obtain ⟨stage, found, alive⟩ := unfinished
    rw [List.getElem?_append] at found
    split at found
    · exact absurd ⟨stage, found, alive⟩ (gone thread)
    · have last : thread = s.threads.length := by
        have bound := (List.getElem?_eq_some_iff.mp found).1
        simp only [List.length_singleton] at bound
        omega
      rw [last, Supervisor.holder, idle]

theorem stop (owned : s.Owned) (idle : s.stopping = none) : s.stop.Owned where
  owner thread unfinished := owned.held idle thread unfinished
  taken _ := rfl

/-- The one step that can lose a handle is a stop whose request fails. -/
theorem requested (owned : s.Owned) (stopping : s.stopping = some (.requesting slot)) (answer : Except String Unit) :
    ((s.requested slot answer).1.Held ↔ s.Lets (.requested answer)) ∧
      (s.Lets (.requested answer) → (s.requested slot answer).1.Owned) := by
  have empty := owned.taken (by simp [stopping])
  cases slot with
  | none =>
    have gone : ∀ thread, ¬ s.Unfinished thread := by
      intro thread unfinished
      have holder := owned.owner thread unfinished
      simp [Supervisor.holder, stopping] at holder
    have after : (s.requested none answer).1.Owned :=
      ⟨fun thread unfinished => absurd unfinished (gone thread), fun busy => absurd rfl busy⟩
    refine ⟨⟨fun _ handle message same => ?_, fun _ => after.held⟩, fun _ => after⟩
    simp [stopping] at same
  | some handle =>
    have mine : ∀ thread, s.Unfinished thread → thread = handle := by
      intro thread unfinished
      have holder := owned.owner thread unfinished
      simp only [Supervisor.holder, stopping, Option.some.injEq] at holder
      exact holder.symm
    rw [Supervisor.requested]
    cases answered : requestStop answer with
    | ok _ =>
      have after : ({ s with stopping := some (.waiting handle) } : Supervisor).Owned :=
        ⟨fun thread unfinished => congrArg some (mine thread unfinished).symm, fun _ => empty⟩
      refine ⟨⟨fun _ handle message _ failed => ?_, fun _ => after.held⟩, fun _ => after⟩
      cases answered.symm.trans failed
    | error message =>
      have after : s.isFinished handle = true → ({ s with stopping := none } : Supervisor).Owned := by
        intro finished
        refine ⟨fun thread unfinished => ?_, fun busy => absurd rfl busy⟩
        obtain rfl := mine thread unfinished
        have alive := isFinished_eq_false.mpr (show s.Unfinished thread from unfinished)
        rw [finished] at alive
        cases alive
      have lets : s.Lets (.requested answer) ↔ s.isFinished handle = true := by
        refine ⟨fun lets => lets handle message stopping answered, fun finished handle' message' same _ => ?_⟩
        cases stopping.symm.trans same
        exact finished
      refine ⟨⟨fun kept => lets.mpr ?_, fun admitted => (after (lets.mp admitted)).held⟩, fun admitted =>
        after (lets.mp admitted)⟩
      by_contra alive
      -- Not gone, it would have to be in the slot, which is empty.
      have unfinished := isFinished_eq_false.mp (Bool.eq_false_iff.mpr alive)
      have found := kept rfl handle unfinished
      rw [empty] at found
      cases found

theorem joined (owned : s.Owned) (stopping : s.stopping = some (.waiting handle))
    (finished : s.isFinished handle = true) :
    s.joined.1.Owned where
  owner thread unfinished := by
    have holder := owned.owner thread unfinished
    simp only [Supervisor.holder, stopping, Option.some.injEq] at holder
    subst holder
    have alive := isFinished_eq_false.mpr (show s.Unfinished handle from unfinished)
    rw [finished] at alive
    cases alive
  taken busy := absurd rfl busy

theorem timedOut (owned : s.Owned) (stopping : s.stopping = some (.waiting handle)) :
    (s.timedOut handle).1.Owned where
  owner thread unfinished := by
    have holder := owned.owner thread unfinished
    rwa [Supervisor.holder, stopping] at holder
  taken busy := absurd rfl busy

theorem set (owned : s.Owned) (before : s.Unfinished handle) (threads : t.threads = s.threads.set handle stage)
    (thread : t.thread = s.thread) (stopping : t.stopping = s.stopping) : t.Owned where
  owner other unfinished := by
    have holder := owned.owner other (before.of_set threads unfinished)
    rwa [Supervisor.holder, thread, stopping]
  taken busy := by
    rw [thread]
    exact owned.taken (stopping ▸ busy)

/-- What a step leaves behind is owned and held exactly if it is let through. -/
theorem step (owned : s.Owned) (stepped : Step s event t) :
    (OneDaemon s event t ↔ s.Lets event) ∧ (s.Lets event → t.Owned) := by
  have settled : ∀ {event}, t.Owned → event ≠ .start → s.Lets event →
      (OneDaemon s event t ↔ s.Lets event) ∧ (s.Lets event → t.Owned) := fun after other admitted =>
    ⟨⟨fun _ => admitted, fun _ => ⟨after.held, fun same => absurd same other⟩⟩, fun _ => after⟩
  unfold Step Supervisor.step at stepped
  cases event with
  | start =>
    dsimp only at stepped
    split at stepped
    · cases stepped
      obtain ⟨after, same⟩ := owned.start ‹_›
      exact ⟨⟨fun _ => trivial, fun _ => ⟨after.held, fun _ => same⟩⟩, fun _ => after⟩
    · cases stepped
  | stop =>
    dsimp only at stepped
    split at stepped
    · cases stepped
      exact settled (owned.stop ‹_›) nofun trivial
    · cases stepped
  | requested answer =>
    dsimp only at stepped
    split at stepped
    · cases stepped
      obtain ⟨exact', after⟩ := owned.requested ‹_› answer
      exact ⟨⟨fun one => exact'.mp one.1, fun admitted => ⟨exact'.mpr admitted, nofun⟩⟩, after⟩
    · cases stepped
  | joined =>
    dsimp only at stepped
    split at stepped
    · split at stepped
      · cases stepped
        exact settled (owned.joined ‹_› ‹_›) nofun trivial
      · cases stepped
    · cases stepped
  | timedOut =>
    dsimp only at stepped
    split at stepped
    · cases stepped
      exact settled (owned.timedOut ‹_›) nofun trivial
    · cases stepped
  | returned thread =>
    dsimp only at stepped
    split at stepped
    · cases stepped
      exact settled (owned.set ⟨.running, ‹_›, nofun⟩ rfl rfl rfl) nofun trivial
    · cases stepped
  | ended thread =>
    dsimp only at stepped
    split at stepped
    · cases stepped
      obtain ⟨stage, found, alive⟩ := (Option.any_eq_true _ _).mp ‹_›
      exact settled (owned.set ⟨stage, found, of_decide_eq_true alive⟩ rfl rfl rfl) nofun trivial
    · cases stepped

end Owned

/-- Between calls every daemon thread that is not gone is held in the slot, and a start
spawns none beside it, exactly as long as no stop's request fails while its thread is
still there. -/
theorem one_daemon (events : List SupervisorEvent) :
    Along Step fresh events OneDaemon ↔ Along Step fresh events fun s event _ => s.Lets event :=
  along_iff Owned.fresh (fun owned stepped => (owned.step stepped).1) fun owned admitted stepped =>
    (owned.step stepped).2 admitted

/-- A daemon too busy to answer is asked to stop, and then started once more. -/
def askedInVain : List SupervisorEvent :=
  [.start, .stop, .requested (.error "the daemon closed the connection without answering"), .start]

/-- Two threads are in `run`, and only the second is in the slot. -/
theorem two_daemons :
    (∃ s, Reaches Step fresh askedInVain s ∧ s.threads = [.running, .running] ∧ s.thread = some 1) ∧
      ¬ ∀ events, Along Step fresh events OneDaemon := by
  have asked : Reaches Step fresh (askedInVain.take 3) ⟨[.running], none, true, none⟩ :=
    .of_foldlM (fun stepped => stepped) (by decide +kernel)
  have again : Step ⟨[.running], none, true, none⟩ .start ⟨[.running, .running], some 1, true, none⟩ := rfl
  refine ⟨⟨_, asked.next again, rfl, rfl⟩, fun along => ?_⟩
  have same := (along askedInVain (askedInVain.take 3) .start _ _ (List.prefix_refl _) asked again).2 rfl
    ⟨0, .running, rfl, nofun⟩
  cases same

end Supervisor
end Omnipresent
