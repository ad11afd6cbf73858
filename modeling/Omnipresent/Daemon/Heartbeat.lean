import Omnipresent.Daemon.Peer
import Omnipresent.Watchdog

/-! The two tasks of one session as each other's heartbeat and audience: time passes, what
is written is under way, and neither gives the other up while both are there. -/
namespace Omnipresent
open Transition

namespace PeerTask
variable {s : PeerTask}

theorem turn_deadline (s : PeerTask) (now : Nat) (wake : Wake) :
    (s.turn now wake).deadline = s.deadline ∨ (s.turn now wake).deadline = now + heartbeatTimeout := by
  cases wake with
  | commands first queued broken =>
    left
    simp only [turn, PeerTask.wake]
    split <;> rfl
  | unlinked broken => exact .inl rfl
  | datagram payload =>
    right
    simp only [turn, PeerTask.wake]
    split
    · rename_i claimed event _
      rcases ({ s with clock := now } : PeerTask).heard.receive_cases claimed event with
        ⟨_, same⟩ | ⟨_, _, _, _, _, _, same⟩
      · rw [same]
        rfl
      · exact same
    · rfl
    · rfl
  | hungUp => exact .inr rfl
  | signalling received =>
    right
    rcases received with _ | (_ | message | _)
    · rfl
    · rfl
    · cases message with
      | cursorWarp claimed x y | cursorReturned claimed x y =>
        simp only [turn, PeerTask.wake]
        split <;> rfl
      | _ => rfl
    · rfl
  | bulk payload =>
    rcases payload with _ | (_ | _ | _)
    · exact .inl rfl
    · exact .inl rfl
    · exact .inl rfl
    · exact .inr rfl
  | heartbeat written => cases written <;> exact .inl rfl
  | silence => exact .inl rfl

end PeerTask

/-- How much later than its tick a heartbeat may be written, and how long after that the peer may
take to handle it. -/
structure Punctuality where
  late : Nat
  delay : Nat
  margin : heartbeatInterval + late + delay < heartbeatTimeout

def Punctuality.timing (self : Punctuality) : Watchdog.Timing :=
  ⟨heartbeatInterval, self.late, self.delay, heartbeatTimeout, self.margin⟩

structure Side where
  task : PeerTask
  /-- When its next heartbeat is due. -/
  due : Nat
  /-- When the heartbeats under way to it were written, oldest first. -/
  inbox : List Nat

structure Exchange where
  clock : Nat
  near : Side
  far : Side

/-- The side that accepted starts its task first; how far the other one is behind. -/
structure Opening (punctuality : Punctuality) where
  nearStarted : Nat
  farStarted : Nat
  /-- The first heartbeat of the near side, where it is under way before the far side starts. -/
  firstBeat : Option Nat
  started : nearStarted ≤ farStarted
  /-- The near side's deadline runs from its own start, before the far side can have beaten at all: were
  the far side much longer in coming, it would be given up before its first heartbeat was late. -/
  brief : farStarted ≤ nearStarted + heartbeatInterval
  /-- Where it has not been written, the first heartbeat of the near side is not too late yet. -/
  soon : firstBeat = none → farStarted ≤ nearStarted + punctuality.late
  sent : ∀ beat ∈ firstBeat, nearStarted ≤ beat ∧ beat ≤ farStarted ∧ farStarted ≤ beat + punctuality.delay

namespace Exchange

inductive Act where
  | pass (now : Nat)
  | beat
  | hear
  | wake (wake : Wake)

def swap (self : Exchange) : Exchange := { self with near := self.far, far := self.near }

def start (session : SessionId) (opening : Opening punctuality) : Exchange where
  clock := opening.farStarted
  near :=
    { task := .start session opening.nearStarted
      due := opening.firstBeat.elim opening.nearStarted (· + heartbeatInterval)
      inbox := [] }
  far := ⟨.start session opening.farStarted, opening.farStarted, opening.firstBeat.toList⟩

structure Allows (punctuality : Punctuality) (e : Exchange) (now : Nat) : Prop where
  later : e.clock ≤ now
  onTime : e.near.task.ended = false → now ≤ e.near.due + punctuality.late
  underWay : e.near.task.ended = false → ∀ sent ∈ e.near.inbox, now ≤ sent + punctuality.delay

inductive Moves (punctuality : Punctuality) : Exchange → Act → Exchange → Prop where
  | pass (near : e.Allows punctuality now) (far : e.swap.Allows punctuality now) :
      Moves punctuality e (.pass now) { e with clock := now }
  | beat (running : e.near.task.ended = false) (due : e.near.due ≤ e.clock) : Moves punctuality e .beat
      { e with
        near.task := e.near.task.turn e.clock (.heartbeat true)
        near.due := e.clock + heartbeatInterval
        far.inbox := e.far.inbox ++ [e.clock] }
  | hear (running : e.near.task.ended = false) (oldest : e.near.inbox = sent :: rest) : Moves punctuality e .hear
      { e with
        near.task := e.near.task.turn e.clock (.signalling (some (.control (.heartbeat e.near.task.session))))
        near.inbox := rest }
  /-- Whatever else the task wakes up to. -/
  | wake (other : wake ≠ .heartbeat true) (turned : e.near.task.Step (e.clock, wake) task) :
      Moves punctuality e (.wake wake) { e with near.task := task }

def Step (punctuality : Punctuality) (e : Exchange) (label : Bool × Act) (e' : Exchange) : Prop :=
  if label.1 then Moves punctuality e.swap label.2 e'.swap else Moves punctuality e label.2 e'

variable {punctuality : Punctuality} {e e' : Exchange}

/-- The far side as the near side hears it. -/
def heard (e : Exchange) : Watchdog.State := ⟨e.clock, e.far.due, e.near.inbox, e.near.task.deadline⟩

/-- While both are there, the near side has heard enough of the far side. -/
def Listens (punctuality : Punctuality) (e : Exchange) : Prop :=
  e.near.task.ended = false → e.far.task.ended = false → ∃ last, Watchdog.Heard punctuality.timing e.heard last

theorem Listens.step (listens : e.Listens punctuality) (near : e'.near.task.ended = false → e.near.task.ended = false)
    (far : e'.far.task.ended = false → e.far.task.ended = false)
    (step : e'.near.task.ended = false → e'.far.task.ended = false →
      e'.heard = e.heard ∨ Watchdog.Step punctuality.timing e.heard () e'.heard) : e'.Listens punctuality := by
  intro nearRuns farRuns
  obtain ⟨last, heard⟩ := listens (near nearRuns) (far farRuns)
  rcases step nearRuns farRuns with same | step
  · exact ⟨last, same ▸ heard⟩
  · exact heard.step step

theorem Moves.listens (moves : Moves punctuality e act e') (near : e.Listens punctuality)
    (far : e.swap.Listens punctuality) : e'.Listens punctuality ∧ e'.swap.Listens punctuality := by
  cases moves with
  | pass nearAllows farAllows =>
    constructor
    · refine near.step id id fun nearRuns farRuns => .inr ?_
      exact .pass nearAllows.later (farAllows.onTime farRuns) (nearAllows.underWay nearRuns)
    · refine far.step id id fun farRuns nearRuns => .inr ?_
      exact .pass nearAllows.later (nearAllows.onTime nearRuns) (farAllows.underWay farRuns)
  | beat running due =>
    constructor
    · exact near.step (fun _ => running) id fun _ _ => .inl rfl
    · exact far.step id (fun _ => running) fun _ _ => .inr .beat
  | hear running oldest =>
    constructor
    · exact near.step (fun _ => running) id fun _ _ => .inr (.hear oldest)
    · exact far.step id (fun _ => running) fun _ _ => .inl rfl
  | @wake wake _ task _ turned =>
    obtain ⟨running, _, _, rfl⟩ := turned
    constructor
    · refine near.step (fun _ => running) id fun _ _ => ?_
      rcases e.near.task.turn_deadline e.clock wake with same | anew
      · exact .inl (congrArg (Watchdog.State.mk _ _ _) same)
      · right
        show Watchdog.Step _ e.heard () ⟨e.clock, e.far.due, e.near.inbox, (e.near.task.turn e.clock wake).deadline⟩
        rw [anew]
        exact .sign
    · exact far.step id (fun _ => running) fun _ _ => .inl rfl

theorem start_listens (session : SessionId) (opening : Opening punctuality) :
    (start session opening).Listens punctuality ∧ (start session opening).swap.Listens punctuality := by
  obtain ⟨nearStarted, farStarted, firstBeat, started, brief, soon, sent⟩ := opening
  constructor
  · intro _ _
    exact ⟨nearStarted, Watchdog.heard_none punctuality.timing started brief (Nat.le_add_right _ _) (Nat.le_refl _)⟩
  · intro _ _
    have deadline : nearStarted + punctuality.timing.timeout ≤ farStarted + heartbeatTimeout :=
      Nat.add_le_add_right started _
    cases firstBeat with
    | none =>
      exact ⟨nearStarted, Watchdog.heard_none punctuality.timing started (Nat.le_add_right _ _) (soon rfl) deadline⟩
    | some beat =>
      obtain ⟨before, after, underWay⟩ := sent beat rfl
      exact ⟨nearStarted, Watchdog.heard_first punctuality.timing before after brief underWay deadline⟩

theorem run_listens {opening : Opening punctuality}
    (run : Reaches (Step punctuality) (start session opening) labels e) :
    e.Listens punctuality ∧ e.swap.Listens punctuality := by
  refine run.invariant (P := fun e => e.Listens punctuality ∧ e.swap.Listens punctuality) ?_
    (start_listens session opening)
  intro e label e' ⟨near, far⟩ step
  rw [Step] at step
  split at step
  · exact (step.listens far near).symm
  · exact step.listens near far

theorem Moves.silence (moves : Moves punctuality e (.wake .silence) e') : e.near.task.deadline ≤ e.clock := by
  cases moves with
  | wake _ turned => exact turned.2.2.1 rfl

/-- With heartbeats on time and not too long under way, neither side gives the other up for silence
as long as both are there, whatever else they do. -/
theorem heartbeats_keep_alive {opening : Opening punctuality}
    (run : Reaches (Step punctuality) (start session opening) labels e) (near : e.near.task.ended = false)
    (far : e.far.task.ended = false) :
    ¬ ∃ side e', Step punctuality e (side, .wake .silence) e' := by
  obtain ⟨nearListens, farListens⟩ := run_listens run
  rintro ⟨side, e', step⟩
  rw [Step] at step
  split at step
  · obtain ⟨last, heard⟩ := farListens far near
    exact absurd step.silence (Nat.not_le.mpr heard.waits)
  · obtain ⟨last, heard⟩ := nearListens near far
    exact absurd step.silence (Nat.not_le.mpr heard.waits)

/-- A second late at most, and two under way. -/
def unhurried : Punctuality := ⟨1000000000, 2000000000, by decide⟩

def together : Opening unhurried := ⟨0, 0, none, Nat.le_refl _, Nat.zero_le _, fun _ => Nat.zero_le _, nofun⟩

theorem heartbeats_keep_alive_together : ∃ e,
    Reaches (Step unhurried) (start ⟨7⟩ together) [(false, .beat)] e ∧ e.far.inbox = [0] ∧
      ¬ ∃ side e', Step unhurried e (side, .wake .silence) e' := by
  have beat : Step unhurried (start ⟨7⟩ together) (false, .beat) _ := Moves.beat rfl (Nat.le_refl _)
  exact ⟨_, .single beat, rfl, heartbeats_keep_alive (.single beat) rfl rfl⟩

end Exchange
end Omnipresent
