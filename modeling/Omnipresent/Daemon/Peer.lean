import Omnipresent.Daemon.Messages
import Omnipresent.Daemon.RateLimiter
import Omnipresent.Protocol.Wire

/-! The task of one connection, turn by turn: whatever it wakes up to, commands go out in
order and the peer's input comes in through the check on its session and its rate. -/
namespace Omnipresent

def eventsPerSecond : UInt32 := 2000

def burst : UInt32 := 4000

def heartbeatInterval : Nat := 2000000000

/-- How long a session may go without any word from the peer. -/
def heartbeatTimeout : Nat := 8000000000

/-- What a turn does, as the peer or this machine gets to see it. -/
inductive Effect where
  | datagram (message : Message)
  | control (message : ControlMessage)
  /-- Handed to the task that sends clipboards. -/
  | clipboard (data : ClipboardData)
  | inject (event : InputEvent)
  /-- The cursor is handed over, within the session. -/
  | signalled (message : ControlMessage)
  | applied (data : ClipboardData)

inductive Wake where
  /-- All there is on the channel, and which write of the turn fails, if one does. -/
  | commands (first : PeerCommand) (queued : List PeerCommand) (broken : Option Nat)
  /-- The link was dropped. -/
  | unlinked (broken : Option Nat)
  | datagram (payload : List UInt8)
  | hungUp
  /-- `none` where the stream is over, one way or the other. -/
  | signalling (received : Option Message)
  | bulk (payload : Option Message)
  | heartbeat (written : Bool)
  /-- The peer has not been heard of by the deadline. -/
  | silence

structure PeerTask where
  session : SessionId
  limiter : RateLimiter
  dropped : Nat
  deadline : Nat
  /-- The time of the last turn. -/
  clock : Nat
  ended : Bool
  /-- With the time of the turn, oldest first. -/
  effects : List (Nat × Effect)

def PeerCommand.effect (session : SessionId) : PeerCommand → Effect
  | input event => .datagram (.input session event)
  | warp x y => .control (.cursorWarp session x y)
  | cursorReturned x y => .control (.cursorReturned session x y)
  | clipboard data => .clipboard data
  | disconnect => .control (.disconnect session)

/-- The commands of a turn that are carried out, and whether it was the last turn. Datagrams
may be lost anyway; the other writes count down to the one that fails. -/
def carryOut : List PeerCommand → Option Nat → List PeerCommand × Bool
  | [], _ => ([], false)
  | command :: rest, broken => match command with
    | .input _ => (carryOut rest broken).map (command :: ·) id
    | .warp .. | .cursorReturned .. | .clipboard _ =>
      if broken = some 0 then ([], true) else (carryOut rest (broken.map (· - 1))).map (command :: ·) id
    | .disconnect => (if broken = some 0 then [] else [command], true)

namespace PeerTask

def start (session : SessionId) (now : Nat) : PeerTask :=
  ⟨session, .new eventsPerSecond burst now, 0, now + heartbeatTimeout, now, false, []⟩

def emit (self : PeerTask) (effects : List Effect) : PeerTask :=
  { self with effects := self.effects ++ effects.map fun effect => (self.clock, effect) }

def heard (self : PeerTask) : PeerTask := { self with deadline := self.clock + heartbeatTimeout }

def close (self : PeerTask) : PeerTask := { self with ended := true }

/-- One event of the peer's, if it belongs to the session and the limiter lets it through. -/
def receive (self : PeerTask) (claimed : SessionId) (event : InputEvent) : PeerTask :=
  if claimed ≠ self.session then self
  else match self.limiter.allowAt self.clock with
    | (limiter, true) => { self with limiter }.emit [.inject event]
    | (limiter, false) => { self with limiter, dropped := self.dropped + 1 }

def wake (self : PeerTask) : Wake → PeerTask
  | .commands first queued broken =>
    let (carried, closing) := carryOut (coalesceMotion (first :: queued)) broken
    let self := self.emit (carried.map (PeerCommand.effect self.session))
    if closing then self.close else self
  | .unlinked broken => (self.emit ((carryOut [.disconnect] broken).1.map (PeerCommand.effect self.session))).close
  | .datagram payload => match decode payload with
    | .ok (.input claimed event) => self.heard.receive claimed event
    | .ok _ => self.heard
    | .error _ => self.heard
  | .hungUp => self.heard.close
  | .signalling received => match received with
    | none => self.heard.close
    | some (.control (.disconnect _)) => self.heard.close
    | some (.control (.cursorWarp claimed x y)) =>
      if claimed = self.session then self.heard.emit [.signalled (.cursorWarp claimed x y)] else self.heard
    | some (.control (.cursorReturned claimed x y)) =>
      if claimed = self.session then self.heard.emit [.signalled (.cursorReturned claimed x y)] else self.heard
    | some _ => self.heard
  | .bulk payload => match payload with
    | some (.clipboard data _) => self.heard.emit [.applied data]
    | some _ => self
    | none => self.close
  | .heartbeat written =>
    if written then self.emit [.control (.heartbeat self.session)] else self.close
  | .silence => self.close

def turn (self : PeerTask) (now : Nat) (wake : Wake) : PeerTask := { self with clock := now }.wake wake

def Step (s : PeerTask) (label : Nat × Wake) (t : PeerTask) : Prop :=
  s.ended = false ∧ s.clock ≤ label.1 ∧ (label.2 = .silence → s.deadline ≤ label.1) ∧ t = s.turn label.1 label.2

end PeerTask

def PeerCommand.isDisconnect : PeerCommand → Bool
  | disconnect => true
  | _ => false

/-- What a turn takes off the channel; the link dropped is as good as a last command. -/
def Wake.batch : Wake → List PeerCommand
  | commands first queued _ => first :: queued
  | unlinked _ => [.disconnect]
  | _ => []

def Wake.Written : Wake → Prop
  | commands _ _ broken | unlinked broken => broken = none
  | _ => True

/-- An event of the peer's within the session. -/
def Wake.own (session : SessionId) : Wake → Option InputEvent
  | datagram payload => match decode payload with
    | .ok (.input claimed event) => if claimed = session then some event else none
    | _ => none
  | _ => none

/-- What goes out for a command, and not to show that this machine is alive. -/
def Effect.outgoing : Effect → Bool
  | datagram _ | clipboard _ => true
  | control (.heartbeat _) => false
  | control _ => true
  | _ => false

def Effect.injected : Effect → Option InputEvent
  | inject event => some event
  | _ => none

theorem PeerCommand.effect_outgoing (session : SessionId) (command : PeerCommand) :
    (command.effect session).outgoing = true := by
  cases command <;> rfl

theorem PeerCommand.effect_injected (session : SessionId) (command : PeerCommand) :
    (command.effect session).injected = none := by
  cases command <;> rfl

open Superseded

/-- What is carried out of a batch is the start of it, up to what ends the task. -/
theorem carryOut_begins (batch : List PeerCommand) (broken : Option Nat) :
    (carryOut batch broken).1 <+: upTo PeerCommand.isDisconnect batch := by
  induction batch generalizing broken with
  | nil => exact List.prefix_rfl
  | cons command rest ih =>
    have further (broken) : command :: (carryOut rest broken).1 <+: command :: upTo PeerCommand.isDisconnect rest :=
      List.cons_prefix_cons.mpr ⟨rfl, ih broken⟩
    cases command with
    | input event => exact further broken
    | disconnect =>
      rw [carryOut]
      dsimp only
      split
      · exact List.nil_prefix
      · exact List.prefix_rfl
    | warp x y | cursorReturned x y | clipboard data =>
      rw [carryOut]
      split
      · exact List.nil_prefix
      · exact further _

theorem carryOut_running (batch : List PeerCommand) (broken : Option Nat) (running : (carryOut batch broken).2 = false) :
    (carryOut batch broken).1 = batch ∧ ∀ command ∈ batch, command.isDisconnect = false := by
  induction batch generalizing broken with
  | nil => exact ⟨rfl, nofun⟩
  | cons command rest ih =>
    have further {broken} (running : (carryOut rest broken).2 = false) (other : command.isDisconnect = false) :
        command :: (carryOut rest broken).1 = command :: rest ∧
          ∀ other ∈ command :: rest, other.isDisconnect = false := by
      obtain ⟨whole, goesOn⟩ := ih broken running
      exact ⟨congrArg _ whole, List.forall_mem_cons.mpr ⟨other, goesOn⟩⟩
    cases command with
    | input event => exact further running rfl
    | disconnect => cases running
    | warp x y | cursorReturned x y | clipboard data =>
      rw [carryOut] at running ⊢
      split at running
      · cases running
      · rw [if_neg ‹_›]
        exact further running rfl

theorem carryOut_written (batch : List PeerCommand) :
    (carryOut batch none).1 = upTo PeerCommand.isDisconnect batch := by
  induction batch with
  | nil => rfl
  | cons command rest ih =>
    cases command with
    | disconnect => rfl
    | input event | warp x y | cursorReturned x y | clipboard data => exact congrArg _ ih

namespace PeerTask
variable {s t : PeerTask} {now : Nat} {wake : Wake}

structure Commands (s t : PeerTask) (now : Nat) (wake : Wake) : Prop where
  own : wake.own s.session = none
  broken : ∃ broken, (wake.Written → broken = none) ∧
    t.effects = s.effects ++
      (carryOut (coalesceMotion wake.batch) broken).1.map (fun command => (now, command.effect s.session)) ∧
    (t.ended = false → (carryOut (coalesceMotion wake.batch) broken).2 = false)
  limiter : t.limiter = s.limiter

structure Receives (s t : PeerTask) (now : Nat) (wake : Wake) (event : InputEvent) : Prop where
  own : wake.own s.session = some event
  batch : wake.batch = []
  effects : t.effects = s.effects ++ if (s.limiter.allowAt now).2 then [(now, .inject event)] else []
  limiter : t.limiter = (s.limiter.allowAt now).1
  ended : t.ended = s.ended

structure Minds (s t : PeerTask) (wake : Wake) : Prop where
  own : wake.own s.session = none
  batch : wake.batch = []
  effects : ∃ done, t.effects = s.effects ++ done ∧
    ∀ effect ∈ done, effect.2.outgoing = false ∧ effect.2.injected = none
  limiter : t.limiter = s.limiter

theorem Minds.of_eq (own : wake.own s.session = none) (batch : wake.batch = []) (effects : t.effects = s.effects)
    (limiter : t.limiter = s.limiter) : s.Minds t wake :=
  ⟨own, batch, ⟨[], by rw [effects, List.append_nil], nofun⟩, limiter⟩

theorem Minds.of_emit (own : wake.own s.session = none) (batch : wake.batch = []) {effect : Effect}
    (effects : t.effects = s.effects ++ [(now, effect)]) (kept : effect.outgoing = false) (outside : effect.injected = none)
    (limiter : t.limiter = s.limiter) : s.Minds t wake :=
  ⟨own, batch, ⟨_, effects, List.forall_mem_singleton.mpr ⟨kept, outside⟩⟩, limiter⟩

theorem commands_turn (s : PeerTask) (now : Nat) (first : PeerCommand) (queued : List PeerCommand)
    (broken : Option Nat) :
    s.Commands (s.turn now (.commands first queued broken)) now (.commands first queued broken) := by
  have turned : s.turn now (.commands first queued broken) =
      let carried := carryOut (coalesceMotion (first :: queued)) broken
      let sent := { s with clock := now }.emit (carried.1.map (PeerCommand.effect s.session))
      if carried.2 then sent.close else sent := rfl
  have sent := List.map_map (f := PeerCommand.effect s.session) (g := fun effect => (now, effect))
    (l := (carryOut (coalesceMotion (first :: queued)) broken).1)
  rw [turned]
  refine ⟨rfl, ⟨broken, id, ?_, ?_⟩, ?_⟩
  · dsimp only
    split <;> exact congrArg (s.effects ++ ·) sent
  · dsimp only
    cases closing : (carryOut (coalesceMotion (first :: queued)) broken).2 with
    | false => exact fun _ => closing
    | true => exact nofun
  · dsimp only
    split <;> rfl

/-- The check on the session comes before the limiter. -/
theorem receive_cases (s : PeerTask) (claimed : SessionId) (event : InputEvent) :
    claimed ≠ s.session ∧ s.receive claimed event = s ∨
      claimed = s.session ∧
        (s.receive claimed event).effects =
          s.effects ++ (if (s.limiter.allowAt s.clock).2 then [(s.clock, .inject event)] else []) ∧
        (s.receive claimed event).limiter = (s.limiter.allowAt s.clock).1 ∧
        (s.receive claimed event).ended = s.ended ∧ (s.receive claimed event).session = s.session ∧
        (s.receive claimed event).clock = s.clock ∧ (s.receive claimed event).deadline = s.deadline := by
  rw [receive]
  by_cases other : claimed ≠ s.session
  · exact .inl ⟨other, if_pos other⟩
  · refine .inr ⟨not_not.mp other, ?_⟩
    rw [if_neg other]
    obtain ⟨limiter, allowed⟩ := s.limiter.allowAt s.clock
    cases allowed with
    | false => exact ⟨(List.append_nil _).symm, rfl, rfl, rfl, rfl, rfl⟩
    | true => exact ⟨rfl, rfl, rfl, rfl, rfl, rfl⟩

theorem datagram_turn (s : PeerTask) (now : Nat) (payload : List UInt8) :
    (s.turn now (.datagram payload)).session = s.session ∧ (s.turn now (.datagram payload)).clock = now ∧
      ((∃ event, s.Receives (s.turn now (.datagram payload)) now (.datagram payload) event) ∨
        s.Minds (s.turn now (.datagram payload)) (.datagram payload)) := by
  have turned : s.turn now (.datagram payload) = match decode payload with
      | .ok (.input claimed event) => ({ s with clock := now } : PeerTask).heard.receive claimed event
      | .ok _ => ({ s with clock := now } : PeerTask).heard
      | .error _ => ({ s with clock := now } : PeerTask).heard := rfl
  have own : (Wake.datagram payload).own s.session = match decode payload with
      | .ok (.input claimed event) => if claimed = s.session then some event else none
      | _ => none := rfl
  rw [turned]
  cases decoded : decode payload with
  | error e => exact ⟨rfl, rfl, .inr (.of_eq (by rw [own, decoded]) rfl rfl rfl)⟩
  | ok message =>
    cases message with
    | control message => exact ⟨rfl, rfl, .inr (.of_eq (by rw [own, decoded]) rfl rfl rfl)⟩
    | clipboard data addressable => exact ⟨rfl, rfl, .inr (.of_eq (by rw [own, decoded]) rfl rfl rfl)⟩
    | input claimed event =>
      dsimp only
      rcases ({ s with clock := now } : PeerTask).heard.receive_cases claimed event with
        ⟨other, same⟩ | ⟨within, effects, limiter, ended, session, clock, _⟩
      · rw [same]
        refine ⟨rfl, rfl, .inr (.of_eq ?_ rfl rfl rfl)⟩
        rw [own, decoded]
        exact if_neg other
      · refine ⟨session, clock, .inl ⟨event, ?_, rfl, effects, limiter, ended⟩⟩
        rw [own, decoded]
        exact if_pos within

theorem signalling_turn (s : PeerTask) (now : Nat) (received : Option Message) :
    (s.turn now (.signalling received)).session = s.session ∧ (s.turn now (.signalling received)).clock = now ∧
      s.Minds (s.turn now (.signalling received)) (.signalling received) := by
  rcases received with _ | (_ | message | _)
  · exact ⟨rfl, rfl, .of_eq rfl rfl rfl rfl⟩
  · exact ⟨rfl, rfl, .of_eq rfl rfl rfl rfl⟩
  · cases message with
    | cursorWarp claimed x y | cursorReturned claimed x y =>
      by_cases within : claimed = s.session
      · simp only [turn, PeerTask.wake, within, if_true]
        exact ⟨rfl, rfl, .of_emit rfl rfl rfl rfl rfl rfl⟩
      · simp only [turn, PeerTask.wake, within, if_false]
        exact ⟨rfl, rfl, .of_eq rfl rfl rfl rfl⟩
    | _ => exact ⟨rfl, rfl, .of_eq rfl rfl rfl rfl⟩
  · exact ⟨rfl, rfl, .of_eq rfl rfl rfl rfl⟩

theorem turn_cases (s : PeerTask) (now : Nat) (wake : Wake) :
    (s.turn now wake).session = s.session ∧ (s.turn now wake).clock = now ∧
      (s.Commands (s.turn now wake) now wake ∨ (∃ event, s.Receives (s.turn now wake) now wake event) ∨
        s.Minds (s.turn now wake) wake) := by
  cases wake with
  | commands first queued broken =>
    have turned := s.commands_turn now first queued broken
    refine ⟨?_, ?_, .inl turned⟩ <;> (simp only [turn, PeerTask.wake]; split <;> rfl)
  | unlinked broken =>
    refine ⟨rfl, rfl, .inl ⟨rfl, ⟨broken, id, ?_, nofun⟩, rfl⟩⟩
    exact congrArg (s.effects ++ ·) List.map_map
  | datagram payload =>
    obtain ⟨session, clock, turned⟩ := s.datagram_turn now payload
    exact ⟨session, clock, .inr turned⟩
  | hungUp => exact ⟨rfl, rfl, .inr (.inr (.of_eq rfl rfl rfl rfl))⟩
  | signalling received =>
    obtain ⟨session, clock, turned⟩ := s.signalling_turn now received
    exact ⟨session, clock, .inr (.inr turned)⟩
  | bulk payload =>
    rcases payload with _ | (_ | _ | ⟨data, _⟩)
    · exact ⟨rfl, rfl, .inr (.inr (.of_eq rfl rfl rfl rfl))⟩
    · exact ⟨rfl, rfl, .inr (.inr (.of_eq rfl rfl rfl rfl))⟩
    · exact ⟨rfl, rfl, .inr (.inr (.of_eq rfl rfl rfl rfl))⟩
    · exact ⟨rfl, rfl, .inr (.inr (.of_emit rfl rfl rfl rfl rfl rfl))⟩
  | heartbeat written =>
    cases written with
    | false => exact ⟨rfl, rfl, .inr (.inr (.of_eq rfl rfl rfl rfl))⟩
    | true => exact ⟨rfl, rfl, .inr (.inr (.of_emit rfl rfl rfl rfl rfl rfl))⟩
  | silence => exact ⟨rfl, rfl, .inr (.inr (.of_eq rfl rfl rfl rfl))⟩

open Transition

/-- The peer's events within the session, with the time each came in. -/
def owns (session : SessionId) (labels : List (Nat × Wake)) : List (Nat × InputEvent) :=
  labels.filterMap fun label => (label.2.own session).map (label.1, ·)

def injected (self : PeerTask) : List (Nat × InputEvent) :=
  self.effects.filterMap fun effect => effect.2.injected.map (effect.1, ·)

def outgoing (self : PeerTask) : List Effect := (self.effects.map Prod.snd).filter Effect.outgoing

theorem owns_concat (session : SessionId) (labels : List (Nat × Wake)) (now : Nat) (wake : Wake) :
    owns session (labels ++ [(now, wake)]) =
      owns session labels ++ ((wake.own session).map (now, ·)).toList := by
  rw [owns, List.filterMap_append, owns]
  congr 1

/-- What comes in has gone through one limiter and nothing else. -/
structure Limits (bucket : RateLimiter) (labels : List (Nat × Wake)) (s : PeerTask) : Prop where
  limiter : s.limiter = bucket.after ((owns s.session labels).map Prod.fst)
  injected : s.injected = bucket.pass (owns s.session labels)
  ordered : ((owns s.session labels).map Prod.fst).Pairwise (· ≤ ·)
  past : ∀ own ∈ owns s.session labels, own.1 ≤ s.clock

theorem Limits.quiet (limits : Limits bucket labels s) (own : wake.own s.session = none)
    (session : t.session = s.session) (clock : s.clock ≤ t.clock) (same : t.limiter = s.limiter)
    (injected : t.injected = s.injected) : Limits bucket (labels ++ [(now, wake)]) t := by
  have owns : owns t.session (labels ++ [(now, wake)]) = owns s.session labels := by
    rw [owns_concat, session, own, Option.map_none, Option.toList_none, List.append_nil]
  constructor
  · rw [owns, same, limits.limiter]
  · rw [owns, injected, limits.injected]
  · rw [owns]
    exact limits.ordered
  · rw [owns]
    exact fun own member => (limits.past own member).trans clock

theorem Limits.receives (limits : Limits bucket labels s) (turned : s.Receives t now wake event)
    (session : t.session = s.session) (clock : s.clock ≤ now) (at' : t.clock = now) :
    Limits bucket (labels ++ [(now, wake)]) t := by
  have owns : owns t.session (labels ++ [(now, wake)]) = owns s.session labels ++ [(now, event)] := by
    rw [owns_concat, session, turned.own]
    rfl
  have injected : t.injected = s.injected ++ if (s.limiter.allowAt now).2 then [(now, event)] else [] := by
    rw [PeerTask.injected, turned.effects, List.filterMap_append, PeerTask.injected]
    congr 1
    cases (s.limiter.allowAt now).2 <;> rfl
  constructor
  · rw [owns, List.map_append, RateLimiter.after_append, ← limits.limiter, turned.limiter]
    rfl
  · rw [owns, RateLimiter.pass_append, ← limits.limiter, injected, limits.injected]
    congr 1
  · rw [owns, List.map_append, List.pairwise_append]
    refine ⟨limits.ordered, List.pairwise_singleton .., fun time member later new => ?_⟩
    obtain ⟨own, found, rfl⟩ := List.mem_map.mp member
    rw [List.mem_singleton.mp new]
    exact (limits.past own found).trans clock
  · rw [owns, at']
    intro own member
    rcases List.mem_append.mp member with earlier | new
    · exact (limits.past own earlier).trans clock
    · rw [List.mem_singleton.mp new]

theorem Limits.step (limits : Limits bucket labels s) (step : Step s (now, wake) t) :
    Limits bucket (labels ++ [(now, wake)]) t := by
  obtain ⟨_, clock, _, rfl⟩ := step
  obtain ⟨session, at', turned⟩ := s.turn_cases now wake
  have later : s.clock ≤ (s.turn now wake).clock := clock.trans_eq at'.symm
  rcases turned with commands | ⟨event, receives⟩ | minds
  · refine limits.quiet commands.own session later commands.limiter ?_
    obtain ⟨broken, _, effects, _⟩ := commands.broken
    rw [PeerTask.injected, effects, List.filterMap_append, List.filterMap_map, PeerTask.injected]
    refine List.append_right_eq_self.mpr (List.filterMap_eq_nil_iff.mpr fun command _ => ?_)
    exact congrArg (Option.map _) (command.effect_injected s.session)
  · exact limits.receives receives session clock at'
  · refine limits.quiet minds.own session later minds.limiter ?_
    obtain ⟨done, effects, outside⟩ := minds.effects
    rw [PeerTask.injected, effects, List.filterMap_append, PeerTask.injected]
    refine List.append_right_eq_self.mpr (List.filterMap_eq_nil_iff.mpr fun effect member => ?_)
    rw [(outside effect member).2, Option.map_none]

theorem run_limits (run : Reaches Step (start assigned created) labels t) :
    t.session = assigned ∧ Limits (.new eventsPerSecond burst created) labels t := by
  induction run with
  | refl => exact ⟨rfl, rfl, rfl, .nil, nofun⟩
  | @next _ u label _ _ last ih =>
    obtain ⟨same, limits⟩ := ih
    refine ⟨?_, limits.step last⟩
    obtain ⟨_, _, _, rfl⟩ := last
    exact (u.turn_cases label.1 label.2).1.trans same

/-- Whatever a peer sends, and whatever else the task wakes up to: what it injects is what one
limiter passes of the events sent within the session, so that nothing else costs a token,
and no more of it than the burst and the rate allow falls between any two times. -/
theorem flood_bounded (run : Reaches Step (start assigned created) labels t) :
    t.injected = (RateLimiter.new eventsPerSecond burst created).pass (owns assigned labels) ∧
      ∀ from' to', ((t.injected.filter fun event => from' ≤ event.1 ∧ event.1 ≤ to').length : Rat) ≤
        burst.toNat + eventsPerSecond.toNat * asSecs (to' - from') := by
  obtain ⟨rfl, limits⟩ := run_limits run
  refine ⟨limits.injected, fun from' to' => ?_⟩
  rw [limits.injected]
  exact (RateLimiter.Filled.new eventsPerSecond burst created).pass_between _ from' to' limits.ordered

theorem first_turn (now : Nat) (wake : Wake) (loud : wake ≠ .silence) :
    Reaches Step (start assigned 0) [(now, wake)] ((start assigned 0).turn now wake) :=
  .single ⟨rfl, Nat.zero_le _, fun silent => absurd silent loud, rfl⟩

def click : Wake := .datagram (Postcard.put (Message.input ⟨7⟩ (.button .left .press)))

theorem flood_bounded_click :
    ((start ⟨7⟩ 0).turn 5 click).injected =
        (RateLimiter.new eventsPerSecond burst 0).pass (owns ⟨7⟩ [(5, click)]) ∧
      ∀ from' to', ((((start ⟨7⟩ 0).turn 5 click).injected.filter
          fun event => from' ≤ event.1 ∧ event.1 ≤ to').length : Rat) ≤
        burst.toNat + eventsPerSecond.toNat * asSecs (to' - from') :=
  flood_bounded (first_turn 5 click nofun)

/-- The batches, each with its stale positions dropped. -/
def collapsed (labels : List (Nat × Wake)) : List PeerCommand :=
  (labels.map fun label => coalesceMotion label.2.batch).flatten

def taken (labels : List (Nat × Wake)) : List PeerCommand := (labels.map fun label => label.2.batch).flatten

structure Carries (labels : List (Nat × Wake)) (s : PeerTask) (carried : List PeerCommand) : Prop where
  outgoing : s.outgoing = carried.map (PeerCommand.effect s.session)
  start : carried <+: upTo PeerCommand.isDisconnect (collapsed labels)
  running : s.ended = false → carried = collapsed labels ∧ ∀ command ∈ collapsed labels, command.isDisconnect = false
  written : (∀ label ∈ labels, label.2.Written) → carried = upTo PeerCommand.isDisconnect (collapsed labels)

theorem collapsed_concat (labels : List (Nat × Wake)) (now : Nat) (wake : Wake) :
    collapsed (labels ++ [(now, wake)]) = collapsed labels ++ coalesceMotion wake.batch := by
  simp only [collapsed, List.map_append, List.flatten_append, List.map_cons, List.map_nil, List.flatten_cons,
    List.flatten_nil, List.append_nil]

theorem outgoing_append (s : PeerTask) (done : List (Nat × Effect)) (effects : t.effects = s.effects ++ done) :
    t.outgoing = s.outgoing ++ (done.map Prod.snd).filter Effect.outgoing := by
  rw [outgoing, effects, List.map_append, List.filter_append, outgoing]

theorem Carries.idle (carries : Carries labels s carried) (open' : s.ended = false) (batch : wake.batch = [])
    (session : t.session = s.session) (outgoing : t.outgoing = s.outgoing) :
    Carries (labels ++ [(now, wake)]) t carried := by
  have same : collapsed (labels ++ [(now, wake)]) = collapsed labels := by
    rw [collapsed_concat, batch]
    exact List.append_nil _
  constructor
  · rw [outgoing, session, carries.outgoing]
  · rw [same]
    exact carries.start
  · rw [same]
    exact fun _ => carries.running open'
  · rw [same]
    exact fun written => carries.written fun label member => written label (List.mem_append_left _ member)

theorem Carries.step (carries : Carries labels s carried) (step : Step s (now, wake) t) :
    ∃ carried, Carries (labels ++ [(now, wake)]) t carried := by
  obtain ⟨open', _, _, rfl⟩ := step
  obtain ⟨session, _, turned⟩ := s.turn_cases now wake
  rcases turned with commands | ⟨event, receives⟩ | minds
  · obtain ⟨whole, goesOn⟩ := carries.running open'
    obtain ⟨broken, unbroken, effects, running⟩ := commands.broken
    have upTo := upTo_append_open goesOn (coalesceMotion wake.batch)
    refine ⟨carried ++ (carryOut (coalesceMotion wake.batch) broken).1, ?_, ?_, fun still => ?_, fun written => ?_⟩
    · rw [outgoing_append s _ effects, carries.outgoing, session, List.map_append]
      congr 1
      rw [List.map_map, List.filter_eq_self.mpr]
      · rfl
      · intro effect member
        obtain ⟨command, _, rfl⟩ := List.mem_map.mp member
        exact command.effect_outgoing s.session
    · rw [collapsed_concat, upTo, whole]
      exact (List.prefix_append_right_inj _).mpr (carryOut_begins _ broken)
    · obtain ⟨all, open'⟩ := carryOut_running _ broken (running still)
      rw [collapsed_concat, whole, all]
      exact ⟨rfl, fun command member => (List.mem_append.mp member).elim (goesOn command) (open' command)⟩
    · have unfailing := unbroken (written _ (List.mem_append_right _ (List.mem_singleton_self _)))
      rw [collapsed_concat, upTo, whole, unfailing, carryOut_written]
  · refine ⟨carried, carries.idle open' receives.batch session ?_⟩
    rw [outgoing_append s _ receives.effects]
    cases (s.limiter.allowAt now).2 <;> exact List.append_nil _
  · refine ⟨carried, carries.idle open' minds.batch session ?_⟩
    obtain ⟨done, effects, outside⟩ := minds.effects
    rw [outgoing_append s done effects]
    refine List.append_right_eq_self.mpr (List.filter_eq_nil_iff.mpr fun effect member => ?_)
    obtain ⟨effect, found, rfl⟩ := List.mem_map.mp member
    rw [(outside effect found).1]
    exact Bool.false_ne_true

/-- However the channel is drained and whatever else comes in between: what goes out is what the
commands say up to the first that ends the session, without the positions that others
supersede, or the start of it; and all of it where no write fails, with the pointer at
each command and in the end where the commands put it. -/
theorem commands_carried_out (run : Reaches Step (start assigned created) labels t) :
    ∃ carried, t.outgoing = carried.map (PeerCommand.effect assigned) ∧
      carried <+: upTo PeerCommand.isDisconnect (collapsed labels) ∧
      ((∀ label ∈ labels, label.2.Written) → carried = upTo PeerCommand.isDisconnect (collapsed labels) ∧
        pointed carried = pointed (upTo PeerCommand.isDisconnect (taken labels))) := by
  have carries : ∃ carried, Carries labels t carried := by
    induction run with
    | refl => exact ⟨[], rfl, List.nil_prefix, fun _ => ⟨rfl, nofun⟩, fun _ => rfl⟩
    | next _ last ih =>
      obtain ⟨carried, carries⟩ := ih
      exact carries.step last
  obtain ⟨carried, outgoing, start, _, written⟩ := carries
  rw [(run_limits run).1] at outgoing
  refine ⟨carried, outgoing, start, fun all => ⟨written all, ?_⟩⟩
  have same : collapsed labels = ((labels.map fun label => label.2.batch).map (collapse PeerCommand.isPointer)).flatten := by
    rw [collapsed, List.map_map]
    congr 2
    funext label
    exact coalesceMotion_eq _
  rw [written all, same]
  refine placed_upTo_pieces (fun command ends => ?_) _
  cases command <;> first | rfl | cases ends

/-- The cursor handed over, and the session ended before the last command. -/
def handOver : Wake := .commands (.warp 3 4) [.disconnect, .cursorReturned 0 0] none

theorem commands_carried_out_handOver : ∃ carried : List PeerCommand,
    ((start ⟨7⟩ 0).turn 5 handOver).outgoing = carried.map (PeerCommand.effect ⟨7⟩) ∧
      carried = [.warp 3 4, .disconnect] := by
  obtain ⟨carried, outgoing, _, written⟩ := commands_carried_out (first_turn 5 handOver nofun)
  refine ⟨carried, outgoing, ?_⟩
  rw [(written (List.forall_mem_singleton.mpr rfl)).1]
  rfl

end PeerTask
end Omnipresent
