import Omnipresent.Transition
import Omnipresent.Transport.Relay

/-! The control stream as the loop of a session reads it: one of several things waited for at
once. Whichever comes first, the others are dropped where they are, and a `recv` that has
half a frame in its hands drops that half with it. -/
namespace Omnipresent
open Postcard Transition

/-- `Message::Control(ControlMessage::Disconnect { .. })`. -/
def Message.isDisconnect : Message → Bool
  | .control (.disconnect _) => true
  | _ => false

inductive Polled where
  | pending
  | ready (message : Message) (behind : List UInt8)
  | failed

/-- A stream that stays open fails in no way of its own. -/
def openStream (bytes : List UInt8) : RecvStream ⟨Empty, Empty, Empty⟩ := ⟨bytes, none⟩

def ControlReceiver.poll (stream : List UInt8) : Polled :=
  match recv (openStream stream) with
  -- A `read_exact` that comes to the end of what has arrived waits for more.
  | .ok none => .pending
  | .error (.read _) => .pending
  | .ok (some (message, rest)) => .ready message rest.bytes
  | .error _ => .failed

/-- One session's loop, as far as its control stream goes: what has arrived and lies there,
what the `recv` under way has taken of it, the messages so far, and what went with reads that
were dropped. -/
structure ControlLoop where
  arrived : List UInt8
  held : List UInt8
  received : List Message
  lost : List UInt8
  ended : Bool

inductive ControlLoop.Event where
  /-- Bytes come in, in pieces of any size. -/
  | arrive (bytes : List UInt8)
  /-- The loop looks at the control stream. -/
  | poll
  /-- Something else is there first, and the loop starts over. -/
  | turn

namespace ControlLoop

def start : ControlLoop := ⟨[], [], [], [], false⟩

def Event.bytes : Event → List UInt8
  | .arrive bytes => bytes
  | _ => []

def step (self : ControlLoop) : Event → Option ControlLoop
  | .arrive bytes => some { self with arrived := self.arrived ++ bytes }
  | .poll =>
    if self.ended then none
    else match ControlReceiver.poll (self.held ++ self.arrived) with
      | .pending => some { self with held := self.held ++ self.arrived, arrived := [] }
      | .ready message behind =>
        some { self with
          held := [], arrived := behind
          received := self.received ++ [message], ended := message.isDisconnect }
      | .failed => some { self with ended := true }
  | .turn =>
    if self.ended then none
    else some { self with held := [], lost := self.lost ++ self.held }

def Step (s : ControlLoop) (event : Event) (t : ControlLoop) : Prop := s.step event = some t

end ControlLoop

namespace ControlReceiver

theorem poll_nil : poll [] = .pending := rfl

theorem poll_ready {stream behind : List UInt8} {message : Message} (ready : poll stream = .ready message behind) :
    (frame (put message)).length + behind.length ≤ stream.length := by
  rw [poll] at ready
  split at ready <;> cases ready
  rename_i received
  exact (recv_frame_le received).2

theorem poll_frame {message : Message} (within : (put message).length ≤ maxControlFrame) (behind : List UInt8) :
    poll (frame (put message) ++ behind) = .ready message behind := by
  rw [poll, openStream, recv_frame within]

theorem poll_cut {message : Message} {kept missing : List UInt8} (within : (put message).length ≤ maxControlFrame)
    (cut : kept ++ missing = frame (put message)) (short : missing ≠ []) : poll kept = .pending := by
  have size := congrArg List.length cut
  rw [List.length_append, length_frame] at size
  have left := List.length_pos_of_ne_nil short
  by_cases inHeader : kept.length < 4
  · rw [poll, recv, RecvStream.readExact_short inHeader]
    dsimp only [openStream, Option.elim]
    cases kept.length with
    | zero => rfl
    | succ n => rfl
  · obtain ⟨body, rfl⟩ : ∃ body, kept = toBeBytes (UInt32.ofNat (put message).length) ++ body := by
      refine ⟨kept.drop 4, ?_⟩
      have front := congrArg (List.take 4) cut
      rw [List.take_append_of_le_length (Nat.not_lt.mp inHeader), frame, List.take_left' (length_toBeBytes _)] at front
      rw [← front, List.take_append_drop]
    have unfinished : body.length < (put message).length := by
      rw [List.length_append, length_toBeBytes] at size
      omega
    rw [poll, openStream, recv_header within, RecvStream.readExact_short unfinished]
    rfl

/-- At the front of what was sent there is the first message, as far as it has arrived. -/
theorem poll_front {messages : List Message} {stream later : List UInt8}
    (sent : stream ++ later = controlFrames messages)
    (within : ∀ message ∈ messages, (put message).length ≤ maxControlFrame) :
    poll stream = .pending ∧ (later = [] → messages = []) ∨
      ∃ message rest behind, messages = message :: rest ∧ poll stream = .ready message behind ∧
        behind ++ later = controlFrames rest := by
  cases messages with
  | nil =>
    rw [(List.append_eq_nil_iff.mp sent).1]
    exact .inl ⟨poll_nil, fun _ => rfl⟩
  | cons message rest =>
    have fits := within message List.mem_cons_self
    rw [controlFrames_cons] at sent
    rcases List.append_eq_append_iff.mp sent with ⟨missing, cut, front⟩ | ⟨behind, rfl, front⟩
    · by_cases whole : missing = []
      · subst whole
        rw [List.append_nil] at cut
        refine .inr ⟨message, rest, [], rfl, ?_, ?_⟩
        · rw [← cut, ← List.append_nil (frame _)]
          exact poll_frame fits []
        · exact front
      · refine .inl ⟨poll_cut fits cut.symm whole, fun all => ?_⟩
        rw [all] at front
        exact absurd (List.append_eq_nil_iff.mp front.symm).1 whole
    · exact .inr ⟨message, rest, behind, rfl, poll_frame fits behind, front.symm⟩

end ControlReceiver

namespace ControlLoop
variable {s t : ControlLoop} {event : Event} {messages : List Message} {later : List UInt8}

/-- What is received, dropped or still there has come in, and messages are paid for in full. -/
def Paid (events : List Event) (s : ControlLoop) : Prop :=
  (controlFrames s.received).length + s.lost.length + s.held.length + s.arrived.length ≤
    (events.flatMap Event.bytes).length

theorem length_controlFrames_concat (messages : List Message) (message : Message) :
    (controlFrames (messages ++ [message])).length =
      (controlFrames messages).length + (frame (put message)).length := by
  rw [controlFrames, List.flatMap_append, List.flatMap_singleton, List.length_append, controlFrames]

theorem Paid.step {events : List Event} (paid : Paid events s) (stepped : Step s event t) :
    Paid (events ++ [event]) t := by
  rw [Paid] at paid ⊢
  rw [List.flatMap_append, List.flatMap_singleton, List.length_append]
  cases event with
  | arrive bytes =>
    cases stepped
    dsimp only
    rw [Event.bytes, List.length_append]
    omega
  | poll =>
    rw [Step, ControlLoop.step] at stepped
    split at stepped
    · cases stepped
    · split at stepped <;> cases stepped <;> dsimp only
      · rw [List.length_append, List.length_nil]
        omega
      · rename_i message behind ready
        have cost := ControlReceiver.poll_ready ready
        rw [List.length_append] at cost
        rw [length_controlFrames_concat, List.length_nil]
        omega
      · exact Nat.le_trans paid (Nat.le_add_right _ _)
  | turn =>
    rw [Step, ControlLoop.step] at stepped
    split at stepped <;> cases stepped
    dsimp only
    rw [List.length_append, List.length_nil]
    omega

theorem run_paid (run : Reaches Step start events s) : Paid events s := by
  induction run with
  | refl => exact Nat.le_refl _
  | next _ last ih => exact ih.step last

/-- Nothing has been dropped yet: what is there and what is to come are the frames of what is
to be received, and a read under way is at the start of one. -/
structure Intact (messages : List Message) (later : List UInt8) (s : ControlLoop) : Prop where
  waiting : ControlReceiver.poll s.held = .pending
  behind : ∃ rest, messages = s.received ++ rest ∧ s.held ++ s.arrived ++ later = controlFrames rest ∧
    (s.ended = true → rest = [])

theorem step_lost (stepped : Step s event t) : s.lost <+: t.lost := by
  cases event with
  | arrive bytes =>
    cases stepped
    exact List.prefix_rfl
  | poll =>
    rw [Step, ControlLoop.step] at stepped
    split at stepped
    · cases stepped
    · split at stepped <;> cases stepped <;> exact List.prefix_rfl
  | turn =>
    rw [Step, ControlLoop.step] at stepped
    split at stepped <;> cases stepped
    exact List.prefix_append _ _

theorem Intact.step (intact : Intact messages (event.bytes ++ later) s)
    (within : ∀ message ∈ messages, (put message).length ≤ maxControlFrame)
    (last : ∀ message ∈ messages.dropLast, message.isDisconnect = false) (stepped : Step s event t)
    (whole : t.lost = []) : Intact messages later t := by
  obtain ⟨waiting, rest, split', sent, ended⟩ := intact
  cases event with
  | arrive bytes =>
    cases stepped
    refine ⟨waiting, rest, split', ?_, ended⟩
    rw [← sent, Event.bytes]
    simp only [List.append_assoc]
  | poll =>
    have fits : ∀ message ∈ rest, (put message).length ≤ maxControlFrame := fun message listed =>
      within message (split' ▸ List.mem_append_right _ listed)
    rw [Step, ControlLoop.step] at stepped
    split at stepped
    · cases stepped
    · rename_i running
      rcases ControlReceiver.poll_front sent fits with ⟨pending, _⟩ | ⟨message, rest, behind, rfl, ready, sent⟩
      · rw [pending] at stepped
        cases stepped
        refine ⟨pending, rest, split', ?_, ended⟩
        rwa [List.append_nil]
      · rw [ready] at stepped
        cases stepped
        refine ⟨ControlReceiver.poll_nil, rest, ?_, sent, fun goodbye => ?_⟩
        · rw [split', List.append_assoc, List.singleton_append]
        · -- Nothing is sent behind a goodbye.
          by_contra more
          refine Bool.false_ne_true ((last message ?_).symm.trans goodbye)
          rw [split', List.dropLast_append_of_ne_nil (List.cons_ne_nil _ _), List.dropLast_cons_of_ne_nil more]
          exact List.mem_append_right _ List.mem_cons_self
  | turn =>
    rw [Step, ControlLoop.step] at stepped
    split at stepped <;> cases stepped
    have nothing : s.held = [] := (List.append_eq_nil_iff.mp whole).2
    rw [nothing, List.nil_append] at sent
    exact ⟨ControlReceiver.poll_nil, rest, split', sent, ended⟩

theorem run_intact (run : Reaches Step start events s) (sent : events.flatMap Event.bytes ++ later = controlFrames messages)
    (within : ∀ message ∈ messages, (put message).length ≤ maxControlFrame)
    (last : ∀ message ∈ messages.dropLast, message.isDisconnect = false) (whole : s.lost = []) :
    Intact messages later s := by
  induction run generalizing later with
  | refl => exact ⟨ControlReceiver.poll_nil, messages, rfl, sent, nofun⟩
  | next earlier stepped ih =>
    rw [List.flatMap_append, List.flatMap_singleton, List.append_assoc] at sent
    exact (ih sent (List.prefix_nil.mp (whole ▸ step_lost stepped))).step within last stepped whole

/-- In whatever pieces the frames come in, and whatever the loop does in between: what is
received is what was sent, from the first on, as long as nothing is dropped with a read; and
all of it is received in the end exactly if no turn of the loop has found a frame half read. -/
theorem received_iff (run : Reaches Step start events s)
    (sent : events.flatMap Event.bytes ++ later = controlFrames messages)
    (within : ∀ message ∈ messages, (put message).length ≤ maxControlFrame)
    (last : ∀ message ∈ messages.dropLast, message.isDisconnect = false) :
    (s.lost = [] → s.received <+: messages) ∧
      (later = [] → s.ended = true ∨ s.arrived = [] → (s.received = messages ↔ s.lost = [])) := by
  refine ⟨fun whole => ?_, fun all settled => ⟨fun received => ?_, fun whole => ?_⟩⟩
  · obtain ⟨_, rest, split', _⟩ := run_intact run sent within last whole
    exact split' ▸ List.prefix_append _ _
  · have paid := run_paid run
    rw [all, List.append_nil] at sent
    rw [Paid, received, sent] at paid
    exact List.eq_nil_of_length_eq_zero (by omega)
  · obtain ⟨waiting, rest, split', sent, ended⟩ := run_intact run sent within last whole
    suffices nothing : rest = [] by rw [split', nothing, List.append_nil]
    rcases settled with over' | polled
    · exact ended over'
    · rw [polled, List.append_nil, all] at sent
      have fits : ∀ message ∈ rest, (put message).length ≤ maxControlFrame := fun message listed =>
        within message (split' ▸ List.mem_append_right _ listed)
      rcases ControlReceiver.poll_front sent fits with ⟨_, none⟩ | ⟨message, _, behind, _, ready, _⟩
      · exact none rfl
      · cases waiting.symm.trans ready

theorem received_iff_split : ∃ s,
    Reaches Step start [.arrive [0, 0, 0, 3, 1], .poll, .turn, .arrive [5, 5], .poll] s ∧
      s.received ≠ [.control (.heartbeat ⟨5⟩)] := by
  have run : Reaches Step start [.arrive [0, 0, 0, 3, 1], .poll, .turn, .arrive [5, 5], .poll]
      ⟨[], [5, 5], [], [0, 0, 0, 3, 1], false⟩ := Reaches.of_foldlM id rfl
  refine ⟨_, run, fun received => ?_⟩
  have sent : [0, 0, 0, 3, 1] ++ [5, 5] ++ [] = controlFrames [.control (.heartbeat ⟨5⟩)] := rfl
  have lost := ((received_iff run sent (by decide) (by decide)).2 rfl (.inr rfl)).mp received
  exact List.cons_ne_nil _ _ lost

end ControlLoop

end Omnipresent
