import Omnipresent.Transport.Quic

/-! The control stream: messages one after the other on one stream, each behind its length in
four bytes. A stream that ends before a length is closed; one that ends anywhere else is cut. -/
namespace Omnipresent
open Postcard

def maxControlFrame : Nat := 64 * 1024

/-- How a `write_all` ends: done, or broken off after so many bytes. -/
def writeAll (written bytes : List UInt8) (broken : Option (Nat × ε)) : List UInt8 × Except ε Unit :=
  match broken with
  | none => (written ++ bytes, .ok ())
  | some (count, error) => (written ++ bytes.take count, .error error)

structure ControlSender where
  written : List UInt8

/-- Sends one message behind its length. `header` and `body` are how the two writes end. -/
def ControlSender.send (self : ControlSender) (header body : Option (Nat × quinn.WriteError)) (message : Message) :
    ControlSender × Except (QuicError quinn) Unit :=
  match encode message with
  | .error error => (self, .error (.codec error))
  | .ok payload =>
    -- `u32::try_from`
    if 2 ^ 32 ≤ payload.length then (self, .error (.controlFrameTooLarge payload.length))
    else match writeAll self.written (toBeBytes (UInt32.ofNat payload.length)) header with
      | (written, .error error) => (⟨written⟩, .error (.write error))
      | (written, .ok ()) =>
        let (written, outcome) := writeAll written payload body
        (⟨written⟩, outcome.mapError .write)

/-- Sends messages one after the other, as long as the network takes them. -/
def ControlSender.sendAll (quinn : Quinn) (self : ControlSender) :
    List Message → ControlSender × Except (QuicError quinn) Unit
  | [] => (self, .ok ())
  | message :: messages => match self.send none none message with
    | (self, .ok ()) => self.sendAll quinn messages
    | (self, .error error) => (self, .error error)

/-- Receives the next message, and the stream behind it; nothing where the peer finished the
stream before another one. -/
def ControlReceiver.recv (stream : RecvStream quinn) :
    Except (QuicError quinn) (Option (Message × RecvStream quinn)) :=
  match stream.readExact 4 with
  -- A clean end of stream before a frame starts is a normal close.
  | .error (.finishedEarly 0) => .ok none
  | .error error => .error (.read error)
  | .ok (header, stream) => do
    let len ← (frameLen header maxControlFrame).mapError .controlFrameTooLarge
    let (payload, stream) ← (stream.readExact len).mapError .read
    let message ← (decode payload).mapError .codec
    return some (message, stream)

theorem ControlReceiver.recv_shorter {stream rest : RecvStream quinn} {message : Message}
    (received : recv stream = .ok (some (message, rest))) : rest.bytes.length < stream.bytes.length := by
  rw [recv] at received
  split at received
  · cases received
  · cases received
  · rename_i header behind isHeader
    obtain ⟨len, _, received⟩ := bind_mapError_eq_ok.mp received
    obtain ⟨⟨payload, after⟩, isPayload, received⟩ := bind_mapError_eq_ok.mp received
    obtain ⟨found, _, received⟩ := bind_mapError_eq_ok.mp received
    cases received
    obtain ⟨four, bytes, _⟩ := RecvStream.readExact_eq_ok.mp isHeader
    obtain ⟨_, bytes', _⟩ := RecvStream.readExact_eq_ok.mp isPayload
    rw [bytes, bytes', List.length_append, List.length_append, four]
    omega

/-- Receiving until there is nothing more: the messages, and whether the stream was closed. -/
def ControlReceiver.recvAll (stream : RecvStream quinn) : List Message × Except (QuicError quinn) Unit :=
  match _ : recv stream with
  | .ok none => ([], .ok ())
  | .error error => ([], .error error)
  | .ok (some (message, rest)) =>
    let (messages, outcome) := recvAll rest
    (message :: messages, outcome)
termination_by stream.bytes.length
decreasing_by exact recv_shorter ‹_›

def controlFrames (messages : List Message) : List UInt8 := messages.flatMap fun message => frame (put message)

/-- The messages whose frames lie whole before a position in the stream. -/
def wholeBefore : Nat → List Message → List Message
  | _, [] => []
  | position, message :: messages =>
    if (frame (put message)).length ≤ position
    then message :: wholeBefore (position - (frame (put message)).length) messages
    else []

theorem maxControlFrame_lt : maxControlFrame < 2 ^ 32 := by decide

theorem length_frame (payload : List UInt8) : (frame payload).length = 4 + payload.length := by
  rw [frame, List.length_append, length_toBeBytes]

theorem ControlSender.send_done {quinn : Quinn} (self : ControlSender) {message : Message}
    (within : (put message).length ≤ maxControlFrame) :
    (self.send none none message : ControlSender × Except (QuicError quinn) Unit) =
      (⟨self.written ++ frame (put message)⟩, .ok ()) := by
  have narrow := Nat.not_le.mpr (Nat.lt_of_le_of_lt within maxControlFrame_lt)
  rw [send, encode_eq]
  dsimp only
  rw [if_neg narrow]
  simp only [writeAll, frame, List.append_assoc]
  rfl

theorem ControlSender.sendAll_done (quinn : Quinn) (self : ControlSender)
    (within : ∀ message ∈ messages, (put message).length ≤ maxControlFrame) :
    self.sendAll quinn messages = (⟨self.written ++ controlFrames messages⟩, .ok ()) := by
  induction messages generalizing self with
  | nil => rw [sendAll, controlFrames, List.flatMap_nil, List.append_nil]
  | cons message messages ih =>
    rw [sendAll, send_done self (within message List.mem_cons_self)]
    dsimp only
    rw [ih _ fun later listed => within later (List.mem_cons_of_mem _ listed), controlFrames, controlFrames,
      List.flatMap_cons, List.append_assoc]

namespace ControlReceiver
variable {quinn : Quinn} {message : Message} {lost : Option quinn.ReadError}

theorem recv_header {payload kept : List UInt8} (within : payload.length ≤ maxControlFrame) :
    recv ⟨toBeBytes (UInt32.ofNat payload.length) ++ kept, lost⟩ =
      (((RecvStream.mk kept lost).readExact payload.length).mapError QuicError.read >>= fun read =>
        (decode read.1).mapError QuicError.codec >>= fun message => pure (some (message, read.2))) := by
  have header := RecvStream.readExact_append (toBeBytes (UInt32.ofNat payload.length)) kept lost
  have announced := frameLen_toBeBytes within (Nat.lt_of_le_of_lt within maxControlFrame_lt)
  rw [length_toBeBytes] at header
  rw [recv, header]
  dsimp only
  rw [announced]
  rfl

/-- A whole frame is its message, and the stream goes on behind it. -/
theorem recv_frame (within : (put message).length ≤ maxControlFrame) (behind : List UInt8) :
    recv ⟨frame (put message) ++ behind, lost⟩ = .ok (some (message, ⟨behind, lost⟩)) := by
  have whole := decode_put message []
  rw [List.append_nil] at whole
  rw [frame, List.append_assoc, recv_header within, RecvStream.readExact_append]
  change (decode _).mapError QuicError.codec >>= _ = _
  rw [whole]
  rfl

theorem recv_closed : recv (⟨[], none⟩ : RecvStream quinn) = .ok none := rfl

theorem recv_broken (error : quinn.ReadError) : recv ⟨[], some error⟩ = .error (.read (.readError error)) := rfl

/-- A frame that is not whole is an error, wherever it ends and however. -/
theorem recv_cut {kept missing : List UInt8} (within : (put message).length ≤ maxControlFrame)
    (cut : kept ++ missing = frame (put message)) (begun : kept ≠ []) (short : missing ≠ []) :
    ∃ error, recv ⟨kept, lost⟩ = .error error := by
  have size := congrArg List.length cut
  rw [List.length_append, length_frame] at size
  have left := List.length_pos_of_ne_nil short
  have some := List.length_pos_of_ne_nil begun
  by_cases inHeader : kept.length < 4
  · rw [recv, RecvStream.readExact_short inHeader]
    cases lost with
    | some error => exact ⟨_, rfl⟩
    | none =>
      -- A length that has begun is not a clean end.
      obtain ⟨n, early⟩ := Nat.exists_eq_add_of_lt some
      dsimp only [Option.elim]
      rw [early, Nat.zero_add]
      exact ⟨_, rfl⟩
  · obtain ⟨body, rfl⟩ : ∃ body, kept = toBeBytes (UInt32.ofNat (put message).length) ++ body := by
      refine ⟨kept.drop 4, ?_⟩
      have front := congrArg (List.take 4) cut
      rw [List.take_append_of_le_length (Nat.not_lt.mp inHeader), frame, List.take_left' (length_toBeBytes _)] at front
      rw [← front, List.take_append_drop]
    have unfinished : body.length < (put message).length := by
      rw [List.length_append, length_toBeBytes] at size
      omega
    rw [recv_header within, RecvStream.readExact_short unfinished]
    exact ⟨_, rfl⟩

theorem recvAll_none {stream : RecvStream quinn} (closed : recv stream = .ok none) :
    recvAll stream = ([], .ok ()) := by
  rw [recvAll]
  split
  · rfl
  · rename_i failed
    cases closed.symm.trans failed
  · rename_i received
    cases closed.symm.trans received

theorem recvAll_error {stream : RecvStream quinn} {error : QuicError quinn} (failed : recv stream = .error error) :
    recvAll stream = ([], .error error) := by
  rw [recvAll]
  split
  · rename_i closed
    cases failed.symm.trans closed
  · rename_i failed'
    cases failed.symm.trans failed'
    rfl
  · rename_i received
    cases failed.symm.trans received

theorem recvAll_some {stream rest : RecvStream quinn} (received : recv stream = .ok (some (message, rest))) :
    recvAll stream = (message :: (recvAll rest).1, (recvAll rest).2) := by
  rw [recvAll]
  split
  · rename_i closed
    cases received.symm.trans closed
  · rename_i failed
    cases received.symm.trans failed
  · rename_i received'
    cases received.symm.trans received'
    rfl

theorem controlFrames_cons (message : Message) (messages : List Message) :
    controlFrames (message :: messages) = frame (put message) ++ controlFrames messages := List.flatMap_cons

theorem frame_ne_nil (payload : List UInt8) : frame payload ≠ [] := by
  intro empty
  have size := length_frame payload
  rw [empty, List.length_nil] at size
  omega

theorem before_begins {before after : List Message} (split : message :: messages = before ++ after)
    (begun : before ≠ []) : ∃ rest, before = message :: rest ∧ messages = rest ++ after := by
  obtain ⟨first, rest, rfl⟩ := List.exists_cons_of_ne_nil begun
  rw [List.cons_append, List.cons.injEq] at split
  obtain ⟨rfl, rfl⟩ := split
  exact ⟨rest, rfl, rfl⟩

theorem recvAll_ended (messages : List Message) (lost : Option quinn.ReadError) :
    (recvAll (⟨[], lost⟩ : RecvStream quinn)).1 = [] ∧
      ((recvAll (⟨[], lost⟩ : RecvStream quinn)).2 = .ok () ↔
        lost = none ∧ ∃ before after, messages = before ++ after ∧ [] = controlFrames before) := by
  cases lost with
  | none =>
    rw [recvAll_none recv_closed]
    exact ⟨rfl, iff_of_true rfl ⟨rfl, [], messages, rfl, rfl⟩⟩
  | some error =>
    rw [recvAll_error (recv_broken error)]
    exact ⟨rfl, iff_of_false (by rintro ⟨⟩) (by rintro ⟨⟨⟩, _⟩)⟩

/-- A stream cut at any position: what is received is what lies whole before it, and it
counts as closed only where the peer finished it there, between two frames. -/
theorem recvAll_cut (within : ∀ message ∈ messages, (put message).length ≤ maxControlFrame) (position : Nat)
    (lost : Option quinn.ReadError) :
    (recvAll ⟨(controlFrames messages).take position, lost⟩).1 = wholeBefore position messages ∧
    ((recvAll ⟨(controlFrames messages).take position, lost⟩).2 = .ok () ↔ lost = none ∧
      ∃ before after, messages = before ++ after ∧
        (controlFrames messages).take position = controlFrames before) := by
  induction messages generalizing position with
  | nil =>
    have nothing : (controlFrames []).take position = [] := List.take_nil
    rw [nothing]
    exact recvAll_ended [] lost
  | cons message messages ih =>
    have fits := within message List.mem_cons_self
    rw [controlFrames_cons, wholeBefore]
    split
    · rename_i whole
      obtain ⟨received, closed⟩ := ih (fun later listed => within later (List.mem_cons_of_mem _ listed))
        (position - (frame (put message)).length)
      rw [List.take_append, List.take_of_length_le whole, recvAll_some (recv_frame fits _), received, closed]
      refine ⟨rfl, and_congr_right fun _ => ⟨?_, ?_⟩⟩
      · rintro ⟨before, after, rfl, cut⟩
        exact ⟨message :: before, after, rfl, by rw [controlFrames_cons, cut]⟩
      · rintro ⟨before, after, split, cut⟩
        have begun : before ≠ [] := by
          rintro rfl
          exact frame_ne_nil _ (List.append_eq_nil_iff.mp cut).1
        obtain ⟨rest, rfl, rfl⟩ := before_begins split begun
        exact ⟨rest, after, rfl, List.append_cancel_left (cut.trans (controlFrames_cons message rest))⟩
    · rename_i short
      rw [List.take_append_of_le_length (Nat.le_of_not_le short)]
      cases position with
      | zero => exact recvAll_ended _ lost
      | succ position =>
        have begun : (frame (put message)).take (position + 1) ≠ [] := by
          rw [Ne, List.take_eq_nil_iff]
          exact not_or_intro (Nat.succ_ne_zero _) (frame_ne_nil _)
        have missing : (frame (put message)).drop (position + 1) ≠ [] := by
          rw [Ne, List.drop_eq_nil_iff]
          exact short
        obtain ⟨error, failed⟩ := @recv_cut quinn message lost _ _ fits (List.take_append_drop _ _) begun missing
        rw [recvAll_error failed]
        refine ⟨rfl, iff_of_false (by rintro ⟨⟩) ?_⟩
        rintro ⟨_, before, after, split, cut⟩
        have some : before ≠ [] := by
          rintro rfl
          exact begun cut
        -- Whole frames are no shorter than the first of them.
        obtain ⟨rest, rfl, _⟩ := before_begins split some
        have size := congrArg List.length cut
        rw [controlFrames_cons, List.length_take, List.length_append] at size
        omega

theorem recvAll_frames (within : ∀ message ∈ messages, (put message).length ≤ maxControlFrame) :
    recvAll (⟨controlFrames messages, none⟩ : RecvStream quinn) = (messages, .ok ()) := by
  induction messages with
  | nil => exact recvAll_none recv_closed
  | cons message messages ih =>
    rw [controlFrames_cons, recvAll_some (recv_frame (within message List.mem_cons_self) _),
      ih fun later listed => within later (List.mem_cons_of_mem _ listed)]

end ControlReceiver

theorem wholeBefore_prefix (position : Nat) (messages : List Message) :
    wholeBefore position messages <+: messages := by
  induction messages generalizing position with
  | nil => exact List.prefix_rfl
  | cons message messages ih =>
    rw [wholeBefore]
    split
    · exact (List.prefix_cons_inj message).mpr (ih _)
    · exact List.nil_prefix

/-- Messages sent within the limit are received as they are, and then the end; of a stream that
breaks off anywhere, or ends inside a frame, the ones before and then an error. -/
theorem control_framing (quinn : Quinn) (messages : List Message)
    (within : ∀ message ∈ messages, (put message).length ≤ maxControlFrame) :
    ∃ stream : List UInt8, ControlSender.sendAll quinn ⟨[]⟩ messages = (⟨stream⟩, .ok ()) ∧
      ControlReceiver.recvAll (⟨stream, none⟩ : RecvStream quinn) = (messages, .ok ()) ∧
      ∀ (position : Nat) (lost : Option quinn.ReadError),
        (ControlReceiver.recvAll ⟨stream.take position, lost⟩).1 = wholeBefore position messages ∧
        wholeBefore position messages <+: messages ∧
        ((ControlReceiver.recvAll ⟨stream.take position, lost⟩).2 = .ok () ↔ lost = none ∧
          ∃ before after, messages = before ++ after ∧ stream.take position = controlFrames before) := by
  refine ⟨controlFrames messages, ControlSender.sendAll_done quinn ⟨[]⟩ within,
    ControlReceiver.recvAll_frames within, fun position lost => ?_⟩
  obtain ⟨received, closed⟩ := ControlReceiver.recvAll_cut within position lost
  exact ⟨received, wholeBefore_prefix position messages, closed⟩

theorem control_framing_heartbeats : ∃ stream : List UInt8,
    ControlSender.sendAll ⟨Unit, Unit, Unit⟩ ⟨[]⟩ [.control (.heartbeat ⟨5⟩), .control (.heartbeat ⟨6⟩)] =
      (⟨stream⟩, .ok ()) ∧
    ControlReceiver.recvAll (⟨stream, none⟩ : RecvStream ⟨Unit, Unit, Unit⟩) =
      ([.control (.heartbeat ⟨5⟩), .control (.heartbeat ⟨6⟩)], .ok ()) := by
  obtain ⟨stream, sent, received, _⟩ := control_framing ⟨Unit, Unit, Unit⟩
    [.control (.heartbeat ⟨5⟩), .control (.heartbeat ⟨6⟩)] (by decide +kernel)
  exact ⟨stream, sent, received⟩

end Omnipresent
