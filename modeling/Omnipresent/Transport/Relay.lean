import Omnipresent.Protocol.Shortest
import Omnipresent.Transport.Control
import Omnipresent.Transport.Delivery

/-! What has been received can be sent on. A frame may hold its message in more bytes than
are needed; what it decodes to goes out in no more than those, so within the same limits. -/
namespace Omnipresent
open Postcard

variable {quinn : Quinn}

theorem ControlReceiver.recv_frame_le {stream rest : RecvStream quinn} {message : Message}
    (received : recv stream = .ok (some (message, rest))) :
    (put message).length ≤ maxControlFrame ∧
      (frame (put message)).length + rest.bytes.length ≤ stream.bytes.length := by
  rw [recv] at received
  split at received
  · cases received
  · cases received
  · rename_i header behind isHeader
    obtain ⟨len, announced, received⟩ := bind_mapError_eq_ok.mp received
    obtain ⟨⟨payload, after⟩, isPayload, received⟩ := bind_mapError_eq_ok.mp received
    obtain ⟨found, decoded, received⟩ := bind_mapError_eq_ok.mp received
    cases received
    obtain ⟨four, bytes, _⟩ := RecvStream.readExact_eq_ok.mp isHeader
    obtain ⟨long, bytes', _⟩ := RecvStream.readExact_eq_ok.mp isPayload
    obtain ⟨within, _⟩ := frameLen_eq_ok.mp announced
    have shortened := length_put_of_decode decoded
    rw [length_frame, bytes, bytes', List.length_append, List.length_append, four]
    omega

/-- Whatever bytes a message was read from, the sender takes it, in a frame no longer than the
one it came in, and it is read back from there as the same message. -/
theorem control_passed_on {stream rest : RecvStream quinn} {message : Message}
    (received : ControlReceiver.recv stream = .ok (some (message, rest))) (sender : ControlSender) :
    sender.send none none message =
        ((⟨sender.written ++ frame (put message)⟩, .ok ()) : ControlSender × Except (QuicError quinn) Unit) ∧
      (frame (put message)).length + rest.bytes.length ≤ stream.bytes.length ∧
      ∀ behind : RecvStream quinn,
        ControlReceiver.recv ⟨frame (put message) ++ behind.bytes, behind.lost⟩ = .ok (some (message, behind)) := by
  obtain ⟨within, fewer⟩ := ControlReceiver.recv_frame_le received
  exact ⟨sender.send_done within, fewer, fun behind => ControlReceiver.recv_frame within behind.bytes⟩

/-- A heartbeat whose variant was padded to two bytes. -/
theorem control_passed_on_padded :
    (⟨[]⟩ : ControlSender).send none none (.control (.heartbeat ⟨5⟩)) =
        ((⟨[0, 0, 0, 3, 1, 5, 5]⟩, .ok ()) : ControlSender × Except (QuicError ⟨Unit, Unit, Unit⟩) Unit) ∧
      7 + 0 ≤ 8 := by
  have received : ControlReceiver.recv (⟨[0, 0, 0, 4, 0x81, 0, 5, 5], none⟩ : RecvStream ⟨Unit, Unit, Unit⟩) =
      .ok (some (.control (.heartbeat ⟨5⟩), ⟨[], none⟩)) := rfl
  obtain ⟨sent, fewer, _⟩ := control_passed_on received ⟨[]⟩
  exact ⟨sent, fewer⟩

end Omnipresent
