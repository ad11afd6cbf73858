import Omnipresent.Postcard.Stable
import Omnipresent.Protocol.Wire

/-! Messages cut short: nothing a message is made of reads past its own bytes, so what
arrives of one that lost its end is never read as another. -/
namespace Omnipresent

open Postcard

instance : StableWire MachineId := ⟨.map _ stable⟩

instance : StableWire SessionId := ⟨.map _ stable⟩

instance : StableWire Fingerprint := ⟨.map _ stable⟩

instance : StableWire KeyCode := ⟨.map _ stable⟩

instance : StableWire Modifiers := ⟨.map _ stable⟩

instance : StableWire ScreenSize := ⟨.bind stable fun _ => .bind stable fun _ => .pure _⟩

instance : StableWire RejectReason where
  stable := by
    refine .bind stable fun variant => ?_
    split
    iterate 4 exact .pure _
    exact .failure

instance : StableWire ControlMessage where
  stable := by
    refine .bind stable fun variant => ?_
    split
    · exact .bind stable fun machine => .bind stable fun fingerprint => .bind stable fun screen => .pure _
    · exact .bind stable fun session => .bind stable fun machine => .bind stable fun screen => .pure _
    · exact .map _ stable
    · exact .map _ stable
    · exact .bind stable fun session => .bind stable fun x => .bind stable fun y => .pure _
    · exact .map _ stable
    · exact .bind stable fun session => .bind stable fun x => .bind stable fun y => .pure _
    · exact .failure

instance : StableWire Action where
  stable := by
    refine .bind stable fun variant => ?_
    split
    · exact .pure _
    · exact .pure _
    · exact .failure

instance : StableWire MouseButton where
  stable := by
    refine .bind stable fun variant => ?_
    split
    iterate 5 exact .pure _
    · exact .map _ stable
    · exact .failure

instance : StableWire MouseDelta := ⟨.bind stable fun _ => .bind stable fun _ => .pure _⟩

instance : StableWire ScrollDelta := ⟨.bind stable fun _ => .bind stable fun _ => .pure _⟩

instance : StableWire InputEvent where
  stable := by
    refine .bind stable fun variant => ?_
    split
    · exact .bind stable fun code => .bind stable fun action => .bind stable fun modifiers => .pure _
    · exact .map _ stable
    · exact .bind stable fun x => .bind stable fun y => .pure _
    · exact .bind stable fun button => .bind stable fun action => .pure _
    · exact .map _ stable
    · exact .failure

instance : StableWire { data : ClipboardData // data.Addressable } where
  stable := by
    refine .bind stable fun variant => ?_
    split
    · exact .bind stable fun content => .pure _
    · exact .bind stable fun width => .bind stable fun height => .bind stable fun bytes => .pure _
    · exact .failure

instance : StableWire Message where
  stable := by
    refine .bind stable fun variant => ?_
    split
    · exact .bind stable fun session => .bind stable fun event => .pure _
    · exact .map _ stable
    · exact .bind stable fun data => .pure _
    · exact .failure

theorem decode_lost {message : Message} {kept lost : List UInt8} (cut : kept ++ lost = put message)
    (short : lost ≠ []) : decode kept = .error .malformed := by
  rw [decode, fromBytes_truncated cut short, Option.elim_none]

/-- A message cut short anywhere is malformed. -/
theorem decode_truncated (message : Message) (bytes kept : List UInt8) (encoded : encode message = .ok bytes)
    (start : kept <+: bytes) (short : kept ≠ bytes) : decode kept = .error .malformed := by
  obtain ⟨lost, rfl⟩ := start
  rw [encode_eq] at encoded
  refine decode_lost (Except.ok.inj encoded).symm ?_
  rintro rfl
  exact short (List.append_nil kept).symm

theorem decode_truncated_heartbeat : decode [1, 5] = .error .malformed :=
  decode_truncated (.control (.heartbeat ⟨1⟩)) [1, 5, 1] [1, 5] rfl ⟨[1], rfl⟩ (by decide)

end Omnipresent
