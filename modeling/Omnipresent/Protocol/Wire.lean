import Omnipresent.Postcard.Wire
import Omnipresent.Protocol.Clipboard
import Omnipresent.Protocol.Input

/-! The top-level message and its binary encoding: an enumeration is its variant's
position, as a `u32`, and then the variant's fields in the order they are declared. -/
namespace Omnipresent

open Postcard

/-- Text and pixels have lengths that fit a `usize`, as whatever is held in memory has. -/
def ClipboardData.Addressable : ClipboardData → Prop
  | .text content => content.utf8ByteSize < 2 ^ 64
  | .image pixels => pixels.bytes.length < 2 ^ 64

/-- What passes the check on its size can be sent. -/
theorem ClipboardData.addressable_of_valid {data : ClipboardData} (valid : data.validate = .ok ()) :
    data.Addressable := by
  have fits := validate_ok valid
  cases data with
  | text content => exact Nat.lt_of_le_of_lt fits (by decide)
  | image pixels => exact Nat.lt_of_le_of_lt fits.2 (by decide)

inductive Message where
  | input (session : SessionId) (event : InputEvent)
  | control (message : ControlMessage)
  | clipboard (data : ClipboardData) (addressable : data.Addressable)

inductive CodecError where
  | malformed
deriving DecidableEq, Repr

instance : Wire MachineId := .newtype .mk MachineId.value fun _ => rfl

instance : Wire SessionId := .newtype .mk SessionId.value fun _ => rfl

instance : Wire Fingerprint :=
  .newtype (fun (bytes : { l : List UInt8 // l.length = 32 }) => ⟨bytes.1, bytes.2⟩)
    (fun fingerprint => ⟨fingerprint.bytes, fingerprint.length_eq⟩) fun _ => rfl

instance : Wire KeyCode := .newtype .mk KeyCode.value fun _ => rfl

instance : Wire Modifiers := .newtype .mk Modifiers.bits fun _ => rfl

instance : Wire ScreenSize where
  put screen := put screen.width ++ put screen.height
  take := do
    let width ← take
    let height ← take
    pure ⟨width, height⟩
  take_put screen rest := by
    simp only [List.append_assoc, run_take_bind]
    rfl

instance : Wire RejectReason where
  put
    | .notAllowed => put (0 : UInt32)
    | .fingerprintChanged => put (1 : UInt32)
    | .declined => put (2 : UInt32)
    | .busy => put (3 : UInt32)
  take := do
    let variant : UInt32 ← take
    match variant.toNat with
    | 0 => pure .notAllowed
    | 1 => pure .fingerprintChanged
    | 2 => pure .declined
    | 3 => pure .busy
    | _ => failure
  take_put reason rest := by
    cases reason <;> simp only [run_take_bind] <;> rfl

instance : Wire ControlMessage where
  put
    | .connectRequest machine fingerprint screen =>
      put (0 : UInt32) ++ (put machine ++ (put fingerprint ++ put screen))
    | .accept session machine screen => put (1 : UInt32) ++ (put session ++ (put machine ++ put screen))
    | .reject reason => put (2 : UInt32) ++ put reason
    | .disconnect session => put (3 : UInt32) ++ put session
    | .cursorWarp session x y => put (4 : UInt32) ++ (put session ++ (put x ++ put y))
    | .heartbeat session => put (5 : UInt32) ++ put session
    | .cursorReturned session x y => put (6 : UInt32) ++ (put session ++ (put x ++ put y))
  take := do
    let variant : UInt32 ← take
    match variant.toNat with
    | 0 => do
      let machine ← take
      let fingerprint ← take
      let screen ← take
      pure (.connectRequest machine fingerprint screen)
    | 1 => do
      let session ← take
      let machine ← take
      let screen ← take
      pure (.accept session machine screen)
    | 2 => ControlMessage.reject <$> take
    | 3 => ControlMessage.disconnect <$> take
    | 4 => do
      let session ← take
      let x ← take
      let y ← take
      pure (.cursorWarp session x y)
    | 5 => ControlMessage.heartbeat <$> take
    | 6 => do
      let session ← take
      let x ← take
      let y ← take
      pure (.cursorReturned session x y)
    | _ => failure
  take_put message rest := by
    cases message <;> simp only [List.append_assoc, run_take_bind, UInt32.reduceToNat, StateT.run_map, take_put]
    all_goals rfl

instance : Wire Action where
  put
    | .press => put (0 : UInt32)
    | .release => put (1 : UInt32)
  take := do
    let variant : UInt32 ← take
    match variant.toNat with
    | 0 => pure .press
    | 1 => pure .release
    | _ => failure
  take_put action rest := by
    cases action <;> simp only [run_take_bind] <;> rfl

instance : Wire MouseButton where
  put
    | .left => put (0 : UInt32)
    | .right => put (1 : UInt32)
    | .middle => put (2 : UInt32)
    | .back => put (3 : UInt32)
    | .forward => put (4 : UInt32)
    | .other index => put (5 : UInt32) ++ put index
  take := do
    let variant : UInt32 ← take
    match variant.toNat with
    | 0 => pure .left
    | 1 => pure .right
    | 2 => pure .middle
    | 3 => pure .back
    | 4 => pure .forward
    | 5 => MouseButton.other <$> take
    | _ => failure
  take_put button rest := by
    cases button <;> simp only [List.append_assoc, run_take_bind] <;> rfl

instance : Wire MouseDelta where
  put delta := put delta.dx ++ put delta.dy
  take := do
    let dx ← take
    let dy ← take
    pure ⟨dx, dy⟩
  take_put delta rest := by
    simp only [List.append_assoc, run_take_bind]
    rfl

instance : Wire ScrollDelta where
  put delta := put delta.dx ++ put delta.dy
  take := do
    let dx ← take
    let dy ← take
    pure ⟨dx, dy⟩
  take_put delta rest := by
    simp only [List.append_assoc, run_take_bind]
    rfl

instance : Wire InputEvent where
  put
    | .key code action modifiers => put (0 : UInt32) ++ (put code ++ (put action ++ put modifiers))
    | .motion delta => put (1 : UInt32) ++ put delta
    | .pointer x y => put (2 : UInt32) ++ (put x ++ put y)
    | .button button action => put (3 : UInt32) ++ (put button ++ put action)
    | .scroll delta => put (4 : UInt32) ++ put delta
  take := do
    let variant : UInt32 ← take
    match variant.toNat with
    | 0 => do
      let code ← take
      let action ← take
      let modifiers ← take
      pure (.key code action modifiers)
    | 1 => InputEvent.motion <$> take
    | 2 => do
      let x ← take
      let y ← take
      pure (.pointer x y)
    | 3 => do
      let button ← take
      let action ← take
      pure (.button button action)
    | 4 => InputEvent.scroll <$> take
    | _ => failure
  take_put event rest := by
    cases event <;> simp only [List.append_assoc, run_take_bind, UInt32.reduceToNat, StateT.run_map, take_put]
    all_goals rfl

theorem ClipboardData.text_addressable (content : { s : String // s.utf8ByteSize < 2 ^ 64 }) :
    (ClipboardData.text content.1).Addressable := content.2

theorem ClipboardData.image_addressable (width height : UInt32) (bytes : { l : List UInt8 // l.length < 2 ^ 64 }) :
    (ClipboardData.image ⟨width, height, bytes.1⟩).Addressable := bytes.2

instance : Wire { data : ClipboardData // data.Addressable } where
  put
    | ⟨.text content, fits⟩ => put (0 : UInt32) ++ put (⟨content, fits⟩ : { s : String // s.utf8ByteSize < 2 ^ 64 })
    | ⟨.image image, fits⟩ =>
      put (1 : UInt32) ++ (put image.width ++ (put image.height ++
        put (⟨image.bytes, fits⟩ : { l : List UInt8 // l.length < 2 ^ 64 })))
  take := do
    let variant : UInt32 ← take
    match variant.toNat with
    | 0 => do
      let content : { s : String // s.utf8ByteSize < 2 ^ 64 } ← take
      pure ⟨.text content.1, ClipboardData.text_addressable content⟩
    | 1 => do
      let width ← take
      let height ← take
      let bytes : { l : List UInt8 // l.length < 2 ^ 64 } ← take
      pure ⟨.image ⟨width, height, bytes.1⟩, ClipboardData.image_addressable width height bytes⟩
    | _ => failure
  take_put data rest := by
    obtain ⟨data, fits⟩ := data
    cases data <;> simp only [List.append_assoc, run_take_bind, UInt32.reduceToNat]
    all_goals rfl

instance : Wire Message where
  put
    | .input session event => put (0 : UInt32) ++ (put session ++ put event)
    | .control message => put (1 : UInt32) ++ put message
    | .clipboard data addressable =>
      put (2 : UInt32) ++ put (⟨data, addressable⟩ : { data : ClipboardData // data.Addressable })
  take := do
    let variant : UInt32 ← take
    match variant.toNat with
    | 0 => do
      let session ← take
      let event ← take
      pure (.input session event)
    | 1 => Message.control <$> take
    | 2 => do
      let data : { data : ClipboardData // data.Addressable } ← take
      pure (.clipboard data.1 data.2)
    | _ => failure
  take_put message rest := by
    cases message <;> simp only [List.append_assoc, run_take_bind, UInt32.reduceToNat, StateT.run_map, take_put]
    all_goals rfl

def encode (message : Message) : Except CodecError (List UInt8) :=
  (toAllocVec message).elim (.error .malformed) .ok

def decode (bytes : List UInt8) : Except CodecError Message :=
  (fromBytes bytes).elim (.error .malformed) .ok

theorem encode_eq (message : Message) : encode message = .ok (put message) := rfl

theorem decode_put (message : Message) (rest : List UInt8) : decode (put message ++ rest) = .ok message := by
  rw [decode, fromBytes_put, Option.elim_some]

/-- Whatever is encoded decodes to itself. -/
theorem decode_encode (message : Message) :
    ∃ bytes, encode message = .ok bytes ∧ decode bytes = .ok message := by
  refine ⟨put message, encode_eq message, ?_⟩
  have whole := decode_put message []
  rwa [List.append_nil] at whole

/-- No leftover input is rejected: the message is taken off the front, and what
follows it is never looked at. -/
theorem decode_leftover (message : Message) (leftover : List UInt8) (left : leftover ≠ []) :
    ∃ bytes, encode message = .ok bytes ∧ bytes ++ leftover ≠ bytes ∧
      decode (bytes ++ leftover) = .ok message ∧ decode (bytes ++ leftover) ≠ .error .malformed := by
  have accepted := decode_put message leftover
  refine ⟨put message, encode_eq message, ?_, accepted, ?_⟩
  · exact fun same => left (List.append_right_eq_self.mp same)
  · rw [accepted]
    intro malformed
    cases malformed

theorem decode_leftover_heartbeat :
    ∃ bytes, encode (.control (.heartbeat ⟨1⟩)) = .ok bytes ∧ bytes ++ [0xFF] ≠ bytes ∧
      decode (bytes ++ [0xFF]) = .ok (.control (.heartbeat ⟨1⟩)) ∧
        decode (bytes ++ [0xFF]) ≠ .error .malformed :=
  decode_leftover (.control (.heartbeat ⟨1⟩)) [0xFF] (by decide)

/-- A heartbeat with a byte of garbage behind it is read as a heartbeat. -/
theorem leftover_accepted :
    encode (.control (.heartbeat ⟨1⟩)) = .ok [1, 5, 1] ∧
      decode ([1, 5, 1] ++ [0xFF]) = .ok (.control (.heartbeat ⟨1⟩)) ∧
        ¬ (∀ (message : Message) (bytes leftover : List UInt8), encode message = .ok bytes → leftover ≠ [] →
          decode (bytes ++ leftover) = .error .malformed) := by
  have encoded : encode (.control (.heartbeat ⟨1⟩)) = .ok [1, 5, 1] := rfl
  have decoded : decode ([1, 5, 1] ++ [0xFF]) = .ok (.control (.heartbeat ⟨1⟩)) := rfl
  refine ⟨encoded, decoded, fun rejected => ?_⟩
  have malformed := rejected _ _ [0xFF] encoded (by decide)
  rw [decoded] at malformed
  cases malformed

end Omnipresent
