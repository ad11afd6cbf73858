import Omnipresent.Protocol.Wire

/-! Bulk payloads over QUIC: each on a stream of its own, behind its length in four
bytes, which the reader checks before it makes room for the rest. -/
namespace Omnipresent

open Postcard

/-- The largest bulk frame read: a full clipboard payload and the framing around it. -/
def maxBulkFrame : Nat := maxClipboardBytes + 1024

/-- What the QUIC library itself fails with. -/
structure Quinn where
  ConnectionError : Type
  WriteError : Type
  ReadError : Type

inductive ReadExactError (quinn : Quinn) where
  | finishedEarly (read : Nat)
  | readError (error : quinn.ReadError)

inductive QuicError (quinn : Quinn) where
  | connection (error : quinn.ConnectionError)
  | write (error : quinn.WriteError)
  | read (error : ReadExactError quinn)
  | codec (error : CodecError)
  | controlFrameTooLarge (len : Nat)
  | bulkFrameTooLarge (len : Nat)

/-- `u32::to_be_bytes`. -/
def toBeBytes (n : UInt32) : List UInt8 :=
  [n.toNat / 2 ^ 24, n.toNat / 2 ^ 16, n.toNat / 2 ^ 8, n.toNat].map UInt8.ofNat

/-- `u32::from_be_bytes`. -/
def fromBeBytes (header : List UInt8) : UInt32 :=
  UInt32.ofNat (header.foldl (fun n byte => n * 256 + byte.toNat) 0)

/-- The length a frame header announces, refused if it is past the limit. -/
def frameLen (header : List UInt8) (limit : Nat) : Except Nat Nat :=
  let len := (fromBeBytes header).toNat
  if limit < len then .error len else .ok len

/-- What a connection answers as a stream is opened, written twice and finished. -/
structure SendStream (quinn : Quinn) where
  openUni : Except quinn.ConnectionError Unit
  writeHeader : Except quinn.WriteError Unit
  writePayload : Except quinn.WriteError Unit

/-- Sends one payload on a new stream, and gives back what that stream carries. -/
def BulkSender.send (stream : SendStream quinn) (message : Message) : Except (QuicError quinn) (List UInt8) :=
  match encode message with
  | .error error => .error (.codec error)
  | .ok payload =>
    if maxBulkFrame < payload.length then .error (.bulkFrameTooLarge payload.length)
    -- `u32::try_from`
    else if 2 ^ 32 ≤ payload.length then .error (.bulkFrameTooLarge payload.length)
    else do
      stream.openUni.mapError .connection
      stream.writeHeader.mapError .write
      stream.writePayload.mapError .write
      pure (toBeBytes (UInt32.ofNat payload.length) ++ payload)

/-- A stream being read: the bytes still to come, and what is behind them, which is its
end where no error is. -/
structure RecvStream (quinn : Quinn) where
  bytes : List UInt8
  lost : Option quinn.ReadError

def RecvStream.readExact (self : RecvStream quinn) (count : Nat) :
    Except (ReadExactError quinn) (List UInt8 × RecvStream quinn) :=
  if count ≤ self.bytes.length then .ok (self.bytes.take count, { self with bytes := self.bytes.drop count })
  else match self.lost with
    | some error => .error (.readError error)
    | none => .error (.finishedEarly self.bytes.length)

/-- Reads one length-prefixed payload from a bulk stream. -/
def readBulkFrame (stream : RecvStream quinn) : Except (QuicError quinn) Message := do
  let (header, stream) ← (stream.readExact 4).mapError .read
  let len ← (frameLen header maxBulkFrame).mapError .bulkFrameTooLarge
  let (payload, _) ← (stream.readExact len).mapError .read
  (decode payload).mapError .codec

theorem length_toBeBytes (n : UInt32) : (toBeBytes n).length = 4 := rfl

theorem fromBeBytes_toBeBytes (n : UInt32) : fromBeBytes (toBeBytes n) = n := by
  have bound := n.toNat_lt
  apply UInt32.toNat.inj
  simp only [fromBeBytes, toBeBytes, List.map_cons, List.map_nil, List.foldl_cons, List.foldl_nil,
    UInt8.toNat_ofNat', UInt32.toNat_ofNat']
  omega

theorem frameLen_toBeBytes {len limit : Nat} (within : len ≤ limit) (narrow : len < 2 ^ 32) :
    frameLen (toBeBytes (UInt32.ofNat len)) limit = .ok len := by
  have read : (UInt32.ofNat len).toNat = len := UInt32.toNat_ofNat_of_lt' narrow
  rw [frameLen, fromBeBytes_toBeBytes]
  simp only [read]
  exact if_neg (Nat.not_lt.mpr within)

theorem mapError_eq_ok {x : Except ε α} {f : ε → ε'} : x.mapError f = .ok a ↔ x = .ok a := by
  cases x with
  | ok b => rw [Except.mapError, Except.ok.injEq, Except.ok.injEq]
  | error e => exact iff_of_false (by rintro ⟨⟩) (by rintro ⟨⟩)

theorem bind_mapError_eq_ok {x : Except ε α} {f : ε → ε'} {g : α → Except ε' β} :
    (x.mapError f >>= g) = .ok b ↔ ∃ a, x = .ok a ∧ g a = .ok b := by
  cases x with
  | ok a =>
    refine ⟨fun done => ⟨a, rfl, done⟩, ?_⟩
    rintro ⟨_, same, done⟩
    cases same
    exact done
  | error e => exact iff_of_false (by rintro ⟨⟩) (by rintro ⟨_, ⟨⟩, _⟩)

theorem RecvStream.readExact_append {quinn : Quinn} (front behind : List UInt8) (lost : Option quinn.ReadError) :
    RecvStream.readExact ⟨front ++ behind, lost⟩ front.length = .ok (front, ⟨behind, lost⟩) := by
  have long : front.length ≤ (front ++ behind).length := by
    rw [List.length_append]
    exact Nat.le_add_right _ _
  rw [readExact, if_pos long, List.take_left, List.drop_left]

theorem RecvStream.readExact_short {stream : RecvStream quinn} {count : Nat}
    (short : stream.bytes.length < count) :
    stream.readExact count =
      .error (stream.lost.elim (.finishedEarly stream.bytes.length) .readError) := by
  rw [readExact, if_neg (Nat.not_le.mpr short)]
  cases stream.lost <;> rfl

theorem RecvStream.readExact_eq_ok {quinn : Quinn} {stream rest : RecvStream quinn} {count : Nat}
    {read : List UInt8} :
    stream.readExact count = .ok (read, rest) ↔
      read.length = count ∧ stream.bytes = read ++ rest.bytes ∧ stream.lost = rest.lost := by
  constructor
  · intro done
    rw [readExact] at done
    split at done
    · rename_i long
      cases done
      exact ⟨List.length_take_of_le long, (List.take_append_drop count stream.bytes).symm, rfl⟩
    · split at done <;> cases done
  · rintro ⟨rfl, bytes, lost⟩
    obtain ⟨bytes', lost'⟩ := stream
    obtain ⟨restBytes, restLost⟩ := rest
    dsimp only at bytes lost
    subst bytes lost
    exact readExact_append read restBytes lost'

theorem maxBulkFrame_lt : maxBulkFrame < 2 ^ 32 := by decide

def frame (payload : List UInt8) : List UInt8 := toBeBytes (UInt32.ofNat payload.length) ++ payload

/-- What is within the limit goes out, unless the network itself fails. -/
theorem BulkSender.send_within (stream : SendStream quinn) {message : Message}
    (within : (put message).length ≤ maxBulkFrame) :
    BulkSender.send stream message = (do
      stream.openUni.mapError .connection
      stream.writeHeader.mapError .write
      stream.writePayload.mapError .write
      pure (frame (put message))) := by
  have narrow := Nat.not_le.mpr (Nat.lt_of_le_of_lt within maxBulkFrame_lt)
  simp only [send, encode_eq, if_neg (Nat.not_lt.mpr within), if_neg narrow]
  rfl

theorem BulkSender.send_ok {stream : SendStream quinn} {message : Message} {sent : List UInt8}
    (within : (put message).length ≤ maxBulkFrame) (delivered : BulkSender.send stream message = .ok sent) :
    sent = frame (put message) := by
  rw [send_within stream within] at delivered
  obtain ⟨openUni, writeHeader, writePayload⟩ := stream
  rcases openUni with _ | _ <;> rcases writeHeader with _ | _ <;> rcases writePayload with _ | _ <;> cases delivered
  rfl

theorem BulkSender.send_not_tooLarge (stream : SendStream quinn) {message : Message}
    (within : (put message).length ≤ maxBulkFrame) (len : Nat) :
    BulkSender.send stream message ≠ .error (.bulkFrameTooLarge len) := by
  rw [send_within stream within]
  obtain ⟨openUni, writeHeader, writePayload⟩ := stream
  rcases openUni with _ | _ <;> rcases writeHeader with _ | _ <;> rcases writePayload with _ | _ <;> nofun

/-- Behind a length within the limit the payload is read and decoded, whatever else the
stream carries. -/
theorem readBulkFrame_payload {quinn : Quinn} {payload : List UInt8} (within : payload.length ≤ maxBulkFrame)
    (behind : List UInt8) (lost : Option quinn.ReadError) :
    readBulkFrame ⟨frame payload ++ behind, lost⟩ = (decode payload).mapError .codec := by
  have header := RecvStream.readExact_append (toBeBytes (UInt32.ofNat payload.length)) (payload ++ behind) lost
  have announced := frameLen_toBeBytes within (Nat.lt_of_le_of_lt within maxBulkFrame_lt)
  rw [length_toBeBytes] at header
  rw [readBulkFrame, frame, List.append_assoc, header]
  change (frameLen _ _).mapError QuicError.bulkFrameTooLarge >>= _ = _
  rw [announced]
  change (RecvStream.readExact _ _).mapError QuicError.read >>= _ = _
  rw [RecvStream.readExact_append payload behind lost]
  rfl

theorem readBulkFrame_frame {quinn : Quinn} {message : Message} (within : (put message).length ≤ maxBulkFrame)
    (behind : List UInt8) (lost : Option quinn.ReadError) :
    readBulkFrame ⟨frame (put message) ++ behind, lost⟩ = .ok message := by
  have whole := decode_put message []
  rw [List.append_nil] at whole
  rw [readBulkFrame_payload within, whole]
  rfl

theorem length_put_clipboard (data : ClipboardData) (addressable : data.Addressable) :
    (put (Message.clipboard data addressable)).length ≤
      30 + match data with
        | .text content => content.utf8ByteSize
        | .image pixels => pixels.bytes.length := by
  have variant := length_put_u32 2
  cases data with
  | text content =>
    have kind := length_put_u32 0
    have body := length_put_text ⟨content, addressable⟩
    change (put (2 : UInt32) ++ (put (0 : UInt32) ++ put _)).length ≤ _
    simp only [List.length_append]
    dsimp only at body
    omega
  | image pixels =>
    have kind := length_put_u32 1
    have width := length_put_u32 pixels.width
    have height := length_put_u32 pixels.height
    have body := length_put_bytes ⟨pixels.bytes, addressable⟩
    change (put (2 : UInt32) ++ (put (1 : UInt32) ++ (put _ ++ (put _ ++ put _)))).length ≤ _
    simp only [List.length_append]
    dsimp only at body
    omega

/-- The framing around a payload is far less than the limits leave for it. -/
theorem clipboard_within {data : ClipboardData} (valid : data.validate = .ok ()) (addressable : data.Addressable) :
    (put (Message.clipboard data addressable)).length ≤ maxBulkFrame := by
  have size := length_put_clipboard data addressable
  have capped := ClipboardData.validate_ok valid
  unfold maxBulkFrame
  cases data with
  | text content =>
    simp only at size capped
    omega
  | image pixels =>
    simp only at size capped
    omega

/-- A payload that passes the check is never too large for its frame, and where the
network lets it through, it is read as what it was and passes the check again. -/
theorem clipboard_delivered (data : ClipboardData) (valid : data.validate = .ok ()) :
    ∃ payload addressable, encode (.clipboard data addressable) = .ok payload ∧ payload.length ≤ maxBulkFrame ∧
      frameLen (toBeBytes (UInt32.ofNat payload.length)) maxBulkFrame = .ok payload.length ∧
      ∀ (quinn : Quinn) (stream : SendStream quinn),
        (∀ len, BulkSender.send stream (.clipboard data addressable) ≠ .error (.bulkFrameTooLarge len)) ∧
        (stream.openUni = .ok () → stream.writeHeader = .ok () → stream.writePayload = .ok () →
          BulkSender.send stream (.clipboard data addressable) =
            .ok (toBeBytes (UInt32.ofNat payload.length) ++ payload)) ∧
        ∀ sent, BulkSender.send stream (.clipboard data addressable) = .ok sent → ∀ lost : Option quinn.ReadError,
          ∃ received kept, readBulkFrame ⟨sent, lost⟩ = .ok (.clipboard received kept) ∧
            received = data ∧ received.validate = .ok () := by
  have addressable := ClipboardData.addressable_of_valid valid
  have within := clipboard_within valid addressable
  refine ⟨_, addressable, encode_eq _, within, ?_, fun quinn stream => ⟨?_, ?_, ?_⟩⟩
  · exact frameLen_toBeBytes within (Nat.lt_of_le_of_lt within maxBulkFrame_lt)
  · exact BulkSender.send_not_tooLarge stream within
  · intro opened headed written
    rw [BulkSender.send_within stream within, opened, headed, written]
    rfl
  · intro sent delivered lost
    obtain rfl := BulkSender.send_ok within delivered
    have back := readBulkFrame_frame within [] lost
    rw [List.append_nil] at back
    exact ⟨data, addressable, back, rfl, valid⟩

theorem clipboard_delivered_text :
    ∃ payload addressable, encode (.clipboard (.text "hi") addressable) = .ok payload ∧
      payload.length ≤ maxBulkFrame ∧
      frameLen (toBeBytes (UInt32.ofNat payload.length)) maxBulkFrame = .ok payload.length ∧
      ∀ (quinn : Quinn) (stream : SendStream quinn),
        (∀ len, BulkSender.send stream (.clipboard (.text "hi") addressable) ≠ .error (.bulkFrameTooLarge len)) ∧
        (stream.openUni = .ok () → stream.writeHeader = .ok () → stream.writePayload = .ok () →
          BulkSender.send stream (.clipboard (.text "hi") addressable) =
            .ok (toBeBytes (UInt32.ofNat payload.length) ++ payload)) ∧
        ∀ sent, BulkSender.send stream (.clipboard (.text "hi") addressable) = .ok sent →
          ∀ lost : Option quinn.ReadError, ∃ received kept,
            readBulkFrame ⟨sent, lost⟩ = .ok (.clipboard received kept) ∧
              received = .text "hi" ∧ received.validate = .ok () :=
  clipboard_delivered (.text "hi") rfl

end Omnipresent
