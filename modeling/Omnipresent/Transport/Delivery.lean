import Omnipresent.Transport.Quic

/-! Clipboard payloads from the queue of one machine to the other: a task of their own hands
them to the connection, each on its stream, and a pump reads the streams at the other end, one
after the other: a stream on which a payload is still arriving holds up those behind it. -/
namespace Omnipresent
open Postcard

/-- The sender's task: payloads leave one at a time, in the order they were copied, until one
does not. `send` is the connection's part, which goes on from wherever it left off. Kept with
the end are the payloads handed over, each with what became of it. -/
def runClipboardSender (send : σ → α → σ × Bool) (connection : σ) : List α → σ × List (α × Bool)
  | [] => (connection, [])
  | data :: payloads =>
    let (connection, sent) := send connection data
    if sent then
      let (connection, handed) := runClipboardSender send connection payloads
      (connection, (data, sent) :: handed)
    else (connection, [(data, sent)])

/-- A stream the peer opened: what has come of it, and how it ended, if it has. -/
structure BulkStream (quinn : Quinn) where
  bytes : List UInt8
  ended : Option (Option quinn.ReadError)

namespace BulkStream
variable {quinn : Quinn}

/-- A `read_exact` that comes to the end of what is there waits for more, if the stream is still open. -/
def read (self : BulkStream quinn) : Option (Except (QuicError quinn) Message) :=
  match self.ended with
  | some lost => some (readBulkFrame ⟨self.bytes, lost⟩)
  | none =>
    match readBulkFrame ⟨self.bytes, none⟩ with
    | .error (.read _) => none
    | result => some result

def message (self : BulkStream quinn) : Option Message := self.read.bind Except.toOption

/-- It begins with a payload within the limit that is well formed, whatever follows. -/
def Carries (self : BulkStream quinn) (message : Message) : Prop :=
  ∃ payload behind, self.bytes = frame payload ++ behind ∧ payload.length ≤ maxBulkFrame ∧
    decode payload = .ok message

/-- It is open, and its length or as much as that announces is still to come. -/
def Waits (self : BulkStream quinn) : Prop :=
  self.ended = none ∧ (self.bytes.length < 4 ∨
    ∃ len, frameLen (self.bytes.take 4) maxBulkFrame = .ok len ∧ self.bytes.length < 4 + len)

/-- The same stream later on. -/
def Grows (self later : BulkStream quinn) : Prop :=
  later = self ∨ self.ended = none ∧ self.bytes <+: later.bytes

end BulkStream

/-- The pump of a connection: streams are taken in the order the peer opened them, and what
is not read as a payload is discarded. `kept` tells whether the receiving end is still there
when so many payloads have been delivered. -/
def bulkPump (kept : Nat → Bool) : List (BulkStream quinn) → List Message
  | [] => []
  | stream :: streams => match stream.read with
    | none => []
    | some (.ok message) =>
      if kept 0 then message :: bulkPump (fun delivered => kept (delivered + 1)) streams else []
    | some (.error _) => bulkPump kept streams

def afterSending (send : σ → α → σ × Bool) (connection : σ) (payloads : List α) : σ :=
  payloads.foldl (fun connection data => (send connection data).1) connection

theorem runClipboardSender_cons (send : σ → α → σ × Bool) (connection : σ) (data : α) (payloads : List α) :
    runClipboardSender send connection (data :: payloads) =
      if (send connection data).2 = true then
        ((runClipboardSender send (send connection data).1 payloads).1,
          (data, true) :: (runClipboardSender send (send connection data).1 payloads).2)
      else ((send connection data).1, [(data, false)]) := by
  rw [runClipboardSender]
  cases sent : (send connection data).2 <;> simp [sent]

/-- The queue is handed over in its order: all of it where each payload is sent, and else
what comes before the first that is not, and that one. -/
theorem runClipboardSender_handed (send : σ → α → σ × Bool) (connection : σ) (payloads : List α) :
    (runClipboardSender send connection payloads).2 = payloads.map (·, true) ∨
    ∃ before data after, payloads = before ++ data :: after ∧
      (runClipboardSender send connection payloads).2 = before.map (·, true) ++ [(data, false)] := by
  induction payloads generalizing connection with
  | nil => exact .inl rfl
  | cons data payloads ih =>
    rw [runClipboardSender_cons]
    split
    · obtain all | ⟨before, failed, after, rfl, some⟩ := ih (send connection data).1
      · exact .inl (congrArg ((data, true) :: ·) all)
      · exact .inr ⟨data :: before, failed, after, rfl, congrArg ((data, true) :: ·) some⟩
    · exact .inr ⟨[], data, payloads, rfl, rfl⟩

/-- Each is handed over once the one before it is done with, and the answer is the
connection's at that point. -/
theorem runClipboardSender_answers (send : σ → α → σ × Bool) (connection : σ) (payloads : List α) (i : Nat)
    (handed : (runClipboardSender send connection payloads).2[i]? = some (data, sent)) :
    sent = (send (afterSending send connection (payloads.take i)) data).2 := by
  induction payloads generalizing connection i with
  | nil => cases handed
  | cons first payloads ih =>
    rw [runClipboardSender_cons] at handed
    split at handed
    · rename_i went
      cases i with
      | zero =>
        cases handed
        exact went.symm
      | succ i => exact ih (send connection first).1 i handed
    · rename_i stayed
      cases i with
      | zero =>
        cases handed
        exact (Bool.eq_false_iff.mpr stayed).symm
      | succ i => cases handed

/-- What was handed over is what the connection has seen. -/
theorem runClipboardSender_ends (send : σ → α → σ × Bool) (connection : σ) (payloads : List α) :
    (runClipboardSender send connection payloads).1 =
      afterSending send connection ((runClipboardSender send connection payloads).2.map Prod.fst) := by
  induction payloads generalizing connection with
  | nil => rfl
  | cons data payloads ih =>
    rw [runClipboardSender_cons]
    split
    · exact ih (send connection data).1
    · rfl

theorem toBeBytes_fromBeBytes {header : List UInt8} (four : header.length = 4) :
    toBeBytes (fromBeBytes header) = header := by
  obtain ⟨a, b, c, d, rfl⟩ : ∃ a b c d, header = [a, b, c, d] := by
    match header, four with
    | [a, b, c, d], _ => exact ⟨a, b, c, d, rfl⟩
  have value : (fromBeBytes [a, b, c, d]).toNat = ((a.toNat * 256 + b.toNat) * 256 + c.toNat) * 256 + d.toNat := by
    have first := a.toNat_lt
    have second := b.toNat_lt
    have third := c.toNat_lt
    have last := d.toNat_lt
    simp only [fromBeBytes, List.foldl_cons, List.foldl_nil, UInt32.toNat_ofNat']
    omega
  have byte : ∀ (n : Nat) (x : UInt8), n % 256 = x.toNat → UInt8.ofNat n = x := by
    intro n x same
    apply UInt8.toNat.inj
    rw [UInt8.toNat_ofNat', ← same]
  have second := b.toNat_lt
  have third := c.toNat_lt
  have last := d.toNat_lt
  have first := a.toNat_lt
  simp only [toBeBytes, value, List.map_cons, List.map_nil, List.cons.injEq, and_true]
  exact ⟨byte _ _ (by omega), byte _ _ (by omega), byte _ _ (by omega), byte _ _ (by omega)⟩

theorem frameLen_eq_ok {header : List UInt8} {limit len : Nat} :
    frameLen header limit = .ok len ↔ len ≤ limit ∧ (fromBeBytes header).toNat = len := by
  simp only [frameLen]
  split
  · rename_i large
    exact iff_of_false (by rintro ⟨⟩) (by rintro ⟨within, rfl⟩; omega)
  · rename_i within
    rw [Except.ok.injEq]
    exact ⟨fun same => ⟨same ▸ Nat.not_lt.mp within, same⟩, And.right⟩

/-- What reading a payload comes to, by the bytes that are there. -/
theorem readBulkFrame_eq {quinn : Quinn} (bytes : List UInt8) (lost : Option quinn.ReadError) :
    readBulkFrame ⟨bytes, lost⟩ =
      if bytes.length < 4 then .error (.read (lost.elim (.finishedEarly bytes.length) .readError))
      else match frameLen (bytes.take 4) maxBulkFrame with
        | .error len => .error (.bulkFrameTooLarge len)
        | .ok len =>
          if bytes.length < 4 + len then
            .error (.read (lost.elim (.finishedEarly (bytes.drop 4).length) .readError))
          else (decode ((bytes.drop 4).take len)).mapError .codec := by
  rw [readBulkFrame]
  split
  · rw [RecvStream.readExact_short ‹_›]
    rfl
  · rename_i long
    rw [RecvStream.readExact, if_pos (Nat.not_lt.mp long)]
    change (frameLen _ _).mapError QuicError.bulkFrameTooLarge >>= _ = _
    cases frameLen (bytes.take 4) maxBulkFrame with
    | error len => rfl
    | ok len =>
      change (RecvStream.readExact ⟨bytes.drop 4, lost⟩ len).mapError QuicError.read >>= _ = _
      have rest : (bytes.drop 4).length = bytes.length - 4 := List.length_drop ..
      dsimp only
      split
      · rw [RecvStream.readExact_short (show (bytes.drop 4).length < len by omega)]
        rfl
      · rw [RecvStream.readExact, if_pos (show len ≤ (bytes.drop 4).length by omega)]
        rfl

theorem readBulkFrame_eq_ok {quinn : Quinn} {bytes : List UInt8} {lost : Option quinn.ReadError} {message : Message} :
    readBulkFrame ⟨bytes, lost⟩ = .ok message ↔ (⟨bytes, none⟩ : BulkStream quinn).Carries message := by
  constructor
  · intro read
    obtain ⟨⟨header, rest⟩, isHeader, read⟩ := bind_mapError_eq_ok.mp read
    obtain ⟨len, announced, read⟩ := bind_mapError_eq_ok.mp read
    obtain ⟨⟨payload, behind⟩, isPayload, read⟩ := bind_mapError_eq_ok.mp read
    obtain ⟨four, split, _⟩ := RecvStream.readExact_eq_ok.mp isHeader
    obtain ⟨long, split', _⟩ := RecvStream.readExact_eq_ok.mp isPayload
    obtain ⟨within, value⟩ := frameLen_eq_ok.mp announced
    refine ⟨payload, behind.bytes, ?_, long ▸ within, ?_⟩
    · rw [frame, long, ← value, UInt32.ofNat_toNat, toBeBytes_fromBeBytes four, List.append_assoc, ← split']
      exact split
    · exact mapError_eq_ok.mp read
  · rintro ⟨payload, behind, rfl, within, decoded⟩
    rw [readBulkFrame_payload within, decoded]
    rfl

/-- More bytes are no matter to what did not wait for any. -/
theorem readBulkFrame_append {quinn : Quinn} {bytes : List UInt8}
    (done : ∀ error, @readBulkFrame quinn ⟨bytes, none⟩ ≠ .error (.read error)) (more : List UInt8)
    (lost : Option quinn.ReadError) : readBulkFrame ⟨bytes ++ more, lost⟩ = @readBulkFrame quinn ⟨bytes, none⟩ := by
  rw [readBulkFrame_eq] at done
  rw [readBulkFrame_eq, readBulkFrame_eq]
  split at done
  · exact absurd rfl (done _)
  · rename_i long
    have long : 4 ≤ bytes.length := Nat.not_lt.mp long
    rw [if_neg (by rw [List.length_append]; omega), if_neg (Nat.not_lt.mpr long), List.take_append_of_le_length long,
      List.drop_append_of_le_length long]
    cases announced : frameLen (bytes.take 4) maxBulkFrame with
    | error len => rfl
    | ok len =>
      rw [announced] at done
      dsimp only at done ⊢
      split at done
      · exact absurd rfl (done _)
      · rename_i whole
        have rest : len ≤ (bytes.drop 4).length := by
          rw [List.length_drop]
          omega
        rw [if_neg (by rw [List.length_append]; omega), if_neg whole, List.take_append_of_le_length rest]

namespace BulkStream
variable {quinn : Quinn} {stream later : BulkStream quinn} {message : Message}

theorem read_eq_none : stream.read = none ↔ stream.Waits := by
  obtain ⟨bytes, _ | lost⟩ := stream
  · rw [read, Waits]
    dsimp only
    rw [readBulkFrame_eq]
    by_cases short : bytes.length < 4
    · simp [short]
    · rw [if_neg short]
      cases frameLen (bytes.take 4) maxBulkFrame with
      | error len => simp [short]
      | ok len =>
        by_cases cut : bytes.length < 4 + len
        · simp [short, cut]
        · dsimp only
          rw [if_neg cut]
          refine iff_of_false ?_ (by simp [short, cut])
          cases decode ((bytes.drop 4).take len) with
          | error error => exact nofun
          | ok message => exact nofun
  · exact iff_of_false nofun fun waits => nomatch waits.1

theorem read_eq_ok : stream.read = some (.ok message) ↔ stream.Carries message := by
  obtain ⟨bytes, _ | lost⟩ := stream
  · rw [← @readBulkFrame_eq_ok quinn bytes none, read]
    dsimp only
    split
    · simp [*]
    · simp
  · rw [read, Option.some.injEq, readBulkFrame_eq_ok]
    rfl

theorem message_eq_some : stream.message = some message ↔ stream.Carries message := by
  rw [← read_eq_ok, BulkStream.message]
  cases stream.read with
  | none => simp
  | some result => cases result <;> simp [Except.toOption]

/-- What was read of a stream is read of it for good. -/
theorem Grows.read (grows : stream.Grows later) (done : stream.read = some result) : later.read = some result := by
  obtain rfl | ⟨opened, more, extends'⟩ := grows
  · exact done
  · obtain ⟨bytes, ended⟩ := stream
    obtain ⟨bytes', ended'⟩ := later
    dsimp only at opened extends'
    subst opened extends'
    rw [BulkStream.read] at done
    dsimp only at done
    split at done
    · cases done
    · rename_i unread
      obtain rfl := Option.some.inj done
      have same := fun lost => readBulkFrame_append unread more lost
      rw [BulkStream.read]
      cases ended' with
      | some lost => exact congrArg some (same lost)
      | none =>
        dsimp only
        rw [same none]
        split
        · exact absurd ‹_› (unread _)
        · rfl

end BulkStream

/-- What is delivered is the beginning of what the streams carry up to the first that waits, and
all of it but where the receiving end was gone by then. -/
theorem bulkPump_delivered {quinn : Quinn} (kept : Nat → Bool) (streams : List (BulkStream quinn)) :
    ∃ done waiting, streams = done ++ waiting ∧ (∀ stream ∈ done, ¬ stream.Waits) ∧
      (∀ stream ∈ waiting.head?, stream.Waits) ∧
      bulkPump kept streams <+: done.filterMap BulkStream.message ∧
      (bulkPump kept streams = done.filterMap BulkStream.message ∨
        kept (bulkPump kept streams).length = false) := by
  induction streams generalizing kept with
  | nil => exact ⟨[], [], rfl, nofun, nofun, List.prefix_rfl, .inl rfl⟩
  | cons stream streams ih =>
    rw [bulkPump]
    cases read : stream.read with
    | none =>
      refine ⟨[], stream :: streams, rfl, nofun, ?_, List.prefix_rfl, .inl rfl⟩
      rintro _ ⟨⟩
      exact BulkStream.read_eq_none.mp read
    | some result =>
      have goesOn : ¬ stream.Waits := fun waits => nomatch read.symm.trans (BulkStream.read_eq_none.mpr waits)
      cases result with
      | error error =>
        have discarded : stream.message = none := by rw [BulkStream.message, read]; rfl
        obtain ⟨done, waiting, rfl, passed, held, delivered⟩ := ih kept
        refine ⟨stream :: done, waiting, rfl, List.forall_mem_cons.mpr ⟨goesOn, passed⟩, held, ?_⟩
        rw [List.filterMap_cons_none discarded]
        exact delivered
      | ok message =>
        have carried : stream.message = some message := by rw [BulkStream.message, read]; rfl
        obtain ⟨done, waiting, rfl, passed, held, inOrder, ends⟩ := ih fun delivered => kept (delivered + 1)
        refine ⟨stream :: done, waiting, rfl, List.forall_mem_cons.mpr ⟨goesOn, passed⟩, held, ?_⟩
        rw [List.filterMap_cons_some carried]
        cases there : kept 0 with
        | false => exact ⟨List.nil_prefix, .inr there⟩
        | true => exact ⟨(List.prefix_cons_inj message).mpr inOrder, ends.imp_left (congrArg (message :: ·))⟩

/-- What was delivered stays delivered, and more of it comes behind. -/
theorem bulkPump_grows {quinn : Quinn} {streams grown : List (BulkStream quinn)}
    (grows : List.Forall₂ BulkStream.Grows streams grown) (kept : Nat → Bool) (more : List (BulkStream quinn)) :
    bulkPump kept streams <+: bulkPump kept (grown ++ more) := by
  induction grows generalizing kept with
  | nil => exact List.nil_prefix
  | @cons stream later streams grown first rest ih =>
    rw [List.cons_append, bulkPump, bulkPump]
    cases read : stream.read with
    | none => exact List.nil_prefix
    | some result =>
      rw [first.read read]
      cases result with
      | error error => exact ih kept
      | ok message =>
        dsimp only
        split
        · exact (List.prefix_cons_inj message).mpr (ih _)
        · exact List.prefix_rfl

/-- What the connection does with a payload for its peer. The bytes of one that is sent are on
a stream of their own; of one that is not the peer may see streams that break off. -/
def sendClipboard (network : Nat → SendStream quinn) (broken : List (BulkStream quinn))
    (connection : Nat × List (BulkStream quinn)) :
    { data : ClipboardData // data.Addressable } → (Nat × List (BulkStream quinn)) × Bool
  | ⟨data, addressable⟩ => match BulkSender.send (network connection.1) (.clipboard data addressable) with
    | .ok bytes => ((connection.1 + 1, connection.2 ++ [⟨bytes, some none⟩]), true)
    | .error _ => ((connection.1 + 1, connection.2 ++ broken), false)

theorem BulkSender.send_carries {stream : SendStream quinn} {message : Message} {bytes : List UInt8}
    (sent : BulkSender.send stream message = .ok bytes) (ended : Option (Option quinn.ReadError)) :
    BulkStream.Carries ⟨bytes, ended⟩ message := by
  have within : (put message).length ≤ maxBulkFrame := by
    by_contra large
    rw [BulkSender.send, encode_eq] at sent
    dsimp only at sent
    rw [if_pos (Nat.not_le.mp large)] at sent
    cases sent
  have whole := decode_put message []
  rw [List.append_nil] at whole
  refine ⟨put message, [], ?_, within, whole⟩
  rw [List.append_nil]
  exact BulkSender.send_ok within sent

theorem bulkPump_cons_carries {stream : BulkStream quinn} (carries : stream.Carries message)
    (streams : List (BulkStream quinn)) :
    bulkPump (fun _ => true) (stream :: streams) = message :: bulkPump (fun _ => true) streams := by
  rw [bulkPump, BulkStream.read_eq_ok.mpr carries]
  exact if_pos rfl

/-- From one queue to the other: what is delivered is what was sent, in its order. -/
theorem runClipboardSender_delivered (network : Nat → SendStream quinn) {broken : List (BulkStream quinn)}
    (unread : ∀ stream ∈ broken, ∀ message, ¬ stream.Carries message)
    (payloads : List { data : ClipboardData // data.Addressable }) (attempt : Nat) (opened : List (BulkStream quinn)) :
    ∃ streams, (runClipboardSender (sendClipboard network broken) (attempt, opened) payloads).1.2 = opened ++ streams ∧
      bulkPump (fun _ => true) streams =
        ((runClipboardSender (sendClipboard network broken) (attempt, opened) payloads).2.filter Prod.snd).map
          fun entry => .clipboard entry.1.1 entry.1.2 := by
  induction payloads generalizing attempt opened with
  | nil => exact ⟨[], (List.append_nil _).symm, rfl⟩
  | cons data payloads ih =>
    rw [runClipboardSender_cons]
    obtain ⟨data, addressable⟩ := data
    cases sent : BulkSender.send (network attempt) (.clipboard data addressable) with
    | ok bytes =>
      have went : sendClipboard network broken (attempt, opened) ⟨data, addressable⟩ =
          ((attempt + 1, opened ++ [⟨bytes, some none⟩]), true) := by
        rw [sendClipboard, sent]
      rw [went, if_pos rfl]
      obtain ⟨streams, behind, delivered⟩ := ih (attempt + 1) (opened ++ [⟨bytes, some none⟩])
      refine ⟨⟨bytes, some none⟩ :: streams, ?_, ?_⟩
      · rw [behind, List.append_assoc, List.singleton_append]
      · rw [bulkPump_cons_carries (BulkSender.send_carries sent _), delivered]
        rfl
    | error error =>
      have stayed : sendClipboard network broken (attempt, opened) ⟨data, addressable⟩ =
          ((attempt + 1, opened ++ broken), false) := by
        rw [sendClipboard, sent]
      rw [stayed, if_neg Bool.false_ne_true]
      refine ⟨broken, rfl, ?_⟩
      obtain ⟨done, _, rfl, _, _, inOrder, _⟩ := bulkPump_delivered (fun _ => true) broken
      have nothing : done.filterMap BulkStream.message = [] := by
        rw [List.filterMap_eq_nil_iff]
        intro stream listed
        rw [Option.eq_none_iff_forall_ne_some]
        exact fun message read =>
          unread stream (List.mem_append_left _ listed) message (BulkStream.message_eq_some.mp read)
      rw [nothing] at inOrder
      exact List.prefix_nil.mp inOrder

/-- The queue leaves in its order up to and including the first payload that is not sent, each
once the one before is done with, and nothing else is sent. Of the streams the peer opened the
pump delivers what they carry, in their order, up to the first that waits for more of its payload
and for as long as anyone receives it, and as streams go on, so does what is delivered. From one
end to the other, what is delivered is what was sent. -/
theorem clipboard_in_order :
    (∀ (σ α : Type) (send : σ → α → σ × Bool) (connection : σ) (payloads : List α),
      ((runClipboardSender send connection payloads).2 = payloads.map (·, true) ∨
        ∃ before : List α, ∃ data after, payloads = before ++ data :: after ∧
          (runClipboardSender send connection payloads).2 = before.map (·, true) ++ [(data, false)]) ∧
      (runClipboardSender send connection payloads).1 =
        afterSending send connection ((runClipboardSender send connection payloads).2.map Prod.fst) ∧
      ∀ i data sent, (runClipboardSender send connection payloads).2[i]? = some (data, sent) →
        sent = (send (afterSending send connection (payloads.take i)) data).2) ∧
    (∀ (quinn : Quinn) (kept : Nat → Bool) (streams : List (BulkStream quinn)),
      (∀ stream : BulkStream quinn, ∀ message,
        stream.message = some message ↔ stream.Carries message) ∧
      (∃ done waiting, streams = done ++ waiting ∧ (∀ stream ∈ done, ¬ stream.Waits) ∧
        (∀ stream ∈ waiting.head?, stream.Waits) ∧
        bulkPump kept streams <+: done.filterMap BulkStream.message ∧
        (bulkPump kept streams = done.filterMap BulkStream.message ∨
          kept (bulkPump kept streams).length = false)) ∧
      ∀ grown more, List.Forall₂ BulkStream.Grows streams grown →
        bulkPump kept streams <+: bulkPump kept (grown ++ more)) ∧
    ∀ (quinn : Quinn) (network : Nat → SendStream quinn) (broken : List (BulkStream quinn))
      (payloads : List { data : ClipboardData // data.Addressable }),
      (∀ stream ∈ broken, ∀ message, ¬ stream.Carries message) →
      bulkPump (fun _ => true) (runClipboardSender (sendClipboard network broken) (0, []) payloads).1.2 =
        ((runClipboardSender (sendClipboard network broken) (0, []) payloads).2.filter Prod.snd).map
          fun entry => .clipboard entry.1.1 entry.1.2 := by
  refine ⟨fun σ α send connection payloads => ⟨?_, ?_, ?_⟩, fun quinn kept streams => ⟨?_, ?_, ?_⟩, ?_⟩
  · exact runClipboardSender_handed send connection payloads
  · exact runClipboardSender_ends send connection payloads
  · exact fun i data sent handed => runClipboardSender_answers send connection payloads i handed
  · exact fun stream message => BulkStream.message_eq_some
  · exact bulkPump_delivered kept streams
  · exact fun grown more grows => bulkPump_grows grows kept more
  · intro quinn network broken payloads unread
    obtain ⟨streams, opened, delivered⟩ := runClipboardSender_delivered network unread payloads 0 []
    rw [opened, List.nil_append, delivered]

/-- The peer opens a stream and sends nothing on it; what it sends on the next does not get through. -/
theorem stream_holds_up :
    ¬ ∀ (quinn : Quinn) (streams : List (BulkStream quinn)),
      bulkPump (fun _ => true) streams = streams.filterMap BulkStream.message := by
  intro through
  let quinn : Quinn := ⟨Unit, Unit, Unit⟩
  have addressable : (ClipboardData.text "hi").Addressable := ClipboardData.addressable_of_valid rfl
  have within := clipboard_within rfl addressable
  let sent : BulkStream quinn := ⟨frame (put (Message.clipboard (.text "hi") addressable)), some none⟩
  have whole := decode_put (Message.clipboard (.text "hi") addressable) []
  rw [List.append_nil] at whole
  have carries : sent.Carries (.clipboard (.text "hi") addressable) :=
    ⟨_, [], (List.append_nil _).symm, within, whole⟩
  have held := through quinn [⟨[], none⟩, sent]
  rw [List.filterMap_cons_none rfl, List.filterMap_cons_some (BulkStream.message_eq_some.mpr carries)] at held
  cases held

end Omnipresent
