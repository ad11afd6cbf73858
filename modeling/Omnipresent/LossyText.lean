import Mathlib.Algebra.Group.Nat.Defs
import Mathlib.Data.List.Basic

/-! Text read from bytes that need not be UTF-8, and its lines. A sequence of bytes that no
character begins with is read as one replacement character. No byte of a longer character
ends a line, so each line is read as it would be alone. -/
namespace Omnipresent.LossyText

/-- A character begun: the value of its bytes so far, the range of the next one, and how
many come after that. -/
structure Pending where
  value : Nat
  low : Nat
  high : Nat
  more : Nat
  continues : 0x80 ≤ low
  above : 0x80 ≤ (value * 64 + (low - 0x80)) * 64 ^ more

/-- The first byte of a character of several. Overlong forms, surrogates and values past the
last one are kept out by the range of the second byte. -/
def first (byte : Nat) : Option Pending :=
  if two : 0xC2 ≤ byte ∧ byte ≤ 0xDF then some ⟨byte - 0xC0, 0x80, 0xBF, 0, by omega, by omega⟩
  else if byte = 0xE0 then some ⟨0, 0xA0, 0xBF, 1, by omega, by omega⟩
  else if byte = 0xED then some ⟨0xD, 0x80, 0x9F, 1, by omega, by omega⟩
  else if three : 0xE1 ≤ byte ∧ byte ≤ 0xEF then some ⟨byte - 0xE0, 0x80, 0xBF, 1, by omega, by omega⟩
  else if byte = 0xF0 then some ⟨0, 0x90, 0xBF, 2, by omega, by omega⟩
  else if four : 0xF1 ≤ byte ∧ byte ≤ 0xF3 then some ⟨byte - 0xF0, 0x80, 0xBF, 2, by omega, by omega⟩
  else if byte = 0xF4 then some ⟨4, 0x80, 0x8F, 2, by omega, by omega⟩
  else none

def replacement : Char := '\uFFFD'

/-- A byte where no character is begun: what it begins, and what is read of it. -/
def start (byte : Nat) : Option Pending × List Char :=
  if byte < 0x80 then (none, [Char.ofNat byte])
  else
    match first byte with
    | some pending => (some pending, [])
    | none => (none, [replacement])

/-- The value with one more byte is no less than with the least that may come. -/
theorem Pending.next_above (pending : Pending) (fits : pending.low ≤ byte) :
    0x80 ≤ (pending.value * 64 + (byte - 0x80)) * 64 ^ pending.more :=
  Nat.le_trans pending.above (Nat.mul_le_mul_right _ (by omega))

/-- A byte that may come next in a character. -/
def Pending.next (pending : Pending) (byte : Nat) (fits : pending.low ≤ byte) : Option Pending × List Char :=
  match left : pending.more with
  | 0 => (none, [Char.ofNat (pending.value * 64 + (byte - 0x80))])
  | more + 1 =>
    (some ⟨pending.value * 64 + (byte - 0x80), 0x80, 0xBF, more, by omega, by
      have above := pending.next_above fits
      rw [left, pow_succ] at above
      rw [Nat.sub_self, Nat.add_zero, Nat.mul_assoc, Nat.mul_comm 64]
      exact above⟩, [])

def step : Option Pending → Nat → Option Pending × List Char
  | none, byte => start byte
  | some pending, byte =>
    if fits : pending.low ≤ byte ∧ byte ≤ pending.high then pending.next byte fits.1
    else ((start byte).1, replacement :: (start byte).2)

def decodeFrom : Option Pending → List UInt8 → List Char
  | none, [] => []
  | some _, [] => [replacement]
  | pending, byte :: bytes =>
    (step pending byte.toNat).2 ++ decodeFrom (step pending byte.toNat).1 bytes

/-- `String::from_utf8_lossy`. -/
def fromUtf8Lossy (bytes : List UInt8) : List Char := decodeFrom none bytes

/-- The byte that ends a line. -/
def newline : UInt8 := 10

theorem Pending.next_newline (pending : Pending) :
    ¬ (pending.low ≤ newline.toNat ∧ newline.toNat ≤ pending.high) := by
  rintro ⟨fits, _⟩
  have continues := pending.continues
  rw [show newline.toNat = 10 from rfl] at fits
  omega

/-- The end of a line breaks off a character begun, as the end of the bytes does. -/
theorem step_newline (pending : Option Pending) :
    step pending newline.toNat = (none, decodeFrom pending [] ++ ['\n']) := by
  cases pending with
  | none => rfl
  | some pending =>
    rw [step, dif_neg pending.next_newline]
    rfl

theorem toNat_ofNat (valid : value.isValidChar) : (Char.ofNat value).toNat = value := by
  rw [Char.ofNat, dif_pos valid]
  rfl

theorem ofNat_ne_newline (large : 0x80 ≤ value) : Char.ofNat value ≠ '\n' := by
  intro same
  by_cases valid : value.isValidChar
  · have number := toNat_ofNat valid
    rw [same] at number
    rw [← number] at large
    exact absurd large (by decide)
  · rw [Char.ofNat, dif_neg valid] at same
    exact absurd same (by decide)

theorem start_ne_newline (other : byte ≠ newline.toNat) : '\n' ∉ (start byte).2 := by
  rw [start]
  split
  · rename_i ascii
    intro member
    have number : (Char.ofNat byte).toNat = byte := toNat_ofNat (.inl (by omega))
    rw [← List.mem_singleton.mp member] at number
    exact other number.symm
  · cases first byte with
    | none => decide
    | some => exact List.not_mem_nil

theorem Pending.next_ne_newline (pending : Pending) (fits : pending.low ≤ byte) :
    '\n' ∉ (pending.next byte fits).2 := by
  rw [next.eq_def]
  split
  · rename_i last
    have above := pending.next_above fits
    rw [last, Nat.pow_zero, Nat.mul_one] at above
    exact fun member => ofNat_ne_newline above (List.mem_singleton.mp member).symm
  · exact List.not_mem_nil

theorem step_ne_newline (pending : Option Pending) (other : byte ≠ newline.toNat) :
    '\n' ∉ (step pending byte).2 := by
  cases pending with
  | none => exact start_ne_newline other
  | some pending =>
    rw [step]
    split
    · exact pending.next_ne_newline _
    · exact List.not_mem_cons_of_ne_of_not_mem (by decide) (start_ne_newline other)

theorem decodeFrom_cons (pending : Option Pending) (byte : UInt8) (bytes : List UInt8) :
    decodeFrom pending (byte :: bytes) =
      (step pending byte.toNat).2 ++ decodeFrom (step pending byte.toNat).1 bytes := by
  rw [decodeFrom]

/-- Bytes that end no line are read as text that ends none. -/
theorem decodeFrom_ne_newline (pending : Option Pending) (unended : newline ∉ bytes) :
    '\n' ∉ decodeFrom pending bytes := by
  induction bytes generalizing pending with
  | nil =>
    cases pending with
    | none => exact List.not_mem_nil
    | some pending => exact fun member => absurd (List.mem_singleton.mp member) (by decide)
  | cons byte bytes ih =>
    have other : byte.toNat ≠ newline.toNat := fun same =>
      List.ne_of_not_mem_cons unended (UInt8.toNat_inj.mp same.symm)
    rw [decodeFrom_cons]
    exact List.not_mem_append (step_ne_newline pending other) (ih _ (List.not_mem_of_not_mem_cons unended))

/-- What stands before the end of a line is read as it would be at the end of the bytes, and
what stands after it as at their beginning. -/
theorem decodeFrom_newline (pending : Option Pending) (bytes rest : List UInt8) :
    decodeFrom pending (bytes ++ newline :: rest) = decodeFrom pending bytes ++ '\n' :: fromUtf8Lossy rest := by
  induction bytes generalizing pending with
  | nil =>
    rw [List.nil_append, decodeFrom_cons, step_newline, List.append_assoc]
    rfl
  | cons byte bytes ih => rw [List.cons_append, decodeFrom_cons, ih, decodeFrom_cons, List.append_assoc]

example : fromUtf8Lossy [0xC3, 0xA9, 0xE2, 0x82, newline, 0x80] = ['é', replacement, '\n', replacement] := by decide

theorem decodeFrom_pending (pending : Pending) (bytes : List UInt8) : decodeFrom (some pending) bytes ≠ [] := by
  induction bytes generalizing pending with
  | nil => exact List.cons_ne_nil _ _
  | cons byte bytes ih =>
    rw [decodeFrom_cons, step]
    split
    · rename_i fits
      rw [Pending.next.eq_def]
      split
      · exact List.cons_ne_nil _ _
      · exact ih _
    · exact List.cons_ne_nil _ _

theorem fromUtf8Lossy_ne_nil (bytes : List UInt8) (byte : UInt8) : fromUtf8Lossy (byte :: bytes) ≠ [] := by
  rw [fromUtf8Lossy, decodeFrom_cons, step, start]
  split
  · exact List.cons_ne_nil _ _
  · cases first byte.toNat with
    | none => exact List.cons_ne_nil _ _
    | some pending => exact decodeFrom_pending pending bytes

section Pieces
variable {α : Type} [DecidableEq α]

/-- `split_inclusive`: the pieces that end with the separator, and what is left after the
last of them. -/
def splitInclusive (separator : α) : List α → List (List α)
  | [] => []
  | a :: rest =>
    if a = separator then [a] :: splitInclusive separator rest
    else
      match splitInclusive separator rest with
      | [] => [[a]]
      | piece :: pieces => (a :: piece) :: pieces

theorem splitInclusive_separator (separator : α) (unended : separator ∉ line) (rest : List α) :
    splitInclusive separator (line ++ separator :: rest) =
      (line ++ [separator]) :: splitInclusive separator rest := by
  induction line with
  | nil => rw [List.nil_append, splitInclusive, if_pos rfl, List.nil_append]
  | cons a line ih =>
    have other := (List.ne_of_not_mem_cons unended).symm
    rw [List.cons_append, splitInclusive, if_neg other, ih (List.not_mem_of_not_mem_cons unended)]
    rfl

theorem splitInclusive_unended (separator : α) (some' : line ≠ []) (unended : separator ∉ line) :
    splitInclusive separator line = [line] := by
  induction line with
  | nil => exact absurd rfl some'
  | cons a line ih =>
    have other := (List.ne_of_not_mem_cons unended).symm
    rw [splitInclusive, if_neg other]
    cases line with
    | nil => rfl
    | cons b line => rw [ih (List.cons_ne_nil _ _) (List.not_mem_of_not_mem_cons unended)]

theorem splitInclusive_first (separator : α) (pieces : splitInclusive separator rest = piece :: others) :
    splitInclusive separator piece = [piece] := by
  induction rest generalizing piece others with
  | nil => cases pieces
  | cons a rest ih =>
    rw [splitInclusive] at pieces
    split at pieces
    · rename_i same
      cases pieces
      rw [splitInclusive, if_pos same, splitInclusive]
    · rename_i other
      cases split : splitInclusive separator rest with
      | nil =>
        rw [split] at pieces
        cases pieces
        rw [splitInclusive, if_neg other, splitInclusive]
      | cons next others =>
        rw [split] at pieces
        cases pieces
        rw [splitInclusive, if_neg other, ih split]

theorem splitInclusive_ne_nil (separator : α) (some' : line ≠ []) : splitInclusive separator line ≠ [] := by
  cases line with
  | nil => exact absurd rfl some'
  | cons a rest =>
    rw [splitInclusive]
    split
    · exact List.cons_ne_nil _ _
    · split <;> exact List.cons_ne_nil _ _

/-- What comes first goes on the first piece of the rest, and leaves the others. -/
theorem splitInclusive_append (separator : α) (earlier : List α)
    (pieces : splitInclusive separator rest = piece :: others) :
    splitInclusive separator (earlier ++ rest) = splitInclusive separator (earlier ++ piece) ++ others := by
  have some' : piece ≠ [] := by
    rintro rfl
    cases splitInclusive_first separator pieces
  induction earlier with
  | nil =>
    rw [List.nil_append, List.nil_append, pieces, splitInclusive_first separator pieces, List.singleton_append]
  | cons a earlier ih =>
    rw [List.cons_append, List.cons_append, splitInclusive, splitInclusive, ih]
    split
    · rfl
    · cases split : splitInclusive separator (earlier ++ piece) with
      | nil =>
        have nonempty := List.append_ne_nil_of_right_ne_nil earlier some'
        exact absurd split (splitInclusive_ne_nil separator nonempty)
      | cons next more => rfl

/-- What comes first and is ended leaves the pieces of the rest as they are. -/
theorem splitInclusive_ended (separator : α) (ended : ∀ a ∈ earlier.getLast?, a = separator) (rest : List α) :
    splitInclusive separator (earlier ++ rest) =
      splitInclusive separator earlier ++ splitInclusive separator rest := by
  induction earlier with
  | nil => rfl
  | cons a earlier ih =>
    rw [List.cons_append, splitInclusive, splitInclusive]
    cases earlier with
    | nil =>
      obtain rfl := ended a rfl
      rw [if_pos rfl, if_pos rfl]
      rfl
    | cons b earlier =>
      rw [ih fun c last => ended c (by rwa [List.getLast?_cons_cons])]
      split
      · rfl
      · cases split : splitInclusive separator (b :: earlier) with
        | nil => exact absurd split (splitInclusive_ne_nil separator (List.cons_ne_nil _ _))
        | cons piece pieces => rfl

end Pieces

/-- The pieces of the text read are the pieces of the bytes, each read by itself. -/
theorem splitInclusive_fromUtf8Lossy (bytes : List UInt8) :
    splitInclusive '\n' (fromUtf8Lossy bytes) = (splitInclusive newline bytes).map fromUtf8Lossy := by
  induction size : bytes.length using Nat.strongRecOn generalizing bytes with
  | _ n ih =>
    by_cases ended : newline ∈ bytes
    · obtain ⟨line, rest, rfl, unended⟩ := List.eq_append_cons_of_mem ended
      have text := decodeFrom_ne_newline none unended
      have shorter : rest.length < n := by
        rw [← size, List.length_append, List.length_cons]
        omega
      have piece : fromUtf8Lossy (line ++ [newline]) = fromUtf8Lossy line ++ ['\n'] :=
        decodeFrom_newline none line []
      rw [fromUtf8Lossy, decodeFrom_newline, splitInclusive_separator _ text, splitInclusive_separator _ unended,
        List.map_cons, piece, ih _ shorter rest rfl]
      rfl
    · cases bytes with
      | nil => rfl
      | cons byte bytes =>
        rw [splitInclusive_unended _ (List.cons_ne_nil _ _) ended,
          splitInclusive_unended _ (fromUtf8Lossy_ne_nil bytes byte) (decodeFrom_ne_newline none ended)]
        rfl

/-- A piece without the end of its line: a line feed, or a carriage return and a line feed. -/
def stripEnding (piece : List Char) : List Char :=
  match piece.reverse with
  | '\n' :: '\r' :: rest => rest.reverse
  | '\n' :: rest => rest.reverse
  | _ => piece

/-- `str::lines`. -/
def lines (text : List Char) : List (List Char) := (splitInclusive '\n' text).map stripEnding

/-- A line by itself, read. -/
def lineText (piece : List UInt8) : List Char := stripEnding (fromUtf8Lossy piece)

theorem lines_fromUtf8Lossy (bytes : List UInt8) :
    lines (fromUtf8Lossy bytes) = (splitInclusive newline bytes).map lineText := by
  rw [lines, splitInclusive_fromUtf8Lossy, List.map_map]
  rfl

example : lines "a\r\nb\n\nc\r".toList = ["a".toList, "b".toList, [], "c\r".toList] := by decide

end Omnipresent.LossyText
