import Omnipresent.Protocol.Ids

/-! The text form of a fingerprint, as the trust file stores it, and reading it
back. Texts are read byte by byte, as the source reads them. -/
namespace Omnipresent

/-- `{byte:02x}`. -/
def byteHex (byte : UInt8) : List Char :=
  [Nat.digitChar (byte.toNat / 16), Nat.digitChar (byte.toNat % 16)]

/-- Lowercase hex, the form shown to users and pinned in the trust store. -/
def Fingerprint.display (fingerprint : Fingerprint) : String :=
  String.ofList (fingerprint.bytes.flatMap byteHex)

def fingerprintHex (fingerprint : Fingerprint) : String := fingerprint.display

def hexDigit (byte : UInt8) : Option Nat :=
  if 48 ≤ byte.toNat ∧ byte.toNat ≤ 57 then some (byte.toNat - 48)
  else if 97 ≤ byte.toNat ∧ byte.toNat ≤ 102 then some (byte.toNat - 87)
  else if 65 ≤ byte.toNat ∧ byte.toNat ≤ 70 then some (byte.toNat - 55)
  else none

/-- `u8::from_str_radix(_, 16)`: a leading `+` is accepted, a lone sign or a
leading `-` is not, and a value past 255 overflows. -/
def fromStrRadix16 (src : List UInt8) : Option UInt8 :=
  match src with
  | [] | [43] | [45] => none
  | first :: rest =>
    let digits := if first = 43 then rest else src
    (digits.foldlM (fun acc byte => do
      let digit ← hexDigit byte
      if acc * 16 + digit < 256 then some (acc * 16 + digit) else none) 0).map UInt8.ofNat

/-- The bytes named by the text, two characters at a time. A pair that is not
UTF-8 has a byte past 127, which is no digit either. -/
def parseChunks : List UInt8 → Option (List UInt8)
  | [] => some []
  | [a] => do
    let byte ← fromStrRadix16 [a]
    some [byte]
  | a :: b :: rest => do
    let byte ← fromStrRadix16 [a, b]
    let bytes ← parseChunks rest
    some (byte :: bytes)

def parseFingerprint (hex : String) : Option Fingerprint :=
  if hex.utf8ByteSize ≠ 64 then none
  else (parseChunks hex.toUTF8.data.toList).bind fun bytes =>
    if length_eq : bytes.length = 32 then some ⟨bytes, length_eq⟩ else none

def byteText (byte : UInt8) : List UInt8 := (byteHex byte).flatMap String.utf8EncodeChar

theorem byteText_length (byte : UInt8) : (byteText byte).length = 2 := by
  have every : ∀ n : Fin 256, (byteText (UInt8.ofNat n)).length = 2 := by decide +kernel
  simpa using every ⟨byte.toNat, byte.toNat_lt⟩

theorem fromStrRadix16_byteText (byte : UInt8) : fromStrRadix16 (byteText byte) = some byte := by
  have every : ∀ n : Fin 256, fromStrRadix16 (byteText (UInt8.ofNat n)) = some (UInt8.ofNat n) := by
    decide +kernel
  simpa using every ⟨byte.toNat, byte.toNat_lt⟩

theorem parseChunks_text (bytes : List UInt8) :
    parseChunks (bytes.flatMap byteText) = some bytes := by
  induction bytes with
  | nil => rfl
  | cons byte rest ih =>
    obtain ⟨a, b, text⟩ := List.length_eq_two.mp (byteText_length byte)
    have read := fromStrRadix16_byteText byte
    rw [text] at read
    simp only [List.flatMap_cons, text, List.cons_append, List.nil_append, parseChunks, read, ih,
      Option.bind_eq_bind, Option.bind_some]

theorem display_bytes (fingerprint : Fingerprint) :
    fingerprint.display.toUTF8.data.toList = fingerprint.bytes.flatMap byteText := by
  have encoded : ∀ bytes : List UInt8,
      (bytes.flatMap byteHex).flatMap String.utf8EncodeChar = bytes.flatMap byteText :=
    fun bytes => List.flatMap_assoc
  rw [Fingerprint.display, String.toUTF8, String.toByteArray_ofList, List.utf8Encode,
    List.toList_data_toByteArray, encoded]

/-- Reading back what was written, for any 32 bytes. -/
theorem parseFingerprint_display (fingerprint : Fingerprint) :
    parseFingerprint fingerprint.display = some fingerprint := by
  have size : fingerprint.display.utf8ByteSize = 64 := by
    have counted : ∀ bytes : List UInt8, (bytes.flatMap byteText).length = 2 * bytes.length := by
      intro bytes
      induction bytes with
      | nil => rfl
      | cons byte rest ih =>
        simp only [List.flatMap_cons, List.length_append, byteText_length, ih, List.length_cons]
        omega
    have bytes := congrArg List.length (display_bytes fingerprint)
    rw [counted, fingerprint.length_eq, Array.length_toList] at bytes
    exact bytes
  rw [parseFingerprint, if_neg (not_not.mpr size), display_bytes, parseChunks_text,
    Option.bind_some, dif_pos fingerprint.length_eq]

theorem display_injective {a b : Fingerprint} (same : a.display = b.display) : a = b := by
  have read := congrArg parseFingerprint same
  rw [parseFingerprint_display, parseFingerprint_display] at read
  exact Option.some.inj read

end Omnipresent
