import Omnipresent.Trust.Fingerprint

/-! Which texts are read as a fingerprint. The length is counted in bytes and the digits are
left to the standard library, two at a time, which takes a plus sign for the first of them. -/
namespace Omnipresent

/-- 64 ASCII hexadecimal digits, of either case. -/
structure FingerprintText (s : String) : Prop where
  length : s.toList.length = 64
  digits : ∀ c ∈ s.toList, c.isHexDigit = true

/-- 64 characters of which each pair is two digits or a plus sign and a digit, and one is. -/
structure SignedText (s : String) : Prop where
  length : s.toList.length = 64
  pairs : ∀ i c, s.toList[i]? = some c → c.isHexDigit = true ∨ i % 2 = 0 ∧ c = '+'
  signed : '+' ∈ s.toList

theorem hexDigit_lt (read : hexDigit byte = some n) : n < 16 ∧ byte.toNat < 128 := by
  rw [hexDigit] at read
  split at read
  · cases read
    omega
  · split at read
    · cases read
      omega
    · split at read
      · cases read
        omega
      · cases read

/-- Two digits are a byte; a plus sign before one digit is that digit. -/
theorem fromStrRadix16_pair (a b : UInt8) : fromStrRadix16 [a, b] =
    if a = 43 then (hexDigit b).map UInt8.ofNat
    else (hexDigit a).bind fun high => (hexDigit b).map fun low => UInt8.ofNat (high * 16 + low) := by
  by_cases plus : a = 43
  · subst plus
    cases low : hexDigit b with
    | none => simp [fromStrRadix16, low]
    | some n =>
      have small := (hexDigit_lt low).1
      simp [fromStrRadix16, low, show n < 256 by omega]
  · cases high : hexDigit a with
    | none => simp [fromStrRadix16, plus, high]
    | some m =>
      have small := (hexDigit_lt high).1
      cases low : hexDigit b with
      | none => simp [fromStrRadix16, plus, high, low]
      | some n =>
        have small' := (hexDigit_lt low).1
        simp [fromStrRadix16, plus, high, low, show m < 256 by omega, show m * 16 + n < 256 by omega]

theorem fromStrRadix16_isSome {a b : UInt8} : (fromStrRadix16 [a, b]).isSome = true ↔
    ((hexDigit a).isSome = true ∨ a = 43) ∧ (hexDigit b).isSome = true := by
  rw [fromStrRadix16_pair]
  by_cases plus : a = 43
  · simp [plus]
  · cases hexDigit a <;> simp [plus]

theorem parseChunks_pair (a b : UInt8) (rest : List UInt8) : parseChunks (a :: b :: rest) =
    (fromStrRadix16 [a, b]).bind fun byte => (parseChunks rest).map (byte :: ·) := by
  rw [parseChunks]
  cases fromStrRadix16 [a, b] with
  | none => rfl
  | some byte => cases parseChunks rest <;> rfl

theorem exists_pair {pairs : List UInt8} (even : pairs.length = 2 * (n + 1)) :
    ∃ a b rest, pairs = a :: b :: rest ∧ rest.length = 2 * n := by
  rcases pairs with _ | ⟨a, _ | ⟨b, rest⟩⟩
  · rw [List.length_nil] at even
    omega
  · rw [List.length_singleton] at even
    omega
  · rw [List.length_cons, List.length_cons] at even
    exact ⟨a, b, rest, rfl, by omega⟩

/-- Pairs are read one by one: in the first place of each stands a digit or a plus sign, in
the second a digit. -/
theorem parseChunks_isSome (pairs : List UInt8) (even : pairs.length = 2 * n) :
    (parseChunks pairs).isSome = true ↔
      ∀ i byte, pairs[i]? = some byte → (hexDigit byte).isSome = true ∨ i % 2 = 0 ∧ byte = 43 := by
  induction n generalizing pairs with
  | zero =>
    rw [List.eq_nil_of_length_eq_zero even]
    simp [parseChunks]
  | succ n ih =>
    obtain ⟨a, b, rest, rfl, shorter⟩ := exists_pair even
    have both : (parseChunks (a :: b :: rest)).isSome = true ↔
        (fromStrRadix16 [a, b]).isSome = true ∧ (parseChunks rest).isSome = true := by
      rw [parseChunks_pair]
      cases fromStrRadix16 [a, b] <;> simp
    rw [both, fromStrRadix16_isSome, ih rest shorter]
    constructor
    · rintro ⟨⟨first, second⟩, later⟩ i byte found
      rcases i with _ | _ | i
      · cases found
        exact first.imp_right fun plus => ⟨rfl, plus⟩
      · cases found
        exact .inl second
      · have parity : (i + 2) % 2 = i % 2 := Nat.add_mod_right i 2
        rw [parity]
        exact later i byte found
    · intro every
      refine ⟨⟨(every 0 a rfl).imp_right And.right, ?_⟩, fun i byte found => ?_⟩
      · rcases every 1 b rfl with digit | ⟨odd, _⟩
        · exact digit
        · cases odd
      · have parity : (i + 2) % 2 = i % 2 := Nat.add_mod_right i 2
        rw [← parity]
        exact every (i + 2) byte found

theorem parseChunks_length (even : pairs.length = 2 * n) (read : parseChunks pairs = some bytes) :
    bytes.length = n := by
  induction n generalizing pairs bytes with
  | zero =>
    rw [List.eq_nil_of_length_eq_zero even] at read
    cases read
    rfl
  | succ n ih =>
    obtain ⟨a, b, rest, rfl, shorter⟩ := exists_pair even
    rw [parseChunks_pair] at read
    obtain ⟨byte, _, later, readLater, rfl⟩ : ∃ byte, fromStrRadix16 [a, b] = some byte ∧
        ∃ later, parseChunks rest = some later ∧ byte :: later = bytes := by
      simpa only [Option.bind_eq_some_iff, Option.map_eq_some_iff] using read
    rw [List.length_cons, ih shorter readLater]

/-- The letter a digit is written with is its lower-case form. -/
theorem hexDigit_digitChar (read : hexDigit byte = some n) :
    Nat.digitChar n = (Char.ofNat byte.toNat).toLower := by
  have every : ∀ n : Fin 256, ∀ digit ∈ hexDigit (UInt8.ofNat n), Nat.digitChar digit =
      (Char.ofNat (UInt8.ofNat n).toNat).toLower := by decide +kernel
  simpa using every ⟨byte.toNat, byte.toNat_lt⟩ n (by simpa using read)

theorem byteHex_digits (high : m < 16) (low : n < 16) :
    byteHex (UInt8.ofNat (m * 16 + n)) = [Nat.digitChar m, Nat.digitChar n] := by
  rw [byteHex, UInt8.toNat_ofNat', Nat.mod_eq_of_lt (show m * 16 + n < 2 ^ 8 by omega),
    show (m * 16 + n) / 16 = m by omega, show (m * 16 + n) % 16 = n by omega]

/-- Where every character is a digit, the bytes read are written as the text lower-cased. -/
theorem parseChunks_lower (even : pairs.length = 2 * n) (digits : ∀ byte ∈ pairs, (hexDigit byte).isSome = true)
    (read : parseChunks pairs = some bytes) :
    bytes.flatMap byteHex = pairs.map fun byte => (Char.ofNat byte.toNat).toLower := by
  induction n generalizing pairs bytes with
  | zero =>
    rw [List.eq_nil_of_length_eq_zero even] at read ⊢
    cases read
    rfl
  | succ n ih =>
    obtain ⟨a, b, rest, rfl, shorter⟩ := exists_pair even
    obtain ⟨high, isHigh⟩ := Option.isSome_iff_exists.mp (digits a (by simp))
    obtain ⟨low, isLow⟩ := Option.isSome_iff_exists.mp (digits b (by simp))
    have unsigned : a ≠ 43 := by
      rintro rfl
      cases isHigh
    rw [parseChunks_pair, fromStrRadix16_pair, if_neg unsigned, isHigh, isLow] at read
    obtain ⟨later, readLater, rfl⟩ : ∃ later, parseChunks rest = some later ∧
        UInt8.ofNat (high * 16 + low) :: later = bytes := by
      simpa using read
    have later := ih shorter (fun byte listed => digits byte (by simp [listed])) readLater
    rw [List.flatMap_cons, byteHex_digits (hexDigit_lt isHigh).1 (hexDigit_lt isLow).1, later,
      hexDigit_digitChar isHigh, hexDigit_digitChar isLow]
    rfl

theorem utf8EncodeChar_ascii (c : Char) (ascii : c.toNat < 128) :
    String.utf8EncodeChar c = [UInt8.ofNat c.toNat] := by
  simp only [String.utf8EncodeChar]
  rw [if_pos]
  · rfl
  · exact Nat.lt_succ_iff.mp ascii

theorem utf8EncodeChar_wide (c : Char) (wide : 128 ≤ c.toNat) :
    ∃ byte ∈ String.utf8EncodeChar c, 128 ≤ byte.toNat := by
  simp only [String.utf8EncodeChar]
  rw [if_neg (show ¬ c.val.toNat ≤ 0x7f from Nat.not_le.mpr wide)]
  split
  · exact ⟨_, List.mem_cons_self, by rw [UInt8.toNat_ofNat']; omega⟩
  · split
    · exact ⟨_, List.mem_cons_self, by rw [UInt8.toNat_ofNat']; omega⟩
    · exact ⟨_, List.mem_cons_self, by rw [UInt8.toNat_ofNat']; omega⟩

theorem toUTF8_bytes (s : String) : s.toUTF8.data.toList = s.toList.flatMap String.utf8EncodeChar := by
  conv_lhs => rw [← String.ofList_toList (s := s)]
  rw [String.toUTF8, String.toByteArray_ofList, List.utf8Encode, List.toList_data_toByteArray]

theorem ascii_bytes (cs : List Char) (ascii : ∀ c ∈ cs, c.toNat < 128) :
    cs.flatMap String.utf8EncodeChar = cs.map fun c => UInt8.ofNat c.toNat := by
  induction cs with
  | nil => rfl
  | cons c rest ih =>
    rw [List.flatMap_cons, utf8EncodeChar_ascii c (ascii c List.mem_cons_self),
      ih fun c listed => ascii c (List.mem_cons_of_mem _ listed)]
    rfl

theorem hexDigit_ascii (c : Char) (ascii : c.toNat < 128) :
    (hexDigit (UInt8.ofNat c.toNat)).isSome = c.isHexDigit := by
  have every : ∀ n : Fin 128, (hexDigit (UInt8.ofNat n)).isSome = (Char.ofNat n).isHexDigit := by decide +kernel
  simpa using every ⟨c.toNat, ascii⟩

theorem plus_ascii (c : Char) (ascii : c.toNat < 128) : UInt8.ofNat c.toNat = 43 ↔ c = '+' := by
  have every : ∀ n : Fin 128, UInt8.ofNat n = 43 ↔ Char.ofNat n = '+' := by decide +kernel
  simpa using every ⟨c.toNat, ascii⟩

theorem isHexDigit_ascii {c : Char} (digit : c.isHexDigit = true) : c.toNat < 128 := by
  simp only [Char.isHexDigit, Char.isDigit, ge_iff_le, Bool.or_eq_true, Bool.and_eq_true, decide_eq_true_eq,
    UInt32.le_iff_toNat_le] at digit
  have digits : c.val.toNat ≤ 57 ∨ c.val.toNat ≤ 102 ∨ c.val.toNat ≤ 70 := by
    rcases digit with (⟨_, upper⟩ | ⟨_, upper⟩) | ⟨_, upper⟩
    · exact .inl upper
    · exact .inr (.inl upper)
    · exact .inr (.inr upper)
  rw [Char.toNat]
  omega

/-- What may stand in a pair, as a byte and as the character it is. -/
theorem pairs_ascii (cs : List Char) (ascii : ∀ c ∈ cs, c.toNat < 128) :
    (∀ i byte, (cs.map fun c => UInt8.ofNat c.toNat)[i]? = some byte →
      (hexDigit byte).isSome = true ∨ i % 2 = 0 ∧ byte = 43) ↔
    ∀ i c, cs[i]? = some c → c.isHexDigit = true ∨ i % 2 = 0 ∧ c = '+' := by
  have same : ∀ i c, cs[i]? = some c →
      ((hexDigit (UInt8.ofNat c.toNat)).isSome = true ∨ i % 2 = 0 ∧ UInt8.ofNat c.toNat = 43 ↔
        c.isHexDigit = true ∨ i % 2 = 0 ∧ c = '+') := by
    intro i c found
    have narrow := ascii c (List.mem_of_getElem? found)
    rw [hexDigit_ascii c narrow, plus_ascii c narrow]
  simp only [List.getElem?_map, Option.map_eq_some_iff]
  constructor
  · intro pairs i c found
    exact (same i c found).mp (pairs i _ ⟨c, found, rfl⟩)
  · rintro pairs i byte ⟨c, found, rfl⟩
    exact (same i c found).mpr (pairs i c found)

theorem utf8ByteSize_eq (s : String) : s.utf8ByteSize = s.toUTF8.data.toList.length := by
  rw [Array.length_toList]
  rfl

theorem parseFingerprint_ascii (read : (parseFingerprint s).isSome = true) : ∀ c ∈ s.toList, c.toNat < 128 := by
  intro c listed
  by_contra wide
  obtain ⟨byte, inside, high⟩ := utf8EncodeChar_wide c (Nat.not_lt.mp wide)
  have present : byte ∈ s.toUTF8.data.toList := by
    rw [toUTF8_bytes, List.mem_flatMap]
    exact ⟨c, listed, inside⟩
  obtain ⟨i, found⟩ := List.mem_iff_getElem?.mp present
  rw [parseFingerprint, utf8ByteSize_eq] at read
  by_cases size : s.toUTF8.data.toList.length = 64
  · rw [if_neg (not_not_intro size)] at read
    obtain ⟨fingerprint, result⟩ := Option.isSome_iff_exists.mp read
    obtain ⟨bytes, chunks, _⟩ := Option.bind_eq_some_iff.mp result
    rcases (parseChunks_isSome (n := 32) _ size).mp (Option.isSome_iff_exists.mpr ⟨bytes, chunks⟩) i byte found with
      digit | ⟨_, plus⟩
    · obtain ⟨n, value⟩ := Option.isSome_iff_exists.mp digit
      have small := (hexDigit_lt value).2
      omega
    · rw [plus] at high
      exact absurd high (by decide)
  · rw [if_pos size] at read
    cases read

theorem pairs_narrow {cs : List Char}
    (pairs : ∀ i c, cs[i]? = some c → c.isHexDigit = true ∨ i % 2 = 0 ∧ c = '+') : ∀ c ∈ cs, c.toNat < 128 := by
  intro c listed
  obtain ⟨i, found⟩ := List.mem_iff_getElem?.mp listed
  rcases pairs i c found with digit | ⟨_, rfl⟩
  · exact isHexDigit_ascii digit
  · decide

theorem parseFingerprint_chars (s : String) (ascii : ∀ c ∈ s.toList, c.toNat < 128) :
    parseFingerprint s = if s.toList.length ≠ 64 then none
      else (parseChunks (s.toList.map fun c => UInt8.ofNat c.toNat)).bind fun bytes =>
        if length_eq : bytes.length = 32 then some ⟨bytes, length_eq⟩ else none := by
  rw [parseFingerprint, utf8ByteSize_eq, toUTF8_bytes, ascii_bytes s.toList ascii, List.length_map]

/-- What is read: 64 characters, each pair of them two digits or a plus sign and a digit. -/
theorem parseFingerprint_isSome (s : String) : (parseFingerprint s).isSome = true ↔
    s.toList.length = 64 ∧ ∀ i c, s.toList[i]? = some c → c.isHexDigit = true ∨ i % 2 = 0 ∧ c = '+' := by
  have narrow : (∀ c ∈ s.toList, c.toNat < 128) → ((parseFingerprint s).isSome = true ↔
      s.toList.length = 64 ∧ ∀ i c, s.toList[i]? = some c → c.isHexDigit = true ∨ i % 2 = 0 ∧ c = '+') := by
    intro ascii
    rw [parseFingerprint_chars s ascii, ← pairs_ascii s.toList ascii]
    by_cases size : s.toList.length = 64
    · have even : (s.toList.map fun c => UInt8.ofNat c.toNat).length = 2 * 32 := by rw [List.length_map, size]
      rw [if_neg (not_not_intro size), ← parseChunks_isSome _ even, and_iff_right size]
      cases read : parseChunks (s.toList.map fun c => UInt8.ofNat c.toNat) with
      | none => simp
      | some bytes => simp [parseChunks_length even read]
    · simp [size]
  exact ⟨fun read => (narrow (parseFingerprint_ascii read)).mp read,
    fun pairs => (narrow (pairs_narrow pairs.2)).mpr pairs⟩

theorem display_lower (text : FingerprintText s) (read : parseFingerprint s = some fingerprint) :
    fingerprint.display = s.toLower := by
  have ascii : ∀ c ∈ s.toList, c.toNat < 128 := fun c listed => isHexDigit_ascii (text.digits c listed)
  have even : (s.toList.map fun c => UInt8.ofNat c.toNat).length = 2 * 32 := by rw [List.length_map, text.length]
  have digits : ∀ byte ∈ s.toList.map fun c => UInt8.ofNat c.toNat, (hexDigit byte).isSome = true := by
    intro byte listed
    obtain ⟨c, member, rfl⟩ := List.mem_map.mp listed
    rw [hexDigit_ascii c (ascii c member)]
    exact text.digits c member
  have same : (s.toList.map fun c => UInt8.ofNat c.toNat).map (fun byte => (Char.ofNat byte.toNat).toLower) =
      s.toList.map Char.toLower := by
    rw [List.map_map]
    refine List.map_congr_left fun c listed => ?_
    have small := ascii c listed
    rw [Function.comp_apply, UInt8.toNat_ofNat', Nat.mod_eq_of_lt (show c.toNat < 2 ^ 8 by omega), Char.ofNat_toNat]
  rw [parseFingerprint_chars s ascii, if_neg (not_not_intro text.length)] at read
  obtain ⟨bytes, chunks, built⟩ := Option.bind_eq_some_iff.mp read
  rw [dif_pos (parseChunks_length even chunks)] at built
  cases built
  have lower : s.toLower = s.map Char.toLower := rfl
  rw [Fingerprint.display, parseChunks_lower even digits chunks, same, lower, ← String.toList_map,
    String.ofList_toList]

/-- The texts read are the 64-digit ones, each as the fingerprint shown by it in lower case,
but for those with a plus sign; and what a fingerprint is shown by is read as it. -/
theorem parseFingerprint_format_iff (s : String) :
    ((((parseFingerprint s).isSome = true ↔ FingerprintText s) ∧
      ∀ fingerprint, parseFingerprint s = some fingerprint → fingerprint.display = s.toLower) ↔ ¬ SignedText s) ∧
    ∀ fingerprint : Fingerprint, parseFingerprint fingerprint.display = some fingerprint := by
  refine ⟨?_, parseFingerprint_display⟩
  constructor
  · rintro ⟨format, _⟩ text
    have read := (parseFingerprint_isSome s).mpr ⟨text.length, text.pairs⟩
    exact absurd ((format.mp read).digits '+' text.signed) (by decide)
  · intro unsigned
    have format : (parseFingerprint s).isSome = true ↔ FingerprintText s := by
      rw [parseFingerprint_isSome]
      constructor
      · rintro ⟨length, pairs⟩
        refine ⟨length, fun c listed => ?_⟩
        obtain ⟨i, found⟩ := List.mem_iff_getElem?.mp listed
        rcases pairs i c found with digit | ⟨_, rfl⟩
        · exact digit
        · exact absurd ⟨length, pairs, listed⟩ unsigned
      · intro text
        exact ⟨text.length, fun i c found => .inl (text.digits c (List.mem_of_getElem? found))⟩
    refine ⟨format, fun fingerprint read => display_lower (format.mp ?_) read⟩
    rw [read]
    rfl

/-- A plus sign before each of 32 digits is a fingerprint of small bytes, shown otherwise. -/
theorem parseFingerprint_signed :
    parseFingerprint (String.ofList (List.replicate 32 ['+', '7']).flatten) = some (.filled 7) ∧
    ¬ FingerprintText (String.ofList (List.replicate 32 ['+', '7']).flatten) ∧
    (Fingerprint.filled 7).display ≠ (String.ofList (List.replicate 32 ['+', '7']).flatten).toLower := by
  refine ⟨by decide +kernel, fun text => ?_, by decide +kernel⟩
  exact absurd (text.digits '+' (by decide +kernel)) (by decide)

end Omnipresent
