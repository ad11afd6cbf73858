import Omnipresent.Postcard.Varint

/-! What can be written in the postcard format: every type here comes with its bytes,
its reader, and the law that the reader gives back what was written and stops right
behind it. -/
namespace Omnipresent.Postcard

class Wire (α : Type) where
  put : α → List UInt8
  take : Take α
  take_put : ∀ a rest, take.run (put a ++ rest) = some (a, rest)

export Wire (put take take_put)

/-- `to_allocvec`, which only gives out on what is never derived: a sequence that does
not know its length. -/
def toAllocVec [Wire α] (a : α) : Option (List UInt8) := some (put a)

/-- `from_bytes`: a value off the front, whatever is left over. -/
def fromBytes [Wire α] (bytes : List UInt8) : Option α := (take.run bytes).map Prod.fst

theorem fromBytes_put [Wire α] (a : α) (rest : List UInt8) : fromBytes (put a ++ rest) = some a := by
  rw [fromBytes, take_put, Option.map_some]

/-- One field of several: what follows reads on behind it. -/
theorem run_take_bind [Wire α] (a : α) (rest : List UInt8) (next : α → Take β) :
    (take >>= next).run (put a ++ rest) = (next a).run rest := by
  rw [StateT.run_bind, take_put, Option.bind_eq_bind, Option.bind_some]

/-- A record of one field is written as that field is. -/
@[reducible]
def Wire.newtype [Wire α] (wrap : α → β) (value : β → α) (wrap_value : ∀ b, wrap (value b) = b) : Wire β where
  put b := put (value b)
  take := wrap <$> take
  take_put b rest := by
    rw [StateT.run_map, take_put, Option.map_eq_map, Option.map_some, wrap_value]

instance : Wire UInt8 where
  put byte := [byte]
  take := pop
  take_put := run_pop

instance : Wire UInt32 where
  put n := varint 32 n.toNat
  take := UInt32.ofNat <$> tryTakeVarint 32
  take_put n rest := by
    rw [StateT.run_map, tryTakeVarint_varint (by decide) n.toNat_lt, Option.map_eq_map, Option.map_some,
      UInt32.ofNat_toNat]

instance : Wire UInt64 where
  put n := varint 64 n.toNat
  take := UInt64.ofNat <$> tryTakeVarint 64
  take_put n rest := by
    rw [StateT.run_map, tryTakeVarint_varint (by decide) n.toNat_lt, Option.map_eq_map, Option.map_some,
      UInt64.ofNat_toNat]

theorem length_put_u32 (n : UInt32) : (put n).length ≤ 5 := length_varint_le 32 n.toNat

/-- A `u128`. -/
instance : Wire (BitVec 128) where
  put n := varint 128 n.toNat
  take := BitVec.ofNat 128 <$> tryTakeVarint 128
  take_put n rest := by
    rw [StateT.run_map, tryTakeVarint_varint (by decide) n.isLt, Option.map_eq_map, Option.map_some,
      BitVec.ofNat_toNat, BitVec.setWidth_eq]

instance : Wire Int32 where
  put n := put (zigZagI32 n)
  take := deZigZagI32 <$> take
  take_put n rest := by
    rw [StateT.run_map, take_put, Option.map_eq_map, Option.map_some, deZigZagI32_zigZagI32]

def takeMany [Wire α] : (count : Nat) → Take { l : List α // l.length = count }
  | 0 => pure ⟨[], rfl⟩
  | count + 1 => do
    let a ← take
    let l ← takeMany count
    pure ⟨a :: l.1, congrArg (· + 1) l.2⟩

theorem run_takeMany [Wire α] (l : List α) (length : l.length = count) (rest : List UInt8) :
    (takeMany count).run (l.flatMap put ++ rest) = some (⟨l, length⟩, rest) := by
  induction l generalizing count with
  | nil =>
    subst length
    rfl
  | cons a l ih =>
    subst length
    have first := run_take_bind a (l.flatMap put ++ rest) fun a => do
      let l' ← takeMany l.length
      pure (⟨a :: l'.1, congrArg (· + 1) l'.2⟩ : { l' : List α // l'.length = l.length + 1 })
    rw [List.flatMap_cons, List.append_assoc]
    refine first.trans ?_
    rw [StateT.run_bind, ih rfl]
    rfl

instance [Wire α] : Wire { l : List α // l.length = count } where
  put l := l.1.flatMap put
  take := takeMany count
  take_put l rest := run_takeMany l.1 l.2 rest

/-- A vector, behind its length, which is a 64-bit `usize`. -/
instance [Wire α] : Wire { l : List α // l.length < 2 ^ 64 } where
  put l := put (UInt64.ofNat l.1.length) ++ l.1.flatMap put
  take := do
    let count : UInt64 ← take
    let l ← takeMany count.toNat
    pure ⟨l.1, by rw [l.2]; exact count.toNat_lt⟩
  take_put l rest := by
    have length : l.1.length = (UInt64.ofNat l.1.length).toNat := (UInt64.toNat_ofNat_of_lt' l.2).symm
    rw [List.append_assoc, run_take_bind, StateT.run_bind, run_takeMany l.1 length, Option.bind_eq_bind,
      Option.bind_some]
    rfl

/-- Behind its length, a byte is a byte. -/
theorem length_put_bytes (bytes : { l : List UInt8 // l.length < 2 ^ 64 }) :
    (put bytes).length ≤ bytes.1.length + 10 := by
  have header := length_varint_le 64 (UInt64.ofNat bytes.1.length).toNat
  have body : bytes.1.flatMap (put : UInt8 → List UInt8) = bytes.1 := List.flatMap_singleton' _
  have ten : varintMax 64 = 10 := rfl
  change (varint 64 _ ++ bytes.1.flatMap put).length ≤ _
  rw [List.length_append, body]
  omega

theorem utf8ByteSize_fromUTF8 (bytes : List UInt8) (valid : bytes.toByteArray.IsValidUTF8) :
    (String.fromUTF8 _ valid).utf8ByteSize = bytes.length := by
  change bytes.toByteArray.size = bytes.length
  rw [← ByteArray.size_data, ← Array.length_toList, List.toList_data_toByteArray]

/-- A string, as the vector of its UTF-8 bytes. -/
instance : Wire { text : String // text.utf8ByteSize < 2 ^ 64 } where
  put text := put (⟨text.1.toByteArray.data.toList, text.2⟩ : { l : List UInt8 // l.length < 2 ^ 64 })
  take := do
    let bytes : { l : List UInt8 // l.length < 2 ^ 64 } ← take
    if valid : bytes.1.toByteArray.IsValidUTF8 then
      pure ⟨String.fromUTF8 _ valid, by rw [utf8ByteSize_fromUTF8]; exact bytes.2⟩
    else failure
  take_put text rest := by
    rw [run_take_bind]
    have bytes : text.1.toByteArray.data.toList.toByteArray = text.1.toByteArray :=
      ByteArray.ext (Array.toList_inj.mp List.toList_data_toByteArray)
    simp only [bytes, text.1.isValidUTF8]
    rfl

theorem length_put_text (text : { text : String // text.utf8ByteSize < 2 ^ 64 }) :
    (put text).length ≤ text.1.utf8ByteSize + 10 :=
  length_put_bytes ⟨text.1.toByteArray.data.toList, text.2⟩

end Omnipresent.Postcard
