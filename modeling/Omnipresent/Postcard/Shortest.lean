import Mathlib.Data.Fintype.EquivFin
import Omnipresent.Postcard.Wire

/-! Readers that never make much of little. A value is read off no fewer bytes than it is
written in, however its bytes were put: a varint may be padded, and then what it reads as is
written shorter. -/
namespace Omnipresent.Postcard

/-- Behind what has been read, this reads no value that is written longer. -/
def Shortens [Wire α] (before : List UInt8) (reader : Take α) : Prop :=
  ∀ bytes a rest, reader.run bytes = some (a, rest) → (put a).length + rest.length ≤ before.length + bytes.length

/-- A type whose reader is one of these. -/
class ShortestWire (α : Type) [Wire α] : Prop where
  shortest : Shortens [] (take : Take α)

export ShortestWire (shortest)

theorem length_put_le [Wire α] [ShortestWire α] {bytes rest : List UInt8} {a : α}
    (read : (take : Take α).run bytes = some (a, rest)) : (put a).length + rest.length ≤ bytes.length := by
  have fewer := shortest bytes a rest read
  rwa [List.length_nil, Nat.zero_add] at fewer

namespace Shortens
variable [Wire α] [Wire β] {before : List UInt8}

theorem pure {a : α} (written : before = put a) : Shortens before (pure a : Take α) := by
  intro bytes b rest read
  rw [StateT.run_pure] at read
  cases read
  rw [written]

theorem failure : Shortens before (failure : Take α) := by
  intro bytes a rest read
  cases read

/-- A field has been read once it is behind. -/
theorem field [ShortestWire α] {next : α → Take β} (then' : ∀ a, Shortens (before ++ put a) (next a)) :
    Shortens before (take >>= next) := by
  intro bytes b rest read
  rw [StateT.run_bind, Option.bind_eq_bind, Option.bind_eq_some_iff] at read
  obtain ⟨⟨a, between⟩, taken, read⟩ := read
  have own := length_put_le taken
  have others := then' a between b rest read
  rw [List.length_append] at others
  omega

theorem map [ShortestWire α] {f : α → β} (same : ∀ a, (put (f a)).length = before.length + (put a).length) :
    Shortens before (f <$> take) := by
  intro bytes b rest read
  rw [StateT.run_map, Option.map_eq_map, Option.map_eq_some_iff] at read
  obtain ⟨⟨a, left⟩, taken, read⟩ := read
  cases read
  have own := length_put_le taken
  have written := same a
  dsimp only
  omega

end Shortens

theorem varintBytes_mono (room : Nat) {small large : Nat} (le : small ≤ large) :
    (varintBytes room small).length ≤ (varintBytes room large).length := by
  induction room generalizing small large with
  | zero => exact Nat.le_refl _
  | succ room ih =>
    have fewer := ih (Nat.div_le_div_right le : small / 128 ≤ large / 128)
    rw [varintBytes, varintBytes]
    split <;> split
    · exact Nat.le_refl _
    · exact Nat.succ_le_succ (Nat.zero_le _)
    · omega
    · exact Nat.succ_le_succ fewer

/-- However a varint was padded. -/
theorem length_varintBytes_le {last room : Nat} {bytes rest : List UInt8} {value : Nat}
    (read : (takeVarintBytes last room).run bytes = some (value, rest)) :
    (varintBytes room value).length + rest.length ≤ bytes.length := by
  induction room generalizing bytes value with
  | zero => cases read
  | succ room ih =>
    cases bytes with
    | nil => cases read
    | cons byte behind =>
      rw [takeVarintBytes, StateT.run_bind, run_pop, Option.bind_eq_bind, Option.bind_some] at read
      dsimp only at read
      rw [varintBytes]
      split at read
      · rename_i ends
        split at read
        · cases read
        · rw [StateT.run_pure] at read
          cases read
          rw [if_pos ends, List.length_singleton, List.length_cons]
          omega
      · rw [StateT.run_bind, Option.bind_eq_bind, Option.bind_eq_some_iff] at read
        obtain ⟨⟨more, left⟩, others, read⟩ := read
        rw [StateT.run_pure] at read
        cases read
        have fewer : (varintBytes room more).length + left.length ≤ behind.length := ih others
        have high : (byte.toNat % 128 + 128 * more) / 128 = more := by omega
        rw [high]
        split <;> simp only [List.length_cons, List.length_nil] <;> omega

theorem length_varint_mod {bits : Nat} {bytes rest : List UInt8} {value : Nat}
    (read : (tryTakeVarint bits).run bytes = some (value, rest)) (modulus : Nat) :
    (varint bits (value % modulus)).length + rest.length ≤ bytes.length :=
  Nat.le_trans (Nat.add_le_add_right (varintBytes_mono _ (Nat.mod_le value modulus)) _)
    (length_varintBytes_le read)

/-- A reader that only wraps a varint's value up. -/
theorem Shortens.varint [Wire α] {bits modulus : Nat} {wrap : Nat → α}
    (written : ∀ n, put (wrap n) = varint bits (n % modulus)) : Shortens [] (wrap <$> tryTakeVarint bits) := by
  intro bytes a rest read
  rw [StateT.run_map, Option.map_eq_map, Option.map_eq_some_iff] at read
  obtain ⟨⟨n, left⟩, taken, read⟩ := read
  cases read
  have fewer := length_varint_mod taken modulus
  rw [← written] at fewer
  rwa [List.length_nil, Nat.zero_add]

instance : ShortestWire UInt8 where
  shortest := by
    intro bytes byte rest read
    cases bytes with
    | nil => cases read
    | cons first behind =>
      cases read
      exact Nat.le_of_eq (Nat.add_comm 1 rest.length ▸ (Nat.zero_add _).symm)

instance : ShortestWire UInt32 := ⟨.varint fun _ => congrArg (varint 32) UInt32.toNat_ofNat'⟩

instance : ShortestWire UInt64 := ⟨.varint fun _ => congrArg (varint 64) UInt64.toNat_ofNat'⟩

instance : ShortestWire (BitVec 128) := ⟨.varint fun n => congrArg (varint 128) (BitVec.toNat_ofNat n 128)⟩

/-- Folding is onto: both kinds of integer are as many. -/
theorem zigZagI32_deZigZagI32 (n : UInt32) : zigZagI32 (deZigZagI32 n) = n := by
  have finite : Finite (BitVec 32) := Finite.of_injective BitVec.toFin fun _ _ => BitVec.toFin_inj.mp
  have onto : Function.Surjective fun m : BitVec 32 => (zigZagI32 ⟨⟨m⟩⟩).toBitVec := by
    refine Finite.injective_iff_surjective.mp fun a b same => ?_
    have folded := congrArg deZigZagI32 (UInt32.toBitVec_inj.mp same)
    rw [deZigZagI32_zigZagI32, deZigZagI32_zigZagI32] at folded
    exact congrArg Int32.toBitVec folded
  obtain ⟨m, folded⟩ := onto n.toBitVec
  rw [← UInt32.toBitVec_inj.mp folded, deZigZagI32_zigZagI32]

instance : ShortestWire Int32 :=
  ⟨.map fun n => by
    rw [List.length_nil, Nat.zero_add]
    exact congrArg (fun n : UInt32 => (put n).length) (zigZagI32_deZigZagI32 n)⟩

theorem length_takeMany [Wire α] [ShortestWire α] {count : Nat} {bytes rest : List UInt8}
    {l : { l : List α // l.length = count }} (read : (takeMany count).run bytes = some (l, rest)) :
    (l.1.flatMap put).length + rest.length ≤ bytes.length := by
  induction count generalizing bytes with
  | zero =>
    rw [takeMany, StateT.run_pure] at read
    cases read
    exact Nat.le_of_eq (Nat.zero_add _)
  | succ count ih =>
    rw [takeMany, StateT.run_bind, Option.bind_eq_bind, Option.bind_eq_some_iff] at read
    obtain ⟨⟨a, between⟩, first, read⟩ := read
    rw [StateT.run_bind, Option.bind_eq_bind, Option.bind_eq_some_iff] at read
    obtain ⟨⟨l, left⟩, others, read⟩ := read
    rw [StateT.run_pure] at read
    cases read
    have own : (put a).length + between.length ≤ bytes.length := length_put_le first
    have fewer : (l.1.flatMap put).length + left.length ≤ between.length := ih others
    dsimp only
    rw [List.flatMap_cons, List.length_append]
    omega

instance [Wire α] [ShortestWire α] : ShortestWire { l : List α // l.length = count } where
  shortest := fun _ _ _ read => Nat.le_trans (length_takeMany read) (Nat.le_of_eq (Nat.zero_add _).symm)

instance [Wire α] [ShortestWire α] : ShortestWire { l : List α // l.length < 2 ^ 64 } where
  shortest := by
    intro bytes l rest read
    replace read : ((take : Take UInt64) >>= fun count => _).run bytes = _ := read
    rw [StateT.run_bind, Option.bind_eq_bind, Option.bind_eq_some_iff] at read
    obtain ⟨⟨count, between⟩, header, read⟩ := read
    rw [StateT.run_bind, Option.bind_eq_bind, Option.bind_eq_some_iff] at read
    obtain ⟨⟨l, left⟩, body, read⟩ := read
    rw [StateT.run_pure] at read
    cases read
    have own : (put count).length + between.length ≤ bytes.length := length_put_le header
    have fewer : (l.1.flatMap put).length + left.length ≤ between.length := length_takeMany body
    have announced : UInt64.ofNat l.1.length = count := by rw [l.2, UInt64.ofNat_toNat]
    change (put (UInt64.ofNat l.1.length) ++ l.1.flatMap put).length + _ ≤ _
    rw [List.length_append, announced, List.length_nil]
    dsimp only
    omega

instance : ShortestWire { text : String // text.utf8ByteSize < 2 ^ 64 } where
  shortest := by
    refine .field fun bytes => ?_
    split
    · refine .pure ?_
      change put bytes = put (⟨bytes.1.toByteArray.data.toList, _⟩ : { l : List UInt8 // l.length < 2 ^ 64 })
      congr
      exact Subtype.ext List.toList_data_toByteArray.symm
    · exact .failure

end Omnipresent.Postcard
