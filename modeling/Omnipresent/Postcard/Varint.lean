import Mathlib.Algebra.Group.Nat.Defs
import Mathlib.Data.List.Basic

/-! Integers in the postcard format: seven bits to a byte, least significant first,
the top bit set on every byte but the last, and signed integers folded onto
unsigned ones so that small magnitudes stay short. -/
namespace Omnipresent.Postcard

/-- Reads a value off the front of the bytes, and leaves the rest. -/
abbrev Take := StateT (List UInt8) Option

def pop : Take UInt8
  | [] => none
  | byte :: rest => some (byte, rest)

/-- How many bytes a value of so many bits can need. -/
def varintMax (bits : Nat) : Nat := (bits + 6) / 7

/-- The largest last byte of an encoding as long as that. -/
def maxOfLastByte (bits : Nat) : Nat := 2 ^ (bits % 7) - 1

def varintBytes : Nat → Nat → List UInt8
  | 0, _ => []
  | room + 1, value =>
    let low := UInt8.ofNat value
    if value < 128 then [low] else (low ||| 0x80) :: varintBytes room (value / 128)

/-- Reads at most so many bytes; the last of them has its own limit. -/
def takeVarintBytes (last : Nat) : Nat → Take Nat
  | 0 => failure
  | room + 1 => do
    let byte ← pop
    if byte.toNat < 128 then
      if room = 0 ∧ last < byte.toNat then failure else pure byte.toNat
    else do
      let more ← takeVarintBytes last room
      pure (byte.toNat % 128 + 128 * more)

def varint (bits value : Nat) : List UInt8 := varintBytes (varintMax bits) value

def tryTakeVarint (bits : Nat) : Take Nat := takeVarintBytes (maxOfLastByte bits) (varintMax bits)

theorem run_pop (byte : UInt8) (rest : List UInt8) : pop.run (byte :: rest) = some (byte, rest) := rfl

theorem or_continuation (byte : UInt8) : (byte ||| 0x80).toNat = byte.toNat % 128 + 128 := by
  have every : ∀ n : Fin 256, (UInt8.ofNat n ||| 0x80).toNat = n % 128 + 128 := by decide +kernel
  simpa using every ⟨byte.toNat, byte.toNat_lt⟩

theorem takeVarintBytes_varintBytes (last room value : Nat) (rest : List UInt8)
    (fits : value < (last + 1) * 128 ^ room) (short : last < 128) :
    (takeVarintBytes last (room + 1)).run (varintBytes (room + 1) value ++ rest) = some (value, rest) := by
  induction room generalizing value with
  | zero =>
    have small : value < 128 := by omega
    have low := UInt8.toNat_ofNat_of_lt' (Nat.lt_trans small (by decide))
    have within : ¬ last < value := by omega
    simp [takeVarintBytes, varintBytes, small, low, within, run_pop]
  | succ room ih =>
    by_cases small : value < 128
    · have low := UInt8.toNat_ofNat_of_lt' (Nat.lt_trans small (by decide))
      rw [takeVarintBytes, varintBytes]
      simp [small, low, run_pop]
    · have fewer : value / 128 < (last + 1) * 128 ^ room := by
        rw [Nat.div_lt_iff_lt_mul (by decide), Nat.mul_assoc, ← Nat.pow_succ]
        exact fits
      have carried : (UInt8.ofNat value ||| 0x80).toNat = value % 128 + 128 := by
        rw [or_continuation, UInt8.toNat_ofNat', Nat.mod_mod_of_dvd value (by decide)]
      have continued : ¬ (value % 128 + 128 < 128) := by omega
      rw [takeVarintBytes, varintBytes]
      simp only [small, if_false, List.cons_append, StateT.run_bind, run_pop, Option.bind_eq_bind,
        Option.bind_some, carried, continued, ih _ fewer, StateT.run_pure]
      rw [Option.pure_def, Option.some.injEq, Prod.mk.injEq]
      exact ⟨by omega, rfl⟩

/-- A value of the width reads back, whatever follows it. -/
theorem tryTakeVarint_varint {bits value : Nat} (uneven : bits % 7 ≠ 0) (fits : value < 2 ^ bits)
    (rest : List UInt8) : (tryTakeVarint bits).run (varint bits value ++ rest) = some (value, rest) := by
  have room : varintMax bits = bits / 7 + 1 := by
    rw [varintMax]
    omega
  have last : maxOfLastByte bits + 1 = 2 ^ (bits % 7) := Nat.sub_add_cancel Nat.one_le_two_pow
  have short : 2 ^ (bits % 7) ≤ 2 ^ 6 := Nat.pow_le_pow_right (by decide) (by omega)
  rw [tryTakeVarint, varint, room]
  refine takeVarintBytes_varintBytes _ _ _ _ ?_ (by omega)
  rwa [last, show 128 = 2 ^ 7 from rfl, ← Nat.pow_mul, ← Nat.pow_add, Nat.mod_add_div]

theorem length_varint_le (bits value : Nat) : (varint bits value).length ≤ varintMax bits := by
  have bytes (room value : Nat) : (varintBytes room value).length ≤ room := by
    induction room generalizing value with
    | zero => exact Nat.le_refl 0
    | succ room ih =>
      rw [varintBytes]
      split
      · exact Nat.succ_le_succ (Nat.zero_le room)
      · exact Nat.succ_le_succ (ih _)
  exact bytes _ _

/-- `((n << 1) ^ (n >> 31)) as u32`. -/
def zigZagI32 (n : Int32) : UInt32 := ((n <<< 1) ^^^ (n >>> 31)).toUInt32

/-- `((n >> 1) as i32) ^ (-((n & 1) as i32))`. -/
def deZigZagI32 (n : UInt32) : Int32 := (n >>> 1).toInt32 ^^^ -(n &&& 1).toInt32

/-- An arithmetic shift by all but one bit leaves the sign everywhere. -/
theorem getElem_sign (n : BitVec 32) {i : Nat} (bound : i < 32) : (n.sshiftRight 31)[i] = n.msb := by
  rw [BitVec.getElem_sshiftRight]
  split
  · obtain rfl : i = 0 := by omega
    rfl
  · rfl

theorem getElem_neg_ofBool (sign : Bool) {i : Nat} (bound : i < 32) :
    (-(BitVec.ofBool sign).setWidth 32)[i] = sign := by
  cases sign with
  | false => simp
  | true =>
    have ones : -(BitVec.ofBool true).setWidth 32 = BitVec.allOnes 32 := by decide
    simp only [ones, BitVec.getElem_allOnes]

theorem unfold_fold (n : BitVec 32) :
    (n <<< 1 ^^^ n.sshiftRight 31) >>> 1 ^^^ -((n <<< 1 ^^^ n.sshiftRight 31) &&& 1#32) = n := by
  -- The lowest bit of the folded value is the sign.
  have low : (n <<< 1 ^^^ n.sshiftRight 31).getLsbD 0 = n.msb := by
    rw [BitVec.getLsbD_eq_getElem (by decide), BitVec.getElem_xor, getElem_sign]
    simp
  rw [BitVec.and_one_eq_setWidth_ofBool_getLsbD, low]
  ext i bound
  rw [BitVec.getElem_xor, getElem_neg_ofBool, BitVec.getElem_ushiftRight]
  by_cases top : i = 31
  · subst top
    rw [BitVec.getLsbD_of_ge _ _ (by decide), Bool.false_xor]
    rfl
  · have inner : 1 + i < 32 := by omega
    rw [BitVec.getLsbD_eq_getElem inner, BitVec.getElem_xor, getElem_sign, BitVec.getElem_shiftLeft]
    simp

theorem deZigZagI32_zigZagI32 (n : Int32) : deZigZagI32 (zigZagI32 n) = n := by
  apply Int32.toBitVec_inj.mp
  simpa [deZigZagI32, zigZagI32] using unfold_fold n.toBitVec

end Omnipresent.Postcard
