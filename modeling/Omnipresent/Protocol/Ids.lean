import Mathlib.Data.List.Basic

/-! Identifiers exchanged between machines. -/
namespace Omnipresent

structure MachineId where
  value : UInt64
deriving DecidableEq, Repr

structure PeerId where
  value : UInt64
deriving DecidableEq, Repr

structure SessionId where
  value : BitVec 128
deriving DecidableEq, Repr

/-- A certificate's SHA-256: always 32 bytes. -/
structure Fingerprint where
  bytes : List UInt8
  length_eq : bytes.length = 32
deriving DecidableEq

def Fingerprint.filled (byte : UInt8) : Fingerprint := ⟨List.replicate 32 byte, List.length_replicate⟩

/-- `u64::from_be_bytes`. -/
def beU64 (bytes : List UInt8) : UInt64 :=
  UInt64.ofNat (bytes.foldl (fun acc byte => acc * 256 + byte.toNat) 0)

/-- The `PeerId` a fingerprint's trust is keyed on: its first eight bytes. -/
def peerIdOf (fingerprint : Fingerprint) : PeerId := ⟨beU64 (fingerprint.bytes.take 8)⟩

def machineIdOf (fingerprint : Fingerprint) : MachineId := ⟨(peerIdOf fingerprint).value⟩

end Omnipresent
