import Omnipresent.Postcard.Shortest
import Omnipresent.Protocol.Wire

/-! Messages are written as short as they can be read: what arrives can always be passed on,
in no more bytes than it came in. -/
namespace Omnipresent

open Postcard

theorem variant_eq {variant : UInt32} {n : Nat} (found : variant.toNat = n) : variant = UInt32.ofNat n := by
  rw [← found, UInt32.ofNat_toNat]

instance : ShortestWire MachineId := ⟨.map fun _ => (Nat.zero_add _).symm⟩

instance : ShortestWire SessionId := ⟨.map fun _ => (Nat.zero_add _).symm⟩

instance : ShortestWire Fingerprint := ⟨.map fun _ => (Nat.zero_add _).symm⟩

instance : ShortestWire KeyCode := ⟨.map fun _ => (Nat.zero_add _).symm⟩

instance : ShortestWire Modifiers := ⟨.map fun _ => (Nat.zero_add _).symm⟩

instance : ShortestWire ScreenSize := ⟨.field fun _ => .field fun _ => .pure rfl⟩

instance : ShortestWire RejectReason where
  shortest := by
    refine .field fun variant => ?_
    split
    iterate 4
      rename_i found
      cases variant_eq found
      exact .pure rfl
    exact .failure

instance : ShortestWire ControlMessage where
  shortest := by
    refine .field fun variant => ?_
    split
    iterate 7
      rename_i found
      cases variant_eq found
      first
        | exact .map fun _ => List.length_append
        | exact .field fun _ => .field fun _ => .field fun _ => .pure (by simp only [List.append_assoc]; rfl)
    exact .failure

instance : ShortestWire Action where
  shortest := by
    refine .field fun variant => ?_
    split
    iterate 2
      rename_i found
      cases variant_eq found
      exact .pure rfl
    exact .failure

instance : ShortestWire MouseButton where
  shortest := by
    refine .field fun variant => ?_
    split
    iterate 5
      rename_i found
      cases variant_eq found
      exact .pure rfl
    · rename_i found
      cases variant_eq found
      exact .map fun _ => List.length_append
    · exact .failure

instance : ShortestWire MouseDelta := ⟨.field fun _ => .field fun _ => .pure rfl⟩

instance : ShortestWire ScrollDelta := ⟨.field fun _ => .field fun _ => .pure rfl⟩

instance : ShortestWire InputEvent where
  shortest := by
    refine .field fun variant => ?_
    split
    iterate 5
      rename_i found
      cases variant_eq found
      first
        | exact .map fun _ => List.length_append
        | exact .field fun _ => .field fun _ => .pure rfl
        | exact .field fun _ => .field fun _ => .field fun _ => .pure (by simp only [List.append_assoc]; rfl)
    exact .failure

instance : ShortestWire { data : ClipboardData // data.Addressable } where
  shortest := by
    refine .field fun variant => ?_
    split
    · rename_i found
      cases variant_eq found
      exact .field fun _ => .pure rfl
    · rename_i found
      cases variant_eq found
      exact .field fun _ => .field fun _ => .field fun _ => .pure (by simp only [List.append_assoc]; rfl)
    · exact .failure

instance : ShortestWire Message where
  shortest := by
    refine .field fun variant => ?_
    split
    · rename_i found
      cases variant_eq found
      exact .field fun _ => .field fun _ => .pure rfl
    · rename_i found
      cases variant_eq found
      exact .map fun _ => List.length_append
    · rename_i found
      cases variant_eq found
      exact .field fun _ => .pure rfl
    · exact .failure

theorem length_put_of_decode {bytes : List UInt8} {message : Message} (decoded : decode bytes = .ok message) :
    (put message).length ≤ bytes.length := by
  rw [decode, fromBytes] at decoded
  cases read : (take : Take Message).run bytes with
  | none =>
    rw [read] at decoded
    cases decoded
  | some result =>
    obtain ⟨found, rest⟩ := result
    rw [read] at decoded
    cases decoded
    exact Nat.le_trans (Nat.le_add_right _ _) (length_put_le read)

end Omnipresent
