import Omnipresent.Bits
import Omnipresent.Protocol.Input

/-! Relabelling a key event moves its key code and its modifiers together, whatever the
code and the byte of modifiers, and doing it twice undoes it. -/
namespace Omnipresent

namespace Modifiers
variable {modifier other : Modifiers}

def bit (self : Modifiers) (index : Nat) : Bool := self.bits.toBitVec.getLsbD index

theorem ext_bit (same : ∀ index, modifier.bit index = other.bit index) : modifier = other := by
  obtain ⟨⟨bits⟩⟩ := modifier
  obtain ⟨⟨bits'⟩⟩ := other
  obtain rfl : bits = bits' := BitVec.eq_of_getLsbD_eq fun index _ => same index
  rfl

theorem bit_with' (self other : Modifiers) (index : Nat) :
    (self.with' other).bit index = (self.bit index || other.bit index) := by simp [bit, with']

theorem bit_without (self other : Modifiers) (index : Nat) :
    (self.without other).bit index = (self.bit index && !other.bit index) := by
  by_cases inside : index < 8
  · simp [bit, without, inside]
  · simp [bit, without, BitVec.getLsbD_of_ge _ _ (Nat.le_of_not_lt inside)]

/-- A modifier is one bit of the byte. -/
structure At (modifier : Modifiers) (index : Nat) : Prop where
  single : modifier.bits.toBitVec = BitVec.twoPow 8 index
  inside : index < 8

theorem control_at : control.At 1 := ⟨by decide, by decide⟩

theorem meta_at : meta'.At 3 := ⟨by decide, by decide⟩

theorem At.bit (placed : modifier.At index) (index' : Nat) : modifier.bit index' = decide (index' = index) := by
  have inside := placed.inside
  rw [Modifiers.bit, placed.single, BitVec.getLsbD_twoPow, decide_eq_true inside, Bool.true_and]
  exact decide_eq_decide.mpr eq_comm

theorem At.contains (placed : modifier.At index) (self : Modifiers) : self.contains modifier = self.bit index := by
  rw [Modifiers.contains, Bool.eq_iff_iff, beq_iff_eq, ← UInt8.toBitVec_inj, UInt8.toBitVec_and, placed.single]
  exact (Bits.and_twoPow_iff placed.inside _).1

end Modifiers

/-- The bits of Control and Meta change places. -/
def swapBit (index : Nat) : Nat := if index = 1 then 3 else if index = 3 then 1 else index

theorem swapBit_swapBit (index : Nat) : swapBit (swapBit index) = index := by grind [swapBit]

theorem swapModifiers_bit (modifiers : Modifiers) (index : Nat) :
    (swapModifiers modifiers).bit index = modifiers.bit (swapBit index) := by
  simp only [swapModifiers, Modifiers.meta_at.contains, Modifiers.control_at.contains]
  have control := Modifiers.control_at.bit index
  have meta' := Modifiers.meta_at.bit index
  rw [swapBit]
  cases hadMeta : modifiers.bit 3 <;> cases hadControl : modifiers.bit 1 <;>
    simp only [Modifiers.bit_with', Modifiers.bit_without, control, meta', if_true, Bool.false_eq_true, if_false]
  all_goals grind

theorem swapModifiers_swapModifiers (modifiers : Modifiers) :
    swapModifiers (swapModifiers modifiers) = modifiers := by
  apply Modifiers.ext_bit
  intro index
  rw [swapModifiers_bit, swapModifiers_bit, swapBit_swapBit]

def exchanged : List KeyCode := [⟨0xE0⟩, ⟨0xE3⟩, ⟨0xE4⟩, ⟨0xE7⟩]

theorem swapKey_of_mem : ∀ code ∈ exchanged, swapKey (swapKey code) = code ∧
    (swapKey code).modifier = code.modifier.map swapModifiers := by decide

theorem swapKey_of_not_mem {code : KeyCode} (other : code ∉ exchanged) :
    swapKey code = code ∧ (code.modifier = none ∨ code.modifier = some .shift ∨ code.modifier = some .alt) := by
  obtain ⟨value⟩ := code
  simp only [exchanged, List.mem_cons, KeyCode.mk.injEq, List.not_mem_nil, or_false, not_or] at other
  obtain ⟨leftControl, leftMeta, rightControl, rightMeta⟩ := other
  constructor
  · rw [swapKey, if_neg leftControl, if_neg leftMeta, if_neg rightControl, if_neg rightMeta]
  · rw [KeyCode.modifier, if_neg (by simp [leftControl, rightControl])]
    split
    · exact .inr (.inl rfl)
    · split
      · exact .inr (.inr rfl)
      · exact .inl (if_neg (by simp [leftMeta, rightMeta]))

theorem swapKey_modifier (code : KeyCode) : (swapKey code).modifier = code.modifier.map swapModifiers := by
  by_cases member : code ∈ exchanged
  · exact (swapKey_of_mem code member).2
  · obtain ⟨same, none' | shift | alt⟩ := swapKey_of_not_mem member
    · rw [same, none']
      rfl
    · rw [same, shift]
      decide
    · rw [same, alt]
      decide

theorem swapKey_swapKey (code : KeyCode) : swapKey (swapKey code) = code := by
  by_cases member : code ∈ exchanged
  · exact (swapKey_of_mem code member).1
  · obtain ⟨same, _⟩ := swapKey_of_not_mem member
    rw [same, same]

namespace ModifierSwap

def modifiers : ModifierSwap → Modifiers → Modifiers
  | .none => id
  | .metaAndControl => swapModifiers

theorem apply_key (self : ModifierSwap) (code : KeyCode) (action : Action) (held : Modifiers) :
    ∃ code', self.apply (.key code action held) = .key code' action (self.modifiers held) ∧
      code'.modifier = code.modifier.map self.modifiers := by
  cases self with
  | none => exact ⟨code, rfl, (Option.map_id_apply).symm⟩
  | metaAndControl => exact ⟨swapKey code, rfl, swapKey_modifier code⟩

theorem modifiers_bit (self : ModifierSwap) (held : Modifiers) (control : index ≠ 1) (meta' : index ≠ 3) :
    (self.modifiers held).bit index = held.bit index := by
  cases self with
  | none => rfl
  | metaAndControl => rw [modifiers, swapModifiers_bit, swapBit, if_neg control, if_neg meta']

theorem apply_apply (self : ModifierSwap) (event : InputEvent) : self.apply (self.apply event) = event := by
  cases self with
  | none => rfl
  | metaAndControl =>
    cases event with
    | key code action held =>
      change InputEvent.key (swapKey (swapKey code)) action (swapModifiers (swapModifiers held)) = _
      rw [swapKey_swapKey, swapModifiers_swapModifiers]
    | _ => rfl

/-- Either swap undoes itself, moves nothing but the keys and the bits of Meta and Control,
and does to the modifier a key controls what it does to the modifiers held. -/
theorem apply_in_step (self : ModifierSwap) (event : InputEvent) :
    self.apply (self.apply event) = event ∧
    match event with
    | .key code action held =>
      ∃ code', self.apply event = .key code' action (self.modifiers held) ∧
        code'.modifier = code.modifier.map self.modifiers ∧
        ∀ index, index ≠ 1 → index ≠ 3 → (self.modifiers held).bit index = held.bit index
    | _ => self.apply event = event := by
  refine ⟨self.apply_apply event, ?_⟩
  cases event with
  | key code action held =>
    obtain ⟨code', applied, agrees⟩ := self.apply_key code action held
    exact ⟨code', applied, agrees, fun _ => self.modifiers_bit held⟩
  | _ => cases self <;> rfl

end ModifierSwap
end Omnipresent
