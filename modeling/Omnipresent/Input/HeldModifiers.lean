import Omnipresent.Bits
import Omnipresent.Protocol.Input
import Omnipresent.SharedFlag

/-! The held modifiers a source of local input stamps on the keys it emits. It keeps them in
one byte, a bit for all the keys of a modifier, which each stroke of one sets or clears. -/
namespace Omnipresent

def modShift : UInt8 := 1
def modCtrl : UInt8 := 2
def modAlt : UInt8 := 4
def modMeta : UInt8 := 8

/-- The byte as the protocol has it. -/
def heldModifiers (bits : UInt8) : Modifiers :=
  let result := Modifiers.none
  let result := if bits &&& modShift ≠ 0 then result.with' .shift else result
  let result := if bits &&& modCtrl ≠ 0 then result.with' .control else result
  let result := if bits &&& modAlt ≠ 0 then result.with' .alt else result
  if bits &&& modMeta ≠ 0 then result.with' .meta' else result

/-- The bit of the modifier whose keys have this code. -/
def modifierMaskOf [DecidableEq α] (shift ctrl alt win : List α) (code : α) : Option UInt8 :=
  if code ∈ shift then some modShift
  else if code ∈ ctrl then some modCtrl
  else if code ∈ alt then some modAlt
  else if code ∈ win then some modMeta
  else none

theorem modifierMaskOf_known [DecidableEq α] {shift ctrl alt win : List α} {code : α}
    (masked : modifierMaskOf shift ctrl alt win code = some bits) :
    ∃ modifier ∈ Modifiers.all, modifier.bits = bits := by
  rw [modifierMaskOf] at masked
  split at masked
  · exact ⟨.shift, by decide, Option.some.inj masked⟩
  · split at masked
    · exact ⟨.control, by decide, Option.some.inj masked⟩
    · split at masked
      · exact ⟨.alt, by decide, Option.some.inj masked⟩
      · split at masked
        · exact ⟨.meta', by decide, Option.some.inj masked⟩
        · cases masked

/-- `fetch_or` of the bit, or `fetch_and` of the others. -/
def fetchModifier (bits mask : UInt8) : Action → UInt8
  | .press => bits ||| mask
  | .release => bits &&& ~~~mask

theorem contains_withIf (modifiers : Modifiers) {modifier other : Modifiers} (known : modifier ∈ Modifiers.all)
    (known' : other ∈ Modifiers.all) (condition : Prop) [Decidable condition] :
    (if condition then modifiers.with' modifier else modifiers).contains other =
      if condition ∧ modifier = other then true else modifiers.contains other := by
  by_cases holds : condition
  · have pressed : (modifiers.with' modifier).contains other = if modifier = other then true else _ :=
      modifiers.contains_changed known known' .press
    rw [if_pos holds, pressed]
    simp only [holds, true_and]
  · rw [if_neg holds, if_neg fun both => holds both.1]

theorem contains_iff_of_twoPow (bits : UInt8) {modifier : Modifiers}
    (power : modifier.bits.toBitVec = BitVec.twoPow 8 i) (inside : i < 8) :
    (Modifiers.mk bits).contains modifier = true ↔ bits &&& modifier.bits ≠ 0 := by
  obtain ⟨whole, some'⟩ := Bits.and_twoPow_iff inside bits.toBitVec
  rw [Modifiers.contains, beq_iff_eq, ne_eq, ← UInt8.toBitVec_inj, ← UInt8.toBitVec_inj, UInt8.toBitVec_and, power]
  exact whole.trans some'.symm

theorem contains_iff_and_ne_zero (bits : UInt8) : ∀ modifier ∈ Modifiers.all,
    (Modifiers.mk bits).contains modifier = true ↔ bits &&& modifier.bits ≠ 0 := by
  intro modifier known
  simp only [Modifiers.all, List.mem_cons, List.not_mem_nil, or_false] at known
  rcases known with rfl | rfl | rfl | rfl
  · exact contains_iff_of_twoPow (i := 0) bits (by decide) (by decide)
  · exact contains_iff_of_twoPow (i := 1) bits (by decide) (by decide)
  · exact contains_iff_of_twoPow (i := 2) bits (by decide) (by decide)
  · exact contains_iff_of_twoPow (i := 3) bits (by decide) (by decide)

theorem contains_heldModifiers (bits : UInt8) : ∀ modifier ∈ Modifiers.all,
    (heldModifiers bits).contains modifier = (Modifiers.mk bits).contains modifier := by
  intro modifier known
  rw [Bool.eq_iff_iff, contains_iff_and_ne_zero bits modifier known, heldModifiers,
    contains_withIf _ (by decide) known,
    contains_withIf _ (by decide) known, contains_withIf _ (by decide) known, contains_withIf _ (by decide) known]
  simp only [Modifiers.all, List.mem_cons, List.not_mem_nil, or_false] at known
  rcases known with rfl | rfl | rfl | rfl <;>
    simp [Modifiers.contains, Modifiers.none, Modifiers.shift, Modifiers.control, Modifiers.alt, Modifiers.meta',
      modShift, modCtrl, modAlt, modMeta]

/-- What a stroke of a key, if it is one, leaves of the byte. -/
def strokeModifiers (mask : κ → Option UInt8) (bits : UInt8) : Option (κ × Action) → UInt8
  | some (key, action) => (mask key).elim bits fun mask => fetchModifier bits mask action
  | none => bits

/-- A source of local input as far as keys go: what it makes of a raw event, which stroke of
which key that is, and the bit a key has in the byte it keeps. -/
structure KeySource (S R κ : Type) where
  handle : S → R → S × Option InputEvent
  modifiers : S → UInt8
  stroke : R → Option (κ × Action)
  mask : κ → Option UInt8
  known : mask key = some bits → ∃ modifier ∈ Modifiers.all, modifier.bits = bits
  follows (s : S) (raw : R) : modifiers (handle s raw).1 = strokeModifiers mask (modifiers s) (stroke raw)
  stamped : (handle s raw).2 = some (.key code action stamp) → stamp = heldModifiers (modifiers (handle s raw).1)

namespace KeySource
variable {S R κ : Type} (source : KeySource S R κ)

def after (s : S) (raws : List R) : S := raws.foldl (fun s raw => (source.handle s raw).1) s

def strokes (raws : List R) : List (κ × Bool) :=
  (raws.filterMap source.stroke).map fun stroke => (stroke.1, stroke.2 = .press)

def controls (modifier : Modifiers) (key : κ) : Bool := source.mask key = some modifier.bits

/-- A stamp has just the modifiers of which a key is down after these raw events. -/
def Truthful [DecidableEq κ] (stamp : Modifiers) (raws : List R) : Prop :=
  ∀ modifier ∈ Modifiers.all, stamp.contains modifier = true ↔
    ∃ key, source.controls modifier key = true ∧ down key (source.strokes raws) = true

/-- Of some modifier, a key was the last to be released while another was down. -/
def Overlap [DecidableEq κ] (raws : List R) : Prop :=
  ∃ modifier ∈ Modifiers.all, Overlapped (source.controls modifier) (source.strokes raws)

variable {source} {s : S} {modifier : Modifiers}

theorem after_append_singleton (s : S) (raws : List R) (raw : R) :
    source.after s (raws ++ [raw]) = (source.handle (source.after s raws) raw).1 := by
  rw [after, List.foldl_append, List.foldl_cons, List.foldl_nil, after]

/-- The bit of a modifier is the flag of the keys that control it. -/
theorem contains_after (fresh : source.modifiers s = 0) (known : modifier ∈ Modifiers.all) (raws : List R) :
    (Modifiers.mk (source.modifiers (source.after s raws))).contains modifier =
      lit (source.controls modifier) (source.strokes raws) := by
  induction raws using List.reverseRecOn with
  | nil =>
    change (Modifiers.mk (source.modifiers s)).contains modifier = false
    rw [fresh]
    exact (by decide : ∀ modifier ∈ Modifiers.all, (Modifiers.mk 0).contains modifier = false) modifier known
  | append_singleton raws raw ih =>
    rw [after_append_singleton, source.follows]
    cases struck : source.stroke raw with
    | none =>
      have same : source.strokes (raws ++ [raw]) = source.strokes raws := by simp [strokes, struck]
      rw [same, ← ih]
      rfl
    | some stroke =>
      obtain ⟨key, action⟩ := stroke
      have more : source.strokes (raws ++ [raw]) = source.strokes raws ++ [(key, decide (action = .press))] := by
        simp [strokes, struck]
      rw [more, lit_append_singleton, ← ih, strokeModifiers]
      cases masked : source.mask key with
      | none => simp [controls, masked]
      | some bits =>
        obtain ⟨own, listed, rfl⟩ := source.known masked
        have owned : source.controls modifier key = true ↔ own = modifier := by
          rw [controls, masked, decide_eq_true_eq, Option.some.injEq]
          exact ⟨congrArg Modifiers.mk, congrArg Modifiers.bits⟩
        simp only [owned]
        rw [← Modifiers.contains_changed _ listed known]
        cases action <;> rfl

/-- What is stamped on a key after any raw events can be believed unless keys overlap. -/
theorem truthful_iff [DecidableEq κ] (fresh : source.modifiers s = 0) {raws : List R} {raw : R}
    (emitted : (source.handle (source.after s raws) raw).2 = some (.key code action stamp)) :
    source.Truthful stamp (raws ++ [raw]) ↔ ¬ source.Overlap (raws ++ [raw]) := by
  rw [Overlap, not_exists]
  refine forall_congr' fun modifier => ?_
  rw [not_and]
  refine forall_congr' fun known => ?_
  rw [source.stamped emitted, contains_heldModifiers _ modifier known, ← after_append_singleton,
    contains_after fresh known]
  exact lit_iff_down_iff ..

end KeySource
end Omnipresent
