import Mathlib.Algebra.Group.Nat.Even
import Mathlib.Data.List.Induction
import Omnipresent.Bits
import Omnipresent.Input.MacosSource

/-! What the tap takes a modifier key for, against the key itself. The one is turned at every
change that is reported, the other also at those that are missed while the tap is disabled. -/
namespace Omnipresent.Macos

def momentary (vk : UInt16) : Bool := isModifierVk vk && vk ≠ capsLockVk

def momentaryVks : List UInt16 := [54, 55, 56, 58, 59, 60, 61, 62]

theorem momentary_between (known : momentary vk = true) : 54 ≤ vk.toNat ∧ vk.toNat ≤ 62 ∧ vk.toNat ≠ 57 := by
  rw [momentary, isModifierVk, capsLockVk, Bool.and_eq_true, decide_eq_true_eq, decide_eq_true_eq,
    UInt16.le_iff_toNat_le, UInt16.le_iff_toNat_le] at known
  obtain ⟨⟨lower, upper⟩, apart⟩ := known
  exact ⟨lower, upper, fun same => apart (UInt16.toNat_inj.mp same)⟩

theorem mem_momentaryVks (known : momentary vk = true) : vk ∈ momentaryVks := by
  have between := momentary_between known
  simp only [momentaryVks, List.mem_cons, List.not_mem_nil, or_false, ← UInt16.toNat_inj]
  change vk.toNat = 54 ∨ vk.toNat = 55 ∨ vk.toNat = 56 ∨ vk.toNat = 58 ∨ vk.toNat = 59 ∨ vk.toNat = 60 ∨
    vk.toNat = 61 ∨ vk.toNat = 62
  omega

theorem momentary_usage (known : momentary vk = true) : (hidFromVk vk).isSome = true := by
  have all : momentaryVks.all (fun vk => (hidFromVk vk).isSome) = true := by decide +kernel
  exact List.all_eq_true.mp all vk (mem_momentaryVks known)

theorem shiftLeft_vk {vk : UInt16} (inside : vk.toNat < 64) :
    ((1 : UInt64) <<< (vk % 64).toUInt64).toBitVec = BitVec.twoPow 64 vk.toNat := by
  have place : (vk % 64).toUInt64.toNat = vk.toNat := by
    rw [UInt16.toNat_toUInt64, UInt16.toNat_mod]
    exact Nat.mod_eq_of_lt inside
  apply BitVec.eq_of_toNat_eq
  rw [UInt64.toNat_toBitVec, UInt64.toNat_shiftLeft, place, Nat.mod_eq_of_lt inside, BitVec.toNat_twoPow]
  exact congrArg (· % 2 ^ 64) (Nat.one_shiftLeft vk.toNat)

/-- Whether a key is taken to be held. -/
def remembered (held : UInt64) (vk : UInt16) : Bool := held.toBitVec.getLsbD vk.toNat

theorem toggleModifier_eq (held : UInt64) (known : momentary vk = true) :
    (toggleModifier held vk).2 = (if remembered held vk then .release else .press) ∧
      ∀ other, remembered (toggleModifier held vk).1 other = (remembered held other ^^ decide (vk = other)) := by
  have inside : vk.toNat < 64 := by
    have between := momentary_between known
    omega
  have single := shiftLeft_vk inside
  have found : held &&& (1 <<< (vk % 64).toUInt64) ≠ 0 ↔ remembered held vk = true := by
    rw [ne_eq, ← UInt64.toBitVec_inj, UInt64.toBitVec_and, single]
    exact (Bits.and_twoPow_iff inside _).2
  have turned : (toggleModifier held vk).1.toBitVec =
      if held.toBitVec.getLsbD vk.toNat then held.toBitVec &&& ~~~BitVec.twoPow 64 vk.toNat
        else held.toBitVec ||| BitVec.twoPow 64 vk.toNat := by
    simp only [toggleModifier, found, remembered]
    split
    · rw [UInt64.toBitVec_and, UInt64.toBitVec_not, single]
    · rw [UInt64.toBitVec_or, single]
  constructor
  · simp only [toggleModifier, found]
    split <;> rfl
  · intro other
    rw [remembered, turned, Bits.getLsbD_turned inside, remembered]
    exact congrArg _ (decide_eq_decide.mpr UInt16.toNat_inj)

/-- What the tap makes of a change of a modifier key, and that a change of any other key
leaves what it remembers as it was. -/
theorem handle_flagsChanged (tap : Tap) (suppressed : Bool) (vk : UInt16) (flags : CGEventFlags) :
    (momentary vk = true → ∃ code, hidFromVk vk = some code ∧
      (tap.handle suppressed (.event false (.flagsChanged vk flags))).1 =
        [.key code (toggleModifier tap.heldModifiers vk).2 (modifiersFromFlags flags)]) ∧
    (tap.handle suppressed (.event false (.flagsChanged vk flags))).2.1.heldModifiers =
      if momentary vk then (toggleModifier tap.heldModifiers vk).1 else tap.heldModifiers := by
  have latched : momentary capsLockVk = false := by decide
  by_cases caps : vk = capsLockVk
  · subst caps
    rw [latched]
    exact ⟨fun impossible => absurd impossible Bool.false_ne_true, rfl⟩
  · have same : momentary vk = isModifierVk vk := by rw [momentary, decide_eq_true caps, Bool.and_true]
    simp only [Tap.handle, convertEvent, if_neg caps, convertOne, same]
    cases known : isModifierVk vk with
    | false => exact ⟨fun impossible => absurd impossible Bool.false_ne_true, rfl⟩
    | true =>
      obtain ⟨code, mapped⟩ := Option.isSome_iff_exists.mp (momentary_usage (same.trans known))
      simp only [mapped, if_true]
      exact ⟨fun _ => ⟨code, rfl, rfl⟩, trivial⟩

/-- Something that happens to the keyboard: the tap is called, or a key changes while it is
disabled. -/
inductive Happening where
  | tapped (suppressed : Bool) (event : TapEvent)
  | missed (vk : UInt16)
deriving DecidableEq, Repr

/-- The tap is told of a change of this key. -/
def Happening.change (suppressed : Bool) (vk : UInt16) (flags : CGEventFlags) : Happening :=
  .tapped suppressed (.event false (.flagsChanged vk flags))

def Happening.reported : Happening → Option UInt16
  | .tapped _ (.event false (.flagsChanged vk _)) => if momentary vk then some vk else none
  | _ => none

def Happening.changed : Happening → Option UInt16
  | .missed vk => some vk
  | happening => happening.reported

/-- The tap, and the modifier keys that are down. -/
structure Keyboard where
  tap : Tap
  down : UInt16 → Bool

namespace Keyboard

def next (self : Keyboard) (happening : Happening) : Keyboard where
  tap := match happening with
    | .tapped suppressed event => (self.tap.handle suppressed event).2.1
    | .missed _ => self.tap
  down vk := self.down vk ^^ decide (happening.changed = some vk)

/-- From where the tap starts, with these keys held. -/
def after (held : UInt16 → Bool) (happenings : List Happening) : Keyboard := happenings.foldl next ⟨.new, held⟩

theorem after_concat (held : UInt16 → Bool) (happenings : List Happening) (last : Happening) :
    after held (happenings ++ [last]) = (after held happenings).next last := by
  rw [after, List.foldl_append]
  rfl

/-- A key is taken for the other way only when the tap is told of a change of it. -/
theorem remembered_next (self : Keyboard) (happening : Happening) (vk : UInt16) :
    remembered (self.next happening).tap.heldModifiers vk =
      (remembered self.tap.heldModifiers vk ^^ decide (happening.reported = some vk)) := by
  have untold : ∀ held, remembered held vk = (remembered held vk ^^ decide (none = some vk)) := by simp
  cases happening with
  | missed other => exact untold _
  | tapped suppressed event =>
    cases event with
    | disabled => exact untold _
    | event injected event =>
      cases injected with
      | true => exact untold _
      | false =>
        cases event with
        | flagsChanged other flags =>
          rw [next]
          dsimp only
          rw [(handle_flagsChanged self.tap suppressed other flags).2, Happening.reported]
          split
          · rename_i told
            rw [(toggleModifier_eq _ told).2 vk]
            simp
          · exact untold _
        | _ => exact untold _

def missedChanges (vk : UInt16) (happenings : List Happening) : Nat := happenings.countP (· = .missed vk)

theorem missedChanges_concat (vk : UInt16) (earlier : List Happening) (last : Happening) :
    missedChanges vk (earlier ++ [last]) = missedChanges vk earlier + if last = .missed vk then 1 else 0 := by
  simp [missedChanges, List.countP_append, List.countP_singleton]

/-- A key is taken for what it is exactly where, counting that it may have been held when
the tap started, an even number of its changes have been missed. -/
theorem remembered_after (held : UInt16 → Bool) (happenings : List Happening) (vk : UInt16) :
    remembered (after held happenings).tap.heldModifiers vk =
      ((after held happenings).down vk ^^ !decide (Even ((held vk).toNat + missedChanges vk happenings))) := by
  induction happenings using List.reverseRecOn with
  | nil =>
    have nothing : remembered 0 vk = false := BitVec.getLsbD_zero
    change remembered 0 vk = (held vk ^^ !decide (Even ((held vk).toNat + 0)))
    rw [nothing]
    cases held vk <;> decide
  | append_singleton earlier last ih =>
    rw [after_concat, remembered_next, ih, missedChanges_concat]
    cases last with
    | tapped suppressed event =>
      rw [if_neg (by simp), Nat.add_zero]
      exact Bool.xor_right_comm _ _ _
    | missed other =>
      by_cases same : other = vk
      · subst same
        rw [if_pos rfl, ← Nat.add_assoc, decide_eq_decide.mpr Nat.even_add_one, decide_not]
        simp only [next, Happening.changed, Happening.reported, reduceCtorEq, decide_false, decide_true,
          Bool.xor_false, Bool.xor_true, Bool.not_not, Bool.xor_not, Bool.not_xor]
      · have apart : (Happening.missed other = .missed vk) = False := by simp [same]
        have apart' : (some other = some vk) = False := by simp [same]
        simp only [next, Happening.changed, Happening.reported, reduceCtorEq, apart, apart', if_false, decide_false,
          Bool.xor_false, Nat.add_zero]

/-- The tap is told of a change of the key at this point, and of an earlier one since it last
missed anything. -/
structure Again (before : List Happening) (vk : UInt16) : Prop where
  momentary : momentary vk = true
  earlier : ∃ start report rest, before = start ++ report :: rest ∧ report.reported = some vk ∧
    ∀ happening ∈ rest, ∀ other, happening ≠ .missed other

/-- A key that was up is told to have been pressed, one that was down to have been released. -/
def Told (held : UInt16 → Bool) (before : List Happening) (suppressed : Bool) (vk : UInt16)
    (flags : CGEventFlags) : Prop :=
  ∃ code, hidFromVk vk = some code ∧
    ((after held before).tap.handle suppressed (.event false (.flagsChanged vk flags))).1 =
      [.key code (if (after held before).down vk then .release else .press) (modifiersFromFlags flags)]

theorem told_iff (held : UInt16 → Bool) (before : List Happening) (suppressed : Bool) (flags : CGEventFlags)
    (known : momentary vk = true) :
    Told held before suppressed vk flags ↔ Even ((held vk).toNat + missedChanges vk before) := by
  obtain ⟨code, mapped, sent⟩ := (handle_flagsChanged (after held before).tap suppressed vk flags).1 known
  have taken := remembered_after held before vk
  have action := (toggleModifier_eq (after held before).tap.heldModifiers known).1
  rw [taken] at action
  rw [Told, sent, action]
  by_cases even : Even ((held vk).toNat + missedChanges vk before)
  · refine iff_of_true ⟨code, mapped, ?_⟩ even
    simp [even]
  · refine iff_of_false ?_ even
    rintro ⟨_, _, same⟩
    cases down : (after held before).down vk <;> simp [even, down] at same

/-- Whatever is held when the tap starts and whatever it misses, every change of a modifier
key after its first since is told the right way, exactly if at each of them the key has been
turned an even number of times behind the tap's back. -/
theorem told_along_iff (held : UInt16 → Bool) (happenings : List Happening) :
    (∀ before suppressed vk flags, before ++ [.change suppressed vk flags] <+: happenings →
      Again before vk → Told held before suppressed vk flags) ↔
    ∀ before suppressed vk flags, before ++ [.change suppressed vk flags] <+: happenings →
      Again before vk → Even ((held vk).toNat + missedChanges vk before) := by
  constructor
  · intro told before suppressed vk flags start again
    have here := told before suppressed vk flags start again
    exact (told_iff held before suppressed flags again.momentary).mp here
  · intro even before suppressed vk flags start again
    have here := even before suppressed vk flags start again
    exact (told_iff held before suppressed flags again.momentary).mpr here

/-- The left Shift is held when the tap starts. It comes up, and when it goes down again it is
told to have been released. -/
theorem told_along_held : ¬ ∀ (held : UInt16 → Bool) (happenings : List Happening) before suppressed vk flags,
    before ++ [.change suppressed vk flags] <+: happenings →
      Again before vk → Told held before suppressed vk flags := by
  intro always
  let up : Happening := .change false 56 ⟨false, false, false, false, false⟩
  let down : Happening := .change false 56 ⟨false, true, false, false, false⟩
  have again : Again [up] 56 := ⟨by decide, [], up, [], rfl, by decide, by simp⟩
  have told := always (· = 56) [up, down] [up] false 56 _ List.prefix_rfl again
  have even := (told_iff _ _ _ _ (by decide)).mp told
  exact absurd even (by decide)

end Keyboard
end Omnipresent.Macos
