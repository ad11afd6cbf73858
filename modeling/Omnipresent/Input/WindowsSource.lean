import Omnipresent.Input.HeldModifiers
import Omnipresent.Input.Keymap

/-! Capture on Windows: the low-level keyboard hook, which sees every keystroke before the
rest of the system and keeps those the OS does not flag as injected. -/
namespace Omnipresent

/-- `KBDLLHOOKSTRUCT`. -/
structure KeyboardHookInfo where
  vkCode : UInt32
  flags : UInt32
deriving DecidableEq, Repr

inductive HookResult where
  | swallow
  | callNext
deriving DecidableEq, Repr

def hcAction : Int32 := 0
def llkhfExtended : UInt32 := 0x01
def llkhfInjected : UInt32 := 0x10
def wmKeyDown : UInt32 := 0x0100
def wmKeyUp : UInt32 := 0x0101
def wmSysKeyDown : UInt32 := 0x0104
def wmSysKeyUp : UInt32 := 0x0105

/-- Left, right and generic alike. -/
def modifierBit (vk : UInt32) : Option UInt8 :=
  modifierMaskOf [0xA0, 0xA1, 0x10] [0xA2, 0xA3, 0x11] [0xA4, 0xA5, 0x12] [0x5B, 0x5C] vk

def keyMessage (message : UInt32) : Option Action :=
  if message = wmKeyDown ∨ message = wmSysKeyDown then some .press
  else if message = wmKeyUp ∨ message = wmSysKeyUp then some .release
  else none

/-- One call of the hook: the held modifiers it leaves, the event it queues, and what becomes
of the keystroke. -/
def keyboardProc (modifiers : UInt8) (suppressed : Bool) (code : Int32) (wparam : UInt64) (info : KeyboardHookInfo) :
    UInt8 × Option InputEvent × HookResult :=
  if code ≠ hcAction then (modifiers, none, .callNext)
  else if info.flags &&& llkhfInjected ≠ 0 then (modifiers, none, .callNext)
  else match keyMessage wparam.toUInt32 with
    | none => (modifiers, none, .callNext)
    | some action =>
      let vk := info.vkCode
      let modifiers := match modifierBit vk with
        | some bit => fetchModifier modifiers bit action
        | none => modifiers
      let extended := info.flags &&& llkhfExtended ≠ 0
      let event := (hidFromVk vk.toUInt16 extended).map fun hid => .key hid action (heldModifiers modifiers)
      (modifiers, event, if suppressed then .swallow else .callNext)

/-- A call of the hook as the OS makes it, and the keyboard it is about, of which the hook is
not told. -/
structure HookCall (Keyboard : Type) where
  keyboard : Keyboard
  suppressed : Bool
  code : Int32
  wparam : UInt64
  info : KeyboardHookInfo
deriving DecidableEq, Repr

def HookCall.stroke (call : HookCall Keyboard) : Option ((Keyboard × UInt32) × Action) :=
  if call.code ≠ hcAction ∨ call.info.flags &&& llkhfInjected ≠ 0 then none
  else (keyMessage call.wparam.toUInt32).map fun action => ((call.keyboard, call.info.vkCode), action)

theorem keyboardProc_modifiers (modifiers : UInt8) (call : HookCall Keyboard) :
    (keyboardProc modifiers call.suppressed call.code call.wparam call.info).1 =
      strokeModifiers (fun key : Keyboard × UInt32 => modifierBit key.2) modifiers call.stroke := by
  rw [keyboardProc, HookCall.stroke]
  by_cases code : call.code ≠ hcAction
  · rw [if_pos code, if_pos (.inl code)]
    rfl
  · by_cases injected : call.info.flags &&& llkhfInjected ≠ 0
    · rw [if_neg code, if_pos injected, if_pos (.inr injected)]
      rfl
    · rw [if_neg code, if_neg injected, if_neg (not_or.mpr ⟨code, injected⟩)]
      cases keyMessage call.wparam.toUInt32 with
      | none => rfl
      | some action =>
        rw [Option.map_some, strokeModifiers]
        cases bit : modifierBit call.info.vkCode <;> simp only [bit] <;> rfl

/-- The modifiers on a key are those the call leaves. -/
theorem keyboardProc_stamp (queued : (keyboardProc modifiers suppressed code wparam info).2.1 =
    some (.key hid action stamp)) :
    stamp = heldModifiers (keyboardProc modifiers suppressed code wparam info).1 := by
  rw [keyboardProc] at queued ⊢
  by_cases code : code ≠ hcAction
  · rw [if_pos code] at queued
    cases queued
  · by_cases injected : info.flags &&& llkhfInjected ≠ 0
    · rw [if_neg code, if_pos injected] at queued
      cases queued
    · rw [if_neg code, if_neg injected] at queued ⊢
      cases message : keyMessage wparam.toUInt32 with
      | none =>
        rw [message] at queued
        cases queued
      | some struck =>
        rw [message] at queued
        obtain ⟨hid, _, same⟩ := Option.map_eq_some_iff.mp queued
        cases same
        rfl

def windowsHook (Keyboard : Type) : KeySource UInt8 (HookCall Keyboard) (Keyboard × UInt32) where
  handle modifiers call :=
    let result := keyboardProc modifiers call.suppressed call.code call.wparam call.info
    (result.1, result.2.1)
  modifiers := id
  stroke := HookCall.stroke
  mask key := modifierBit key.2
  known := modifierMaskOf_known
  follows := keyboardProc_modifiers
  stamped := keyboardProc_stamp

end Omnipresent
