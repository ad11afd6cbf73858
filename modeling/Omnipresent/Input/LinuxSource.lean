import Omnipresent.Input.HeldModifiers
import Omnipresent.Input.Scroll

/-! Capture on Linux: a reader for each evdev device, all with one byte of held modifiers
between them, and each with the motion of the frame it is in. -/
namespace Omnipresent

/-- Every pair of an evdev key code and a usage, read both ways. -/
def evdevHid : List (UInt16 × UInt32) :=
  [
    (1, 0x29), (2, 0x1E), (3, 0x1F), (4, 0x20), (5, 0x21), (6, 0x22), (7, 0x23), (8, 0x24), (9, 0x25),
    (10, 0x26), (11, 0x27), (12, 0x2D), (13, 0x2E), (14, 0x2A), (15, 0x2B), (16, 0x14), (17, 0x1A), (18, 0x08),
    (19, 0x15), (20, 0x17), (21, 0x1C), (22, 0x18), (23, 0x0C), (24, 0x12), (25, 0x13), (26, 0x2F), (27, 0x30),
    (28, 0x28), (29, 0xE0), (30, 0x04), (31, 0x16), (32, 0x07), (33, 0x09), (34, 0x0A), (35, 0x0B), (36, 0x0D),
    (37, 0x0E), (38, 0x0F), (39, 0x33), (40, 0x34), (41, 0x35), (42, 0xE1), (43, 0x31), (44, 0x1D), (45, 0x1B),
    (46, 0x06), (47, 0x19), (48, 0x05), (49, 0x11), (50, 0x10), (51, 0x36), (52, 0x37), (53, 0x38), (54, 0xE5),
    (55, 0x55), (56, 0xE2), (57, 0x2C), (58, 0x39), (59, 0x3A), (60, 0x3B), (61, 0x3C), (62, 0x3D), (63, 0x3E),
    (64, 0x3F), (65, 0x40), (66, 0x41), (67, 0x42), (68, 0x43), (69, 0x53), (70, 0x47), (71, 0x5F), (72, 0x60),
    (73, 0x61), (74, 0x56), (75, 0x5C), (76, 0x5D), (77, 0x5E), (78, 0x57), (79, 0x59), (80, 0x5A), (81, 0x5B),
    (82, 0x62), (83, 0x63), (86, 0x64), (87, 0x44), (88, 0x45), (96, 0x58), (97, 0xE4), (98, 0x54), (99, 0x46),
    (100, 0xE6), (102, 0x4A), (103, 0x52), (104, 0x4B), (105, 0x50), (106, 0x4F), (107, 0x4D), (108, 0x51),
    (109, 0x4E), (110, 0x49), (111, 0x4C), (117, 0x67), (119, 0x48), (125, 0xE3), (126, 0xE7), (127, 0x65),
    (183, 0x68), (184, 0x69), (185, 0x6A), (186, 0x6B), (187, 0x6C), (188, 0x6D), (189, 0x6E), (190, 0x6F)
  ]

def hidFromEvdev (code : UInt16) : Option KeyCode :=
  (evdevHid.find? fun entry => entry.1 = code).map fun entry => ⟨entry.2⟩

def buttonFromEvdev (code : UInt16) : Option MouseButton :=
  if code = 0x110 then some .left
  else if code = 0x111 then some .right
  else if code = 0x112 then some .middle
  else if code = 0x113 then some .back
  else if code = 0x114 then some .forward
  else none

def modifierMask (code : UInt16) : Option UInt8 := modifierMaskOf [42, 54] [29, 97] [56, 100] [125, 126] code

def updateModifiers (modifiers : UInt8) (code : UInt16) (action : Action) : UInt8 :=
  match modifierMask code with
  | none => modifiers
  | some mask => fetchModifier modifiers mask action

inductive RelativeAxis where
  | relX
  | relY
  | relWheel
  | relHWheel
  | other
deriving DecidableEq, Repr

inductive EventSummary where
  | key (code : UInt16) (value : Int32)
  | relativeAxis (axis : RelativeAxis) (value : Int32)
  | synchronization
  | other
deriving DecidableEq, Repr

/-- Translates one evdev event, with the frame's motion and the held modifiers it leaves.
Sums and products go around the end of an `i32`. -/
def convertEvent (raw : EventSummary) (pending : MouseDelta) (modifiers : UInt8) :
    Option InputEvent × MouseDelta × UInt8 :=
  match raw with
  | .key code value =>
    let action := if value = 0 then Action.release else .press
    match buttonFromEvdev code with
    | some button => (some (.button button action), pending, modifiers)
    | none =>
      -- The autorepeat of a modifier carries no information.
      if value = 2 ∧ (modifierMask code).isSome then (none, pending, modifiers)
      else
        let modifiers := updateModifiers modifiers code action
        ((hidFromEvdev code).map fun hid => .key hid action (heldModifiers modifiers), pending, modifiers)
  | .relativeAxis axis value =>
    match axis with
    | .relX => (none, { pending with dx := pending.dx + value }, modifiers)
    | .relY => (none, { pending with dy := pending.dy + value }, modifiers)
    | .relWheel => (some (.scroll ⟨0, value * millilinesPerLine⟩), pending, modifiers)
    | .relHWheel => (some (.scroll ⟨value * millilinesPerLine, 0⟩), pending, modifiers)
    | .other => (none, pending, modifiers)
  | .synchronization =>
    if pending.dx ≠ 0 ∨ pending.dy ≠ 0 then (some (.motion pending), ⟨0, 0⟩, modifiers)
    else (none, pending, modifiers)
  | .other => (none, pending, modifiers)

structure LinuxReaders (Device : Type) where
  modifiers : UInt8
  pending : Device → MouseDelta

structure DeviceEvent (Device : Type) where
  device : Device
  raw : EventSummary
deriving DecidableEq, Repr

variable {Device : Type}

namespace LinuxReaders

def new : LinuxReaders Device := ⟨0, fun _ => ⟨0, 0⟩⟩

def read [DecidableEq Device] (self : LinuxReaders Device) (event : DeviceEvent Device) :
    LinuxReaders Device × Option InputEvent :=
  let (converted, pending, modifiers) := convertEvent event.raw (self.pending event.device) self.modifiers
  (⟨modifiers, Function.update self.pending event.device pending⟩, converted)

end LinuxReaders

/-- The press or release of a key; the autorepeat of one is neither. -/
def DeviceEvent.stroke (event : DeviceEvent Device) : Option ((Device × UInt16) × Action) :=
  match event.raw with
  | .key code value =>
    if value = 2 then none else some ((event.device, code), if value = 0 then .release else .press)
  | _ => none

theorem modifierMask_button (pressed : buttonFromEvdev code = some button) : modifierMask code = none := by
  rw [buttonFromEvdev] at pressed
  grind [modifierMask, modifierMaskOf]

theorem updateModifiers_eq (device : Device) (modifiers : UInt8) (code : UInt16) (action : Action) :
    updateModifiers modifiers code action =
      strokeModifiers (fun key : Device × UInt16 => modifierMask key.2) modifiers
        (some ((device, code), action)) := by
  rw [updateModifiers, strokeModifiers]
  cases modifierMask code <;> rfl

theorem updateModifiers_of_none (none' : modifierMask code = none) (modifiers : UInt8) (action : Action) :
    updateModifiers modifiers code action = modifiers := by
  rw [updateModifiers, none']

/-- What a key event leaves of the held modifiers: a repeat is of a modifier and dropped, or
of another key and leaves them alone. -/
theorem convertEvent_modifiers (device : Device) (raw : EventSummary) (pending : MouseDelta) (modifiers : UInt8) :
    (convertEvent raw pending modifiers).2.2 =
      strokeModifiers (fun key : Device × UInt16 => modifierMask key.2) modifiers
        (DeviceEvent.stroke ⟨device, raw⟩) := by
  cases raw with
  | key code value =>
    have stroke : DeviceEvent.stroke ⟨device, .key code value⟩ =
        if value = 2 then none else some ((device, code), if value = 0 then .release else .press) := rfl
    rw [convertEvent, stroke]
    by_cases again : value = 2
    · rw [if_pos again, strokeModifiers]
      cases pressed : buttonFromEvdev code with
      | some button => rfl
      | none =>
        cases mask : modifierMask code with
        | none => simp [updateModifiers_of_none mask]
        | some bits => simp [again]
    · rw [if_neg again, ← updateModifiers_eq]
      cases pressed : buttonFromEvdev code with
      | some button => rw [updateModifiers_of_none (modifierMask_button pressed)]
      | none => simp [again]
  | relativeAxis axis value => cases axis <;> rfl
  | synchronization =>
    rw [convertEvent]
    split <;> rfl
  | other => rfl

/-- The modifiers on a key are those the event leaves. -/
theorem convertEvent_stamp (sent : (convertEvent raw pending modifiers).1 = some (.key hid action stamp)) :
    stamp = heldModifiers (convertEvent raw pending modifiers).2.2 := by
  cases raw with
  | key code value =>
    rw [convertEvent] at sent ⊢
    cases pressed : buttonFromEvdev code with
    | some button =>
      rw [pressed] at sent
      cases sent
    | none =>
      simp only [pressed] at sent ⊢
      split at sent
      · cases sent
      · rename_i told
        rw [if_neg told]
        obtain ⟨usage, _, same⟩ := Option.map_eq_some_iff.mp sent
        cases same
        rfl
  | relativeAxis axis value => cases axis <;> cases sent
  | synchronization =>
    rw [convertEvent] at sent
    split at sent <;> cases sent
  | other => cases sent

def evdevReaders (Device : Type) [DecidableEq Device] :
    KeySource (LinuxReaders Device) (DeviceEvent Device) (Device × UInt16) where
  handle := LinuxReaders.read
  modifiers := LinuxReaders.modifiers
  stroke := DeviceEvent.stroke
  mask key := modifierMask key.2
  known := modifierMaskOf_known
  follows _ event := convertEvent_modifiers event.device event.raw _ _
  stamped := convertEvent_stamp

end Omnipresent
