import Omnipresent.Protocol.Input

/-! Capture on macOS: an event tap. A change of a modifier key does not say which way the key
went, so which ones are held is remembered, a bit for each. -/
namespace Omnipresent.Macos

/-- Every pair of a virtual key and a usage; neither is there twice. -/
def vkHid : List (UInt16 × UInt32) :=
  [
    -- Letters
    (0, 0x04), (11, 0x05), (8, 0x06), (2, 0x07), (14, 0x08), (3, 0x09), (5, 0x0A), (4, 0x0B), (34, 0x0C),
    (38, 0x0D), (40, 0x0E), (37, 0x0F), (46, 0x10), (45, 0x11), (31, 0x12), (35, 0x13), (12, 0x14), (15, 0x15),
    (1, 0x16), (17, 0x17), (32, 0x18), (9, 0x19), (13, 0x1A), (7, 0x1B), (16, 0x1C), (6, 0x1D),
    -- Number row
    (18, 0x1E), (19, 0x1F), (20, 0x20), (21, 0x21), (23, 0x22), (22, 0x23), (26, 0x24), (28, 0x25), (25, 0x26),
    (29, 0x27),
    -- Controls and punctuation
    (36, 0x28), (53, 0x29), (51, 0x2A), (48, 0x2B), (49, 0x2C), (27, 0x2D), (24, 0x2E), (33, 0x2F), (30, 0x30),
    (42, 0x31), (41, 0x33), (39, 0x34), (50, 0x35), (43, 0x36), (47, 0x37), (44, 0x38), (57, 0x39), (10, 0x64),
    (110, 0x65),
    -- Function row
    (122, 0x3A), (120, 0x3B), (99, 0x3C), (118, 0x3D), (96, 0x3E), (97, 0x3F), (98, 0x40), (100, 0x41),
    (101, 0x42), (109, 0x43), (103, 0x44), (111, 0x45), (105, 0x68), (107, 0x69), (113, 0x6A), (106, 0x6B),
    (64, 0x6C), (79, 0x6D), (80, 0x6E), (90, 0x6F),
    -- Navigation block
    (114, 0x49), (115, 0x4A), (116, 0x4B), (117, 0x4C), (119, 0x4D), (121, 0x4E), (124, 0x4F), (123, 0x50),
    (125, 0x51), (126, 0x52),
    -- Keypad
    (71, 0x53), (75, 0x54), (67, 0x55), (78, 0x56), (69, 0x57), (76, 0x58), (83, 0x59), (84, 0x5A), (85, 0x5B),
    (86, 0x5C), (87, 0x5D), (88, 0x5E), (89, 0x5F), (91, 0x60), (92, 0x61), (82, 0x62), (65, 0x63), (81, 0x67),
    -- Modifiers
    (59, 0xE0), (56, 0xE1), (58, 0xE2), (55, 0xE3), (62, 0xE4), (60, 0xE5), (61, 0xE6), (54, 0xE7)
  ]

def hidFromVk (vk : UInt16) : Option KeyCode := (vkHid.find? fun entry => entry.1 = vk).map fun entry => ⟨entry.2⟩

/-- Which of the flags an event carries are set. -/
structure CGEventFlags where
  alphaShift : Bool
  shift : Bool
  control : Bool
  alternate : Bool
  command : Bool
deriving DecidableEq, Repr

def modifiersFromFlags (flags : CGEventFlags) : Modifiers :=
  let modifiers := Modifiers.none
  let modifiers := if flags.shift then modifiers.with' .shift else modifiers
  let modifiers := if flags.control then modifiers.with' .control else modifiers
  let modifiers := if flags.alternate then modifiers.with' .alt else modifiers
  if flags.command then modifiers.with' .meta' else modifiers

def capsLockVk : UInt16 := 57

/-- `KeyCode::CAPS_LOCK`. -/
def capsLock : KeyCode := ⟨0x39⟩

def isModifierVk (vk : UInt16) : Bool := 54 ≤ vk ∧ vk ≤ 62

/-- Caps Lock latches, so a change of it is a press and a release; a report that nothing
changed is nothing. -/
def capsLockTap (previous now : Bool) (modifiers : Modifiers) : List InputEvent :=
  if previous = now then [] else [.key capsLock .press modifiers, .key capsLock .release modifiers]

/-- An unseen key is a press, a held key is a release. -/
def toggleModifier (held : UInt64) (vk : UInt16) : UInt64 × Action :=
  let bit := (1 : UInt64) <<< (vk % 64).toUInt64
  if held &&& bit ≠ 0 then (held &&& ~~~bit, .release) else (held ||| bit, .press)

def buttonFromCgNumber (number : Int64) : MouseButton :=
  if number = 0 then .left
  else if number = 1 then .right
  else if number = 2 then .middle
  else if number = 3 then .back
  else if number = 4 then .forward
  else .other (UInt8.ofNat (max 0 (min number.toInt 255)).toNat)

/-- An event of the tap, with the fields that are read of it. A scroll has its distances in
milli-lines, as they are made of the fractions of a line that the OS gives. -/
inductive CGEvent where
  | key (vk : UInt16) (action : Action) (flags : CGEventFlags)
  | flagsChanged (vk : UInt16) (flags : CGEventFlags)
  | mouseMoved (deltaX deltaY : Int64)
  | mouseButton (number : Int64) (action : Action)
  | scrollWheel (dx dy : Int32)
  | other
deriving DecidableEq, Repr

/-- Translates an event into one of the protocol's, with what is held then. -/
def convertOne (event : CGEvent) (heldModifiers : UInt64) : Option InputEvent × UInt64 :=
  match event with
  | .key vk action flags =>
    ((hidFromVk vk).map fun code => .key code action (modifiersFromFlags flags), heldModifiers)
  | .flagsChanged vk flags =>
    if isModifierVk vk then
      match hidFromVk vk with
      | none => (none, heldModifiers)
      | some code =>
        let (held, action) := toggleModifier heldModifiers vk
        (some (.key code action (modifiersFromFlags flags)), held)
    else (none, heldModifiers)
  | .mouseMoved deltaX deltaY => (some (.motion ⟨deltaX.toInt32, deltaY.toInt32⟩), heldModifiers)
  | .mouseButton number action => (some (.button (buttonFromCgNumber number) action), heldModifiers)
  | .scrollWheel dx dy => (if dx = 0 ∧ dy = 0 then none else some (.scroll ⟨dx, dy⟩), heldModifiers)
  | .other => (none, heldModifiers)

structure Tap where
  heldModifiers : UInt64
  capsLockOn : Bool
deriving DecidableEq, Repr

def Tap.new : Tap := ⟨0, false⟩

/-- Caps Lock is read from the flags, whatever key has changed besides. -/
def convertEvent (event : CGEvent) (tap : Tap) : List InputEvent × Tap :=
  let one (event : CGEvent) : List InputEvent × Tap :=
    let (converted, held) := convertOne event tap.heldModifiers
    (converted.toList, { tap with heldModifiers := held })
  match event with
  | .flagsChanged vk flags =>
    if vk = capsLockVk then
      (capsLockTap tap.capsLockOn flags.alphaShift (modifiersFromFlags flags),
        { tap with capsLockOn := flags.alphaShift })
    else one event
  | event => one event

inductive TapEvent where
  /-- The OS disabled the tap, which is enabled again. -/
  | disabled
  | event (injected : Bool) (event : CGEvent)
deriving DecidableEq, Repr

/-- What becomes of the event: it goes on to the rest of the system, or no further. -/
inductive CallbackResult where
  | keep
  | drop
deriving DecidableEq, Repr

/-- The callback: what it sends, what it keeps, and what becomes of the event. -/
def Tap.handle (self : Tap) (suppressed : Bool) : TapEvent → List InputEvent × Tap × CallbackResult
  | .disabled => ([], self, .keep)
  -- Never re-capture what this daemon injected itself.
  | .event true _ => ([], self, .keep)
  | .event false event =>
    let (sent, tap) := convertEvent event self
    (sent, tap, if suppressed then .drop else .keep)

end Omnipresent.Macos
