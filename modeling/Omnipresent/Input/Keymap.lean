import Omnipresent.Protocol.Input

/-! Windows virtual keys and the HID usages they stand for, in one table which is read
both ways. -/
namespace Omnipresent

def vkReturn : UInt16 := 0x0D

/-- Every pair of a virtual key and a usage; neither is there twice. -/
def vkHid : List (UInt16 × UInt32) :=
  [
    -- Letters
    (0x41, 0x04), (0x42, 0x05), (0x43, 0x06), (0x44, 0x07), (0x45, 0x08), (0x46, 0x09), (0x47, 0x0A),
    (0x48, 0x0B), (0x49, 0x0C), (0x4A, 0x0D), (0x4B, 0x0E), (0x4C, 0x0F), (0x4D, 0x10), (0x4E, 0x11),
    (0x4F, 0x12), (0x50, 0x13), (0x51, 0x14), (0x52, 0x15), (0x53, 0x16), (0x54, 0x17), (0x55, 0x18),
    (0x56, 0x19), (0x57, 0x1A), (0x58, 0x1B), (0x59, 0x1C), (0x5A, 0x1D),
    -- Number row
    (0x31, 0x1E), (0x32, 0x1F), (0x33, 0x20), (0x34, 0x21), (0x35, 0x22), (0x36, 0x23), (0x37, 0x24),
    (0x38, 0x25), (0x39, 0x26), (0x30, 0x27),
    -- Controls and punctuation
    (0x0D, 0x28), (0x1B, 0x29), (0x08, 0x2A), (0x09, 0x2B), (0x20, 0x2C), (0xBD, 0x2D), (0xBB, 0x2E),
    (0xDB, 0x2F), (0xDD, 0x30), (0xDC, 0x31), (0xBA, 0x33), (0xDE, 0x34), (0xC0, 0x35), (0xBC, 0x36),
    (0xBE, 0x37), (0xBF, 0x38), (0x14, 0x39), (0xE2, 0x64), (0x5D, 0x65),
    -- Function row
    (0x70, 0x3A), (0x71, 0x3B), (0x72, 0x3C), (0x73, 0x3D), (0x74, 0x3E), (0x75, 0x3F), (0x76, 0x40),
    (0x77, 0x41), (0x78, 0x42), (0x79, 0x43), (0x7A, 0x44), (0x7B, 0x45), (0x7C, 0x68), (0x7D, 0x69),
    (0x7E, 0x6A), (0x7F, 0x6B), (0x80, 0x6C), (0x81, 0x6D), (0x82, 0x6E), (0x83, 0x6F), (0x84, 0x70),
    (0x85, 0x71), (0x86, 0x72), (0x87, 0x73),
    -- System keys
    (0x2C, 0x46), (0x91, 0x47), (0x13, 0x48),
    -- Navigation block
    (0x2D, 0x49), (0x24, 0x4A), (0x21, 0x4B), (0x2E, 0x4C), (0x23, 0x4D), (0x22, 0x4E), (0x27, 0x4F),
    (0x25, 0x50), (0x28, 0x51), (0x26, 0x52),
    -- Keypad
    (0x90, 0x53), (0x6F, 0x54), (0x6A, 0x55), (0x6D, 0x56), (0x6B, 0x57), (0x61, 0x59), (0x62, 0x5A),
    (0x63, 0x5B), (0x64, 0x5C), (0x65, 0x5D), (0x66, 0x5E), (0x67, 0x5F), (0x68, 0x60), (0x69, 0x61),
    (0x60, 0x62), (0x6E, 0x63),
    -- Modifiers
    (0xA2, 0xE0), (0xA0, 0xE1), (0xA4, 0xE2), (0x5B, 0xE3), (0xA3, 0xE4), (0xA1, 0xE5), (0xA5, 0xE6),
    (0x5C, 0xE7)
  ]

/-- A Windows key to synthesize, and whether it needs the extended flag. -/
structure VirtualKey where
  vk : UInt16
  extended : Bool
deriving DecidableEq, Repr

namespace KeyCode

def return' : KeyCode := ⟨0x28⟩

def keypadEnter : KeyCode := ⟨0x58⟩

end KeyCode

/-- The keys that share a make-code with one of the keypad. -/
def needsExtendedFlag (vk : UInt16) : Bool :=
  vk ∈ [0x21, 0x22, 0x23, 0x24, 0x25, 0x26, 0x27, 0x28, 0x2D, 0x2E, 0xA3, 0xA5, 0x5B, 0x5C, 0x5D, 0x6F, 0x90, 0x2C]

/-- Both Enters are one virtual key, which the extended bit tells apart. -/
def hidFromVk (vk : UInt16) (extended : Bool) : Option KeyCode :=
  if vk = vkReturn then some (if extended then .keypadEnter else .return')
  else (vkHid.find? fun entry => entry.1 = vk).map fun entry => ⟨entry.2⟩

def vkFromHid (code : KeyCode) : Option VirtualKey :=
  if code = .keypadEnter then some ⟨vkReturn, true⟩
  else (vkHid.find? fun entry => entry.2 = code.value).map fun entry => ⟨entry.1, needsExtendedFlag entry.1⟩

theorem mem_of_find_map {table : List α} {wanted : α → Bool} {f : α → β}
    (mapped : (table.find? wanted).map f = some result) :
    ∃ entry ∈ table, wanted entry = true ∧ f entry = result := by
  obtain ⟨entry, found, same⟩ := Option.map_eq_some_iff.mp mapped
  exact ⟨entry, List.mem_of_find?_eq_some found, List.find?_some found, same⟩

/-- A key is synthesized from its entry in the table, unless it is the Enter of the keypad. -/
theorem vkFromHid_cases {code : KeyCode} (mapped : vkFromHid code = some key) :
    (code = .keypadEnter ∧ key = ⟨vkReturn, true⟩) ∨
      ((key.vk, code.value) ∈ vkHid ∧ key.extended = needsExtendedFlag key.vk) := by
  rw [vkFromHid] at mapped
  split at mapped
  · exact .inl ⟨‹_›, (Option.some.inj mapped).symm⟩
  · obtain ⟨⟨vk, usage⟩, listed, same, rfl⟩ := mem_of_find_map mapped
    obtain rfl : usage = code.value := by simpa using same
    exact .inr ⟨listed, rfl⟩

/-- What a key is synthesized as is read back as that key. -/
theorem hidFromVk_vkFromHid {code : KeyCode} (mapped : vkFromHid code = some key) :
    hidFromVk key.vk key.extended = some code := by
  have every : vkHid.all (fun entry => hidFromVk entry.1 (needsExtendedFlag entry.1) = some ⟨entry.2⟩) = true := by
    decide +kernel
  rcases vkFromHid_cases mapped with ⟨rfl, rfl⟩ | ⟨listed, extended⟩
  · rfl
  · rw [extended]
    exact of_decide_eq_true (List.all_eq_true.mp every _ listed)

def Modifiers.virtualKeys (self : Modifiers) : UInt16 × UInt16 :=
  if self = shift then (0xA0, 0xA1)
  else if self = control then (0xA2, 0xA3)
  else if self = alt then (0xA4, 0xA5)
  else (0x5B, 0x5C)

def modifierOfVk (vk : UInt16) : Option Modifiers :=
  Modifiers.all.find? fun modifier => vk = modifier.virtualKeys.1 ∨ vk = modifier.virtualKeys.2

/-- A key and what it is synthesized as control the same modifier, or neither does. -/
theorem modifierOfVk_vkFromHid {code : KeyCode} (mapped : vkFromHid code = some key) :
    modifierOfVk key.vk = code.modifier := by
  have every : vkHid.all (fun entry => modifierOfVk entry.1 = KeyCode.modifier ⟨entry.2⟩) = true := by decide +kernel
  rcases vkFromHid_cases mapped with ⟨rfl, rfl⟩ | ⟨listed, _⟩
  · decide
  · exact of_decide_eq_true (List.all_eq_true.mp every _ listed)

/-- Every modifier key has one to be synthesized as. -/
theorem vkFromHid_modifier {code : KeyCode} (controls : code.modifier = some modifier) :
    ∃ key, vkFromHid code = some key := by
  have every : List.all ([0xE0, 0xE1, 0xE2, 0xE3, 0xE4, 0xE5, 0xE6, 0xE7] : List UInt32)
      (fun usage => (vkFromHid ⟨usage⟩).isSome) = true := by decide +kernel
  have listed : code.value ∈ ([0xE0, 0xE1, 0xE2, 0xE3, 0xE4, 0xE5, 0xE6, 0xE7] : List UInt32) := by
    rw [KeyCode.modifier] at controls
    simp only [List.mem_cons, List.not_mem_nil, or_false]
    grind
  exact Option.isSome_iff_exists.mp (List.all_eq_true.mp every code.value listed)

theorem modifier_mem_all {code : KeyCode} (controls : code.modifier = some modifier) : modifier ∈ Modifiers.all := by
  rw [KeyCode.modifier] at controls
  split at controls
  · cases controls
    decide
  · split at controls
    · cases controls
      decide
    · split at controls
      · cases controls
        decide
      · split at controls
        · cases controls
          decide
        · cases controls

end Omnipresent
