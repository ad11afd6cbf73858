import Omnipresent.Input.LinuxSource
import Omnipresent.Input.WindowsSource

/-! The modifiers stamped on captured keys, on Windows and on Linux: they are those held
until of two keys of one modifier that are down together one is released. -/
namespace Omnipresent

/-- A virtual key has the bit of the modifier that its usage names. -/
theorem modifierBit_hidFromVk (mapped : hidFromVk vk extended = some code) :
    modifierBit vk.toUInt32 = code.modifier.map Modifiers.bits := by
  have every : vkHid.all (fun entry =>
      modifierBit entry.1.toUInt32 = (KeyCode.modifier ⟨entry.2⟩).map Modifiers.bits) = true := by decide +kernel
  rw [hidFromVk] at mapped
  split at mapped
  · rename_i enter
    cases mapped
    subst enter
    cases extended <;> decide
  · obtain ⟨entry, listed, same, rfl⟩ := mem_of_find_map mapped
    obtain rfl := of_decide_eq_true same
    exact of_decide_eq_true (List.all_eq_true.mp every entry listed)

theorem modifierMask_hidFromEvdev (mapped : hidFromEvdev key = some code) :
    modifierMask key = code.modifier.map Modifiers.bits := by
  have every : evdevHid.all (fun entry =>
      modifierMask entry.1 = (KeyCode.modifier ⟨entry.2⟩).map Modifiers.bits) = true := by decide +kernel
  obtain ⟨entry, listed, same, rfl⟩ := mem_of_find_map mapped
  obtain rfl := of_decide_eq_true same
  exact of_decide_eq_true (List.all_eq_true.mp every entry listed)

/-- After any sequence of captured events from nothing held, a key event the hook or a reader
emits carries just the modifiers that are held, if and only if of no modifier a key was the
last to be released while another was down. -/
theorem stamps_truthful_iff (Device : Type) [DecidableEq Device] :
    (∀ calls (call : HookCall Device) code action stamp,
      ((windowsHook Device).handle ((windowsHook Device).after 0 calls) call).2 = some (.key code action stamp) →
        ((windowsHook Device).Truthful stamp (calls ++ [call]) ↔ ¬ (windowsHook Device).Overlap (calls ++ [call]))) ∧
    ∀ events (event : DeviceEvent Device) code action stamp,
      ((evdevReaders Device).handle ((evdevReaders Device).after .new events) event).2 =
        some (.key code action stamp) →
        ((evdevReaders Device).Truthful stamp (events ++ [event]) ↔
          ¬ (evdevReaders Device).Overlap (events ++ [event])) :=
  ⟨fun _ _ _ _ _ emitted => KeySource.truthful_iff rfl emitted,
    fun _ _ _ _ _ emitted => KeySource.truthful_iff rfl emitted⟩

theorem stamps_truthful_iff_letter :
    (evdevReaders Unit).Truthful .shift [⟨(), .key 42 1⟩, ⟨(), .key 30 1⟩] ↔
      ¬ (evdevReaders Unit).Overlap [⟨(), .key 42 1⟩, ⟨(), .key 30 1⟩] :=
  (stamps_truthful_iff Unit).2 [⟨(), .key 42 1⟩] ⟨(), .key 30 1⟩ ⟨0x04⟩ .press .shift rfl

/-- Both Shifts go down and the right one comes up: neither source has Shift held. -/
theorem stamp_forgets :
    (¬ ∀ calls (call : HookCall Unit) code action stamp,
      ((windowsHook Unit).handle ((windowsHook Unit).after 0 calls) call).2 = some (.key code action stamp) →
        (windowsHook Unit).Truthful stamp (calls ++ [call])) ∧
    ¬ ∀ events (event : DeviceEvent Unit) code action stamp,
      ((evdevReaders Unit).handle ((evdevReaders Unit).after .new events) event).2 = some (.key code action stamp) →
        (evdevReaders Unit).Truthful stamp (events ++ [event]) := by
  constructor
  · intro claimed
    have held := claimed [⟨(), false, 0, 0x100, ⟨0xA0, 0⟩⟩, ⟨(), false, 0, 0x100, ⟨0xA1, 1⟩⟩]
      ⟨(), false, 0, 0x101, ⟨0xA1, 1⟩⟩ ⟨0xE5⟩ .release .none rfl .shift (by decide)
    exact absurd (held.mpr ⟨((), 0xA0), by decide, by decide⟩) (by decide)
  · intro claimed
    have held := claimed [⟨(), .key 42 1⟩, ⟨(), .key 54 1⟩] ⟨(), .key 54 0⟩ ⟨0xE5⟩ .release .none rfl .shift
      (by decide)
    exact absurd (held.mpr ⟨((), 42), by decide, by decide⟩) (by decide)

end Omnipresent
