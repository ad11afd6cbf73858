import Omnipresent.Daemon.Status

/-! The user-editable configuration: what the daemon starts from, and what its
settings are saved to. The file is what it parses to; a missing one means all
defaults. -/
namespace Omnipresent

structure Config where
  port : Option UInt16
  screen : Option (UInt32 × UInt32)
  placements : HashMap String Edge
  clipboardSharingEnabled : Bool
  modifierSwaps : HashMap String ModifierSwap

/-- One thing the user can set, on the daemon and in the file. -/
inductive Setting where
  | placement (host : String)
  | modifierSwap (host : String)
  | clipboardSharing
deriving DecidableEq

inductive SettingValue where
  | edge (edge : Edge)
  | swap (swap : ModifierSwap)
  | flag (enabled : Bool)
deriving DecidableEq

/-- A setting with the value it is given. -/
inductive SettingsChange where
  | placement (host : String) (edge : Edge)
  | modifierSwap (host : String) (swap : ModifierSwap)
  | clipboardSharing (enabled : Bool)
deriving DecidableEq

namespace SettingsChange

def setting : SettingsChange → Setting
  | placement host _ => .placement host
  | modifierSwap host _ => .modifierSwap host
  | clipboardSharing _ => .clipboardSharing

def value : SettingsChange → SettingValue
  | placement _ edge => .edge edge
  | modifierSwap _ swap => .swap swap
  | clipboardSharing enabled => .flag enabled

end SettingsChange

namespace Config

def default : Config := ⟨none, none, ∅, false, ∅⟩

def load (file : Option Config) : Config := file.getD default

def save (self : Config) : Option Config := some self

/-- What a command puts in its place before it saves. -/
def merge (self : Config) : SettingsChange → Config
  | .placement host edge => { self with placements := self.placements.insert host edge }
  | .modifierSwap host swap => { self with modifierSwaps := self.modifierSwaps.insert host swap }
  | .clipboardSharing enabled => { self with clipboardSharingEnabled := enabled }

def setting (self : Config) : Setting → Option SettingValue
  | .placement host => (self.placements.lookup host).map .edge
  | .modifierSwap host => (self.modifierSwaps.lookup host).map .swap
  | .clipboardSharing => some (.flag self.clipboardSharingEnabled)

/-- One setting is replaced, and every other is what it was. -/
theorem setting_merge (self : Config) (change : SettingsChange) :
    (self.merge change).setting = Function.update self.setting change.setting (some change.value) := by
  funext key
  rw [Function.update_apply]
  cases change with
  | placement host edge =>
    cases key <;> simp [setting, merge, SettingsChange.setting, SettingsChange.value, HashMap.lookup_insert_eq]
    split <;> rfl
  | modifierSwap host swap =>
    cases key <;> simp [setting, merge, SettingsChange.setting, SettingsChange.value, HashMap.lookup_insert_eq]
    split <;> rfl
  | clipboardSharing enabled =>
    cases key <;> simp [setting, merge, SettingsChange.setting, SettingsChange.value]

end Config

inductive SettingsRequest where
  | layout (host edge : String) (order : List MachineId)
  | modifiers (host swap : String)
  | clipboard (enabled : Bool)

/-- What it asks for; `none` where a word names nothing. -/
def SettingsRequest.change : SettingsRequest → Option SettingsChange
  | layout host edge _ => (parseEdge edge).map (.placement host)
  | modifiers host swap => (ModifierSwap.parse swap).map (.modifierSwap host)
  | clipboard enabled => some (.clipboardSharing enabled)

namespace Shared

theorem setLayout_settings (self : Shared) (named : parseEdge edge = some placed) (host : String)
    (config : ConfigWrite) (order : List MachineId) :
    (self.setLayout host edge config order).1.state.placements = self.state.placements.insert host placed ∧
      (self.setLayout host edge config order).1.state.modifierSwaps = self.state.modifierSwaps := by
  simp only [setLayout, named]
  split <;> exact ⟨rfl, rfl⟩

theorem setModifierSwap_settings (self : Shared) (named : ModifierSwap.parse swap = some relabelled) (host : String)
    (config : ConfigWrite) :
    (self.setModifierSwap host swap config).1.state.placements = self.state.placements ∧
      (self.setModifierSwap host swap config).1.state.modifierSwaps =
        self.state.modifierSwaps.insert host relabelled := by
  simp only [setModifierSwap, named]
  exact ⟨rfl, rfl⟩

end Shared

namespace Daemon

def fresh : Daemon where
  shared := .start ⟨1⟩ ⟨1920, 1080⟩ ⟨.missing, []⟩ none ∅ ∅
  clipboard := .new ⟨[]⟩ false
  localFingerprint := ⟨List.replicate 32 0, rfl⟩
  port := 4733
  capturing := true

/-- Turns clipboard sharing on or off at runtime. -/
def setClipboard (self : Daemon) (enabled : Bool) (config : ConfigWrite) : Daemon × Response :=
  ({ self with clipboard := self.clipboard.setEnabled enabled, shared := self.shared.notifyChange },
    match config with
    | .saved => .ok
    | .unsaved reason => .error s!"clipboard sharing changed for now, but could not save it: {reason}"
    | .unread reason =>
      .error s!"clipboard sharing changed for now, but could not read the config to save it: {reason}")

def set (self : Daemon) (config : ConfigWrite) : SettingsRequest → Daemon × Response
  | .layout host edge order =>
    let (shared, response) := self.shared.setLayout host edge config order
    ({ self with shared }, response)
  | .modifiers host swap =>
    let (shared, response) := self.shared.setModifierSwap host swap config
    ({ self with shared }, response)
  | .clipboard enabled => self.setClipboard enabled config

def setting (self : Daemon) : Setting → Option SettingValue
  | .placement host => (self.shared.state.placements.lookup host).map .edge
  | .modifierSwap host => (self.shared.state.modifierSwaps.lookup host).map .swap
  | .clipboardSharing => some (.flag self.clipboard.isEnabled)

/-- A word that names nothing changes nothing. -/
theorem set_unchanged (self : Daemon) {request : SettingsRequest} (unknown : request.change = none)
    (config : ConfigWrite) : (self.set config request).1 = self := by
  cases request with
  | layout host edge order =>
    rw [SettingsRequest.change, Option.map_eq_none_iff] at unknown
    simp only [set, Shared.setLayout, unknown]
  | modifiers host swap =>
    rw [SettingsRequest.change, Option.map_eq_none_iff] at unknown
    simp only [set, Shared.setModifierSwap, unknown]
  | clipboard enabled => cases unknown

theorem setting_set (self : Daemon) {request : SettingsRequest} (known : request.change = some change)
    (config : ConfigWrite) : (self.set config request).1.setting =
      Function.update self.setting change.setting (some change.value) := by
  funext key
  rw [Function.update_apply]
  cases request with
  | layout host edge order =>
    rw [SettingsRequest.change, Option.map_eq_some_iff] at known
    obtain ⟨placed, named, rfl⟩ := known
    obtain ⟨placements, modifierSwaps⟩ := self.shared.setLayout_settings named host config order
    cases key <;>
      simp [setting, set, placements, modifierSwaps, SettingsChange.setting, SettingsChange.value,
        HashMap.lookup_insert_eq]
    split <;> rfl
  | modifiers host swap =>
    rw [SettingsRequest.change, Option.map_eq_some_iff] at known
    obtain ⟨relabelled, named, rfl⟩ := known
    obtain ⟨placements, modifierSwaps⟩ := self.shared.setModifierSwap_settings named host config
    cases key <;>
      simp [setting, set, placements, modifierSwaps, SettingsChange.setting, SettingsChange.value,
        HashMap.lookup_insert_eq]
    split <;> rfl
  | clipboard enabled =>
    cases known
    cases key with
    | placement host => rfl
    | modifierSwap host => rfl
    | clipboardSharing =>
      simp only [setting, set, setClipboard, ClipboardManager.setEnabled, SettingsChange.setting, if_true]
      split <;> rfl

end Daemon
end Omnipresent
