import Mathlib.Data.List.Basic

/-! The keyboard and mouse events carried between machines, and the modifier
relabelling a controller applies to them on the way out. -/
namespace Omnipresent

inductive Action where
  | press
  | release
deriving DecidableEq, Repr

structure KeyCode where
  value : UInt32
deriving DecidableEq, Repr

/-- The modifiers held at an event, one bit each. -/
structure Modifiers where
  bits : UInt8
deriving DecidableEq, Repr

namespace Modifiers
def none : Modifiers := ⟨0⟩
def shift : Modifiers := ⟨1⟩
def control : Modifiers := ⟨2⟩
def alt : Modifiers := ⟨4⟩
def meta' : Modifiers := ⟨8⟩

def contains (self other : Modifiers) : Bool := self.bits &&& other.bits == other.bits
def with' (self other : Modifiers) : Modifiers := ⟨self.bits ||| other.bits⟩
def without (self other : Modifiers) : Modifiers := ⟨self.bits &&& ~~~other.bits⟩

def all : List Modifiers := [shift, control, alt, meta']

def changed (self modifier : Modifiers) : Action → Modifiers
  | .press => self.with' modifier
  | .release => self.without modifier

/-- Two modifiers have no bit in common, unless they are one. -/
theorem bits_and : ∀ modifier ∈ all, ∀ other ∈ all,
    modifier.bits &&& other.bits = (if modifier = other then other.bits else 0) ∧
      ~~~modifier.bits &&& other.bits = (if modifier = other then 0 else other.bits) ∧ other.bits ≠ 0 := by decide

theorem contains_changed (self : Modifiers) {modifier other : Modifiers} (known : modifier ∈ all)
    (known' : other ∈ all) (action : Action) :
    (self.changed modifier action).contains other =
      if modifier = other then decide (action = .press) else self.contains other := by
  obtain ⟨common, rest, nonzero⟩ := bits_and modifier known other known'
  cases action with
  | press =>
    have both : (self.bits ||| modifier.bits) &&& other.bits =
        self.bits &&& other.bits ||| modifier.bits &&& other.bits :=
      UInt8.toBitVec_inj.mp BitVec.and_or_distrib_right
    have whole : self.bits &&& other.bits ||| other.bits = other.bits := by
      refine UInt8.toBitVec_inj.mp (BitVec.eq_of_getLsbD_eq fun i _ => ?_)
      simp
    simp only [changed, contains, with', both, common]
    split
    · simp [whole]
    · rw [UInt8.or_zero]
  | release =>
    simp only [changed, contains, without, UInt8.and_assoc, rest]
    split
    · simpa using nonzero.symm
    · rfl

end Modifiers

/-- Which modifier a key controls, the left one and the right one of a pair the same. -/
def KeyCode.modifier (self : KeyCode) : Option Modifiers :=
  if self.value = 0xE0 ∨ self.value = 0xE4 then some .control
  else if self.value = 0xE1 ∨ self.value = 0xE5 then some .shift
  else if self.value = 0xE2 ∨ self.value = 0xE6 then some .alt
  else if self.value = 0xE3 ∨ self.value = 0xE7 then some .meta'
  else none

inductive MouseButton where
  | left
  | right
  | middle
  | back
  | forward
  | other (index : UInt8)
deriving DecidableEq, Repr

structure MouseDelta where
  dx : Int32
  dy : Int32
deriving DecidableEq, Repr

structure ScrollDelta where
  dx : Int32
  dy : Int32
deriving DecidableEq, Repr

inductive InputEvent where
  | key (code : KeyCode) (action : Action) (modifiers : Modifiers)
  | motion (delta : MouseDelta)
  | pointer (x y : Int32)
  | button (button : MouseButton) (action : Action)
  | scroll (delta : ScrollDelta)
deriving DecidableEq, Repr

/-- What to do with a peer's modifier keys before sending to it. -/
inductive ModifierSwap where
  | none
  | metaAndControl
deriving DecidableEq, Repr

/-- Exchanges the GUI and Control keys, keeping the side they are on. -/
def swapKey (code : KeyCode) : KeyCode :=
  if code.value = 0xE0 then ⟨0xE3⟩
  else if code.value = 0xE3 then ⟨0xE0⟩
  else if code.value = 0xE4 then ⟨0xE7⟩
  else if code.value = 0xE7 then ⟨0xE4⟩
  else code

def swapModifiers (modifiers : Modifiers) : Modifiers :=
  let hadMeta := modifiers.contains .meta'
  let hadControl := modifiers.contains .control
  let swapped := (modifiers.without .meta').without .control
  let swapped := if hadMeta then swapped.with' .control else swapped
  if hadControl then swapped.with' .meta' else swapped

namespace ModifierSwap

def apply (self : ModifierSwap) (event : InputEvent) : InputEvent :=
  if self = .none then event
  else match event with
    | .key code action modifiers => .key (swapKey code) action (swapModifiers modifiers)
    | other => other

/-- Relabelling never makes a cursor position out of anything else, and never
moves one. -/
theorem apply_eq_pointer {self : ModifierSwap} {event : InputEvent} :
    self.apply event = .pointer x y ↔ event = .pointer x y := by
  cases self <;> cases event <;> simp [apply]

end ModifierSwap
end Omnipresent
