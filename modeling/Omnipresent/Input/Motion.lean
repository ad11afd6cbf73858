import Mathlib.Algebra.Group.Int.Defs
import Mathlib.Algebra.Group.Prod
import Omnipresent.Input.LinuxSource
import Omnipresent.Transition

/-! The movement of a mouse is captured in frames. All that a device reports has been sent on
or is still pending, on both axes, whatever else is captured in between. -/
namespace Omnipresent
open Transition

/-- A movement as it is added up, on both axes and in no number of bits. -/
def MouseDelta.total (self : MouseDelta) : Int × Int := (self.dx.toInt, self.dy.toInt)

def MouseDelta.wrapped (sum : Int × Int) : MouseDelta := ⟨Int32.ofInt sum.1, Int32.ofInt sum.2⟩

/-- A sum that needs no more than 32 bits. -/
def FitsI32 (sum : Int × Int) : Prop :=
  (-2 ^ 31 ≤ sum.1 ∧ sum.1 < 2 ^ 31) ∧ -2 ^ 31 ≤ sum.2 ∧ sum.2 < 2 ^ 31

instance (sum : Int × Int) : Decidable (FitsI32 sum) := inferInstanceAs (Decidable (_ ∧ _))

def EventSummary.moved : EventSummary → Int × Int
  | .relativeAxis .relX value => (value.toInt, 0)
  | .relativeAxis .relY value => (0, value.toInt)
  | _ => 0

def InputEvent.moved : InputEvent → Int × Int
  | .motion delta => delta.total
  | _ => 0

theorem MouseDelta.total_wrapped (fits : FitsI32 sum) : (MouseDelta.wrapped sum).total = sum := by
  obtain ⟨⟨left, right⟩, top, bottom⟩ := fits
  exact Prod.ext (Int32.toInt_ofInt_of_le left right) (Int32.toInt_ofInt_of_le top bottom)

section ConvertEvent
variable {raw : EventSummary}

/-- At the end of a frame what is pending goes out, and nothing is pending then. -/
theorem convertEvent_synchronization (pending : MouseDelta) (modifiers : UInt8) :
    ((convertEvent .synchronization pending modifiers).1.elim 0 InputEvent.moved = pending.total) ∧
      (convertEvent .synchronization pending modifiers).2.1 = ⟨0, 0⟩ := by
  rw [convertEvent]
  split
  · exact ⟨rfl, rfl⟩
  · rename_i still
    obtain ⟨dx, dy⟩ := pending
    obtain ⟨rfl, rfl⟩ : dx = 0 ∧ dy = 0 := by simpa using still
    exact ⟨rfl, rfl⟩

theorem convertEvent_key (code : UInt16) (value : Int32) (pending : MouseDelta) (modifiers : UInt8) :
    ((convertEvent (.key code value) pending modifiers).1.elim 0 InputEvent.moved = 0) ∧
      (convertEvent (.key code value) pending modifiers).2.1 = pending := by
  rw [convertEvent]
  cases buttonFromEvdev code with
  | some button => exact ⟨rfl, rfl⟩
  | none =>
    dsimp only
    split
    · exact ⟨rfl, rfl⟩
    · cases hidFromEvdev code <;> exact ⟨rfl, rfl⟩

theorem wrapped_add (sum : Int × Int) (dx dy : Int32) :
    MouseDelta.wrapped (sum + (dx.toInt, dy.toInt)) =
      ⟨(MouseDelta.wrapped sum).dx + dx, (MouseDelta.wrapped sum).dy + dy⟩ := by
  simp only [MouseDelta.wrapped, Prod.fst_add, Prod.snd_add, Int32.ofInt_add, Int32.ofInt_toInt]

theorem convertEvent_frame (within : raw ≠ .synchronization) (sum : Int × Int) (modifiers : UInt8) :
    ((convertEvent raw (.wrapped sum) modifiers).1.elim 0 InputEvent.moved = 0) ∧
      (convertEvent raw (.wrapped sum) modifiers).2.1 = .wrapped (sum + raw.moved) := by
  have still : sum + (0 : Int × Int) = sum := add_zero sum
  have zero : (0 : Int32).toInt = 0 := rfl
  cases raw with
  | key code value =>
    change _ ∧ _ = MouseDelta.wrapped (sum + 0)
    rw [still]
    exact convertEvent_key code value _ modifiers
  | relativeAxis axis value =>
    cases axis with
    | relX =>
      have added := wrapped_add sum value 0
      rw [zero, Int32.add_zero] at added
      exact ⟨rfl, added.symm⟩
    | relY =>
      have added := wrapped_add sum 0 value
      rw [zero, Int32.add_zero] at added
      exact ⟨rfl, added.symm⟩
    | relWheel | relHWheel | other => exact ⟨rfl, congrArg MouseDelta.wrapped still.symm⟩
  | synchronization => exact absurd rfl within
  | other => exact ⟨rfl, congrArg MouseDelta.wrapped still.symm⟩

end ConvertEvent

/-- The readers of the devices, with what one of the devices has reported, what of it has
been sent on, and what it has reported since its last frame ended. -/
structure Odometer (Device : Type) where
  readers : LinuxReaders Device
  received : Int × Int
  emitted : Int × Int
  frame : Int × Int

variable {Device : Type} [DecidableEq Device]

namespace Odometer

def start : Odometer Device := ⟨.new, 0, 0, 0⟩

def read (device : Device) (self : Odometer Device) (event : DeviceEvent Device) : Odometer Device :=
  let (readers, converted) := self.readers.read event
  if event.device = device then
    { readers
      received := self.received + event.raw.moved
      emitted := self.emitted + converted.elim 0 InputEvent.moved
      frame := if event.raw = .synchronization then 0 else self.frame + event.raw.moved }
  else { self with readers }

/-- The sum of a frame that ends fits. -/
def FrameFits (device : Device) (self : Odometer Device) (event : DeviceEvent Device) : Prop :=
  event = ⟨device, .synchronization⟩ → FitsI32 self.frame

/-- All that came in went out or belongs to the frame that is under way, and that is what is
pending, in 32 bits. -/
structure Counted (device : Device) (s : Odometer Device) : Prop where
  whole : s.emitted + s.frame = s.received
  pending : s.readers.pending device = .wrapped s.frame

variable {self : Odometer Device} {device : Device}

theorem read_own (self : Odometer Device) (device : Device) (raw : EventSummary) :
    let converted := convertEvent raw (self.readers.pending device) self.readers.modifiers
    self.read device ⟨device, raw⟩ =
      { readers := ⟨converted.2.2, Function.update self.readers.pending device converted.2.1⟩
        received := self.received + raw.moved
        emitted := self.emitted + converted.1.elim 0 InputEvent.moved
        frame := if raw = .synchronization then 0 else self.frame + raw.moved } := if_pos rfl

theorem read_other (self : Odometer Device) (apart : other ≠ device) (raw : EventSummary) :
    (self.read device ⟨other, raw⟩).readers.pending device = self.readers.pending device ∧
      ∃ readers, self.read device ⟨other, raw⟩ = { self with readers } := by
  have skipped : self.read device ⟨other, raw⟩ = { self with readers := (self.readers.read ⟨other, raw⟩).1 } :=
    if_neg apart
  rw [skipped]
  exact ⟨Function.update_of_ne apart.symm _ _, _, rfl⟩

theorem Counted.read (counted : self.Counted device) {event : DeviceEvent Device}
    (fits : self.FrameFits device event) : (self.read device event).Counted device := by
  obtain ⟨other, raw⟩ := event
  obtain ⟨whole, pending⟩ := counted
  by_cases same : other = device
  · subst same
    rw [read_own, pending]
    by_cases ends : raw = .synchronization
    · subst ends
      obtain ⟨sent, cleared⟩ := convertEvent_synchronization (.wrapped self.frame) self.readers.modifiers
      rw [MouseDelta.total_wrapped (fits rfl)] at sent
      refine ⟨?_, ?_⟩
      · dsimp only
        rw [sent, if_pos rfl, add_zero, whole]
        exact (add_zero _).symm
      · dsimp only
        rw [Function.update_self, cleared, if_pos rfl]
        rfl
    · obtain ⟨silent, added⟩ := convertEvent_frame ends self.frame self.readers.modifiers
      refine ⟨?_, ?_⟩
      · dsimp only
        rw [silent, if_neg ends, add_zero, ← add_assoc, whole]
      · dsimp only
        rw [Function.update_self, added, if_neg ends]
  · obtain ⟨kept, readers, skipped⟩ := self.read_other same raw
    rw [skipped] at kept ⊢
    exact ⟨whole, kept.trans pending⟩

/-- Of a device's movement nothing is lost and nothing made up, as far as the sums of its
frames fit: at every point all that came in went out or is pending, and where a frame ends
nothing is. -/
theorem motion_conserved (device : Device) :
    (∀ events self,
      Reaches (guarded (fun s event t => t = s.read device event) (FrameFits device)) start events self →
      FitsI32 self.frame → self.emitted + (self.readers.pending device).total = self.received) ∧
    ∀ self : Odometer Device,
      ((self.read device ⟨device, .synchronization⟩).readers.pending device) = ⟨0, 0⟩ := by
  constructor
  · intro events self run fits
    have counted : self.Counted device := by
      refine run.invariant ?_ ⟨add_zero _, rfl⟩
      rintro s event t before ⟨admitted, rfl⟩
      exact before.read admitted
    rw [counted.pending, MouseDelta.total_wrapped fits, counted.whole]
  · intro self
    rw [read_own]
    dsimp only
    rw [Function.update_self]
    exact (convertEvent_synchronization _ _).2

end Odometer
end Omnipresent
