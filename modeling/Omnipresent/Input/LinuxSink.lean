import Omnipresent.Input.LinuxSource
import Omnipresent.TwoWay

/-! Injection on Linux: a virtual device whose events are of the kind that is captured. What
one machine reads of a device, another makes of it again, as far as it is carried at all. -/
namespace Omnipresent

inductive LinuxInputError where
  | noDevices
  | captureStopped
  | inject
deriving DecidableEq, Repr

def evdevFromHid (code : KeyCode) : Option UInt16 :=
  (evdevHid.find? fun entry => entry.2 = code.value).map Prod.fst

def evdevFromButton : MouseButton → Option UInt16
  | .left => some 0x110
  | .right => some 0x111
  | .middle => some 0x112
  | .back => some 0x113
  | .forward => some 0x114
  | .other _ => none

structure LinuxSink where
  scroll : ScrollAccumulator
  /-- What the virtual device has put out, oldest first. -/
  emitted : List EventSummary
  /-- How the next writes to it end; those after them all succeed. -/
  answers : List Bool

namespace LinuxSink

def new (answers : List Bool) : LinuxSink := ⟨⟨.new, .new⟩, [], answers⟩

/-- Events of one frame, which the device ends by itself. -/
def emit (self : LinuxSink) (events : List EventSummary) : LinuxSink × Except LinuxInputError Unit :=
  match self.answers with
  | false :: answers => ({ self with answers }, .error .inject)
  | answers =>
    ({ self with emitted := self.emitted ++ events ++ [.synchronization], answers := answers.tail }, .ok ())

/-- Into the corner, and from there to the position. -/
def warp (self : LinuxSink) (x y : Int32) : LinuxSink × Except LinuxInputError Unit :=
  match self.emit [.relativeAxis .relX (-65535), .relativeAxis .relY (-65535)] with
  | (sink, .error e) => (sink, .error e)
  | (sink, .ok ()) => sink.emit [.relativeAxis .relX x, .relativeAxis .relY y]

def keyValue (action : Action) : Int32 := if action = .press then 1 else 0

def injectScroll (self : LinuxSink) (delta : ScrollDelta) : LinuxSink × Except LinuxInputError Unit :=
  let ((clicksX, clicksY), scroll) := self.scroll.takeScaled delta 1 millilinesPerLine millilinesPerLine
  let sink := { self with scroll }
  let events := (if clicksY ≠ 0 then [.relativeAxis .relWheel clicksY] else []) ++
    (if clicksX ≠ 0 then [.relativeAxis .relHWheel clicksX] else [])
  if events.isEmpty then (sink, .ok ()) else sink.emit events

def inject (self : LinuxSink) : InputEvent → LinuxSink × Except LinuxInputError Unit
  -- Modifiers travel as keys of their own.
  | .key code action _ => match evdevFromHid code with
    | none => (self, .ok ())
    | some evdevCode => self.emit [.key evdevCode (keyValue action)]
  | .motion delta => self.emit [.relativeAxis .relX delta.dx, .relativeAxis .relY delta.dy]
  | .pointer x y => self.warp x y
  | .button button action => match evdevFromButton button with
    | none => (self, .ok ())
    | some code => self.emit [.key code (keyValue action)]
  | .scroll delta => self.injectScroll delta

end LinuxSink

/-- A key is the usage it stands for, and the other way round. -/
theorem hidFromEvdev_iff {code : UInt16} {hid : KeyCode} :
    hidFromEvdev code = some hid ↔ evdevFromHid hid = some code := by
  have codes : (evdevHid.map Prod.fst).Nodup := by decide +kernel
  have usages : (evdevHid.map Prod.snd).Nodup := by decide +kernel
  have back := @TwoWay.find_snd_iff _ _ evdevHid code hid.value _ usages
  have forth := @TwoWay.find_fst_iff _ _ evdevHid code hid.value _ codes
  rw [evdevFromHid, back, ← forth, hidFromEvdev, Option.map_eq_some_iff, Option.map_eq_some_iff]
  exact exists_congr fun entry => and_congr_right fun _ => ⟨congrArg KeyCode.value, congrArg KeyCode.mk⟩

theorem buttonFromEvdev_iff {code : UInt16} {button : MouseButton} :
    buttonFromEvdev code = some button ↔ evdevFromButton button = some code := by
  rw [buttonFromEvdev]
  cases button <;> grind [evdevFromButton]

/-- The readers of one machine's devices, and the virtual device of another. -/
structure Relay (Device : Type) where
  readers : LinuxReaders Device
  sink : LinuxSink

namespace Relay
variable {Device : Type}

def start : Relay Device := ⟨.new, .new []⟩

def carry [DecidableEq Device] (self : Relay Device) (event : DeviceEvent Device) : Relay Device :=
  let (readers, converted) := self.readers.read event
  ⟨readers, match converted with
    | none => self.sink
    | some event => (self.sink.inject event).1⟩

/-- What is carried of an event: keys that have a usage and buttons, of which a repeat is one
more press unless it is of a modifier, and the wheels. -/
def carried : EventSummary → Option EventSummary
  | .key code value =>
    if (buttonFromEvdev code).isSome then some (.key code (if value = 0 then 0 else 1))
    else if value = 2 ∧ (modifierMask code).isSome then none
    else (hidFromEvdev code).map fun _ => .key code (if value = 0 then 0 else 1)
  | .relativeAxis .relWheel value => if value = 0 then none else some (.relativeAxis .relWheel value)
  | .relativeAxis .relHWheel value => if value = 0 then none else some (.relativeAxis .relHWheel value)
  | _ => none

/-- Neither the movements of the mouse nor the ends of the frames. -/
def strokeOrWheel : EventSummary → Bool
  | .key _ _ => true
  | .relativeAxis .relWheel _ => true
  | .relativeAxis .relHWheel _ => true
  | _ => false

/-- A wheel that turns no further than an `i32` of milli-lines goes. -/
def InReach : EventSummary → Prop
  | .relativeAxis .relWheel value => -2147483 ≤ value.toInt ∧ value.toInt ≤ 2147483
  | .relativeAxis .relHWheel value => -2147483 ≤ value.toInt ∧ value.toInt ≤ 2147483
  | _ => True

theorem take_lines {value : Int32} (lower : -2147483 ≤ value.toInt) (upper : value.toInt ≤ 2147483) :
    Scaled.new.take (value * millilinesPerLine) 1 millilinesPerLine = (value, .new) := by
  have lines : (value * millilinesPerLine).toInt = value.toInt * 1000 := by
    rw [Int32.toInt_mul, show millilinesPerLine.toInt = 1000 from rfl, Int.bmod_eq_of_le (by omega) (by omega)]
  have one : (1 : Int32).toInt = 1 := rfl
  have thousand : millilinesPerLine.toInt = 1000 := rfl
  have none : Scaled.new.pending.toInt = 0 := rfl
  have fits : Scaled.new.Fits (value * millilinesPerLine) 1 := by
    rw [Scaled.Fits, lines, one, none]
    omega
  obtain ⟨exactly, short⟩ := Scaled.take_exact fits (show 0 < millilinesPerLine.toInt by decide)
  rw [lines, one, none, thousand] at exactly
  rw [thousand] at short
  generalize Scaled.new.take (value * millilinesPerLine) 1 millilinesPerLine = taken at exactly short
  obtain ⟨whole, ⟨rest⟩⟩ := taken
  dsimp only at exactly short
  have same : whole = value := Int32.toInt.inj (by omega)
  have left : rest = 0 := Int32.toInt.inj (by rw [Int32.toInt_zero]; omega)
  rw [same, left]
  rfl

/-- What the sink has put out of keys and wheels, while it holds nothing back and the device
takes everything. -/
structure Kept (sink : LinuxSink) (events : List EventSummary) : Prop where
  scroll : sink.scroll = ⟨.new, .new⟩
  answers : sink.answers = []
  emitted : sink.emitted.filter strokeOrWheel = events

variable {sink : LinuxSink} {events : List EventSummary}

theorem Kept.emit (kept : Kept sink events) (frame : List EventSummary) :
    Kept (sink.emit frame).1 (events ++ frame.filter strokeOrWheel) := by
  obtain ⟨scroll, answers, emitted⟩ := kept
  rw [LinuxSink.emit, answers]
  refine ⟨scroll, rfl, ?_⟩
  rw [List.filter_append, List.filter_append, emitted]
  exact List.append_nil _

theorem Kept.warp (kept : Kept sink events) (x y : Int32) : Kept (sink.warp x y).1 events := by
  have first := kept.emit [.relativeAxis .relX (-65535), .relativeAxis .relY (-65535)]
  have second := first.emit [.relativeAxis .relX x, .relativeAxis .relY y]
  rw [LinuxSink.warp]
  split
  · rename_i refused
    rw [refused, show List.filter strokeOrWheel _ = [] from rfl, List.append_nil] at first
    exact first
  · rename_i done
    rw [done] at second
    simpa only [List.append_assoc, show ∀ a b : Int32, List.filter strokeOrWheel
      [.relativeAxis .relX a, .relativeAxis .relY b] = [] from fun _ _ => rfl, List.append_nil] using second

theorem Kept.key (kept : Kept sink events) (code : UInt16) (action : Action) :
    Kept (sink.emit [.key code (LinuxSink.keyValue action)]).1
      (events ++ [.key code (LinuxSink.keyValue action)]) :=
  kept.emit _

theorem Kept.wheel (kept : Kept sink events) {value : Int32} (lower : -2147483 ≤ value.toInt)
    (upper : value.toInt ≤ 2147483) :
    Kept (sink.injectScroll ⟨0, value * millilinesPerLine⟩).1
        (events ++ (carried (.relativeAxis .relWheel value)).toList) ∧
      Kept (sink.injectScroll ⟨value * millilinesPerLine, 0⟩).1
        (events ++ (carried (.relativeAxis .relHWheel value)).toList) := by
  have still : Scaled.new.take 0 1 millilinesPerLine = (0, .new) := by decide
  have turned := take_lines lower upper
  have same : ({ sink with scroll := ⟨.new, .new⟩ } : LinuxSink) = sink := by rw [← kept.scroll]
  simp only [LinuxSink.injectScroll, kept.scroll, ScrollAccumulator.takeScaled, still, turned, carried, same]
  by_cases zero : value = 0
  · subst zero
    simpa using kept
  · simp only [ne_eq, zero, not_false_eq_true, if_true, not_true_eq_false, if_false, List.append_nil,
      List.nil_append, List.isEmpty_cons, Bool.false_eq_true]
    exact ⟨kept.emit _, kept.emit _⟩

theorem keyValue_action (value : Int32) :
    LinuxSink.keyValue (if value = 0 then .release else .press) = if value = 0 then 0 else 1 := by
  split <;> rfl

section Carry
variable [DecidableEq Device] {relay : Relay Device} {event : DeviceEvent Device}

abbrev converted (relay : Relay Device) (event : DeviceEvent Device) : Option InputEvent :=
  (convertEvent event.raw (relay.readers.pending event.device) relay.readers.modifiers).1

theorem carry_none (quiet : relay.converted event = none) : (relay.carry event).sink = relay.sink := by
  have read : (relay.readers.read event).2 = none := quiet
  rw [carry, show relay.readers.read event = (_, none) from Prod.ext rfl read]

theorem carry_some {sent : InputEvent} (converted : relay.converted event = some sent) :
    (relay.carry event).sink = (relay.sink.inject sent).1 := by
  have read : (relay.readers.read event).2 = some sent := converted
  rw [carry, show relay.readers.read event = (_, some sent) from Prod.ext rfl read]

theorem Kept.carry_key (kept : Kept relay.sink events) (device : Device) (code : UInt16) (value : Int32) :
    Kept (relay.carry ⟨device, .key code value⟩).sink (events ++ (carried (.key code value)).toList) := by
  rw [carried]
  have put := kept.key code (if value = 0 then .release else .press)
  rw [keyValue_action] at put
  cases pressed : buttonFromEvdev code with
  | some button =>
    have sent : relay.converted ⟨device, .key code value⟩ =
        some (.button button (if value = 0 then .release else .press)) := by
      rw [converted, convertEvent, pressed]
    rw [carry_some sent, LinuxSink.inject, buttonFromEvdev_iff.mp pressed]
    dsimp only
    rw [keyValue_action]
    exact put
  | none =>
    rw [if_neg (by simp)]
    by_cases repeated : value = 2 ∧ (modifierMask code).isSome
    · have quiet : relay.converted ⟨device, .key code value⟩ = none := by
        simp only [converted, convertEvent, pressed, if_pos repeated]
      rw [carry_none quiet, if_pos repeated]
      exact (List.append_nil events).symm ▸ kept
    · rw [if_neg repeated]
      cases known : hidFromEvdev code with
      | none =>
        have quiet : relay.converted ⟨device, .key code value⟩ = none := by
          simp only [converted, convertEvent, pressed, if_neg repeated, known, Option.map_none]
        rw [carry_none quiet]
        exact (List.append_nil events).symm ▸ kept
      | some hid =>
        have sent : ∃ stamp, relay.converted ⟨device, .key code value⟩ =
            some (.key hid (if value = 0 then .release else .press) stamp) := by
          simp only [converted, convertEvent, pressed, if_neg repeated, known, Option.map_some]
          exact ⟨_, rfl⟩
        obtain ⟨stamp, sent⟩ := sent
        rw [carry_some sent, LinuxSink.inject, hidFromEvdev_iff.mp known]
        dsimp only
        rw [keyValue_action]
        exact put

theorem Kept.carry (kept : Kept relay.sink events) (reach : InReach event.raw) :
    Kept (relay.carry event).sink (events ++ (carried event.raw).toList) := by
  obtain ⟨device, raw⟩ := event
  cases raw with
  | key code value => exact kept.carry_key device code value
  | relativeAxis axis value =>
    cases axis with
    | relWheel => exact (kept.wheel reach.1 reach.2).1
    | relHWheel => exact (kept.wheel reach.1 reach.2).2
    | relX => exact (List.append_nil events).symm ▸ kept
    | relY => exact (List.append_nil events).symm ▸ kept
    | other => exact (List.append_nil events).symm ▸ kept
  | synchronization =>
    rw [show (carried .synchronization).toList = [] from rfl, List.append_nil]
    let pending := relay.readers.pending device
    by_cases moved : pending.dx ≠ 0 ∨ pending.dy ≠ 0
    · have sent : relay.converted ⟨device, .synchronization⟩ = some (.motion pending) := by
        rw [converted, convertEvent, if_pos moved]
      have frame := kept.emit [.relativeAxis .relX pending.dx, .relativeAxis .relY pending.dy]
      rw [carry_some sent]
      exact (List.append_nil events) ▸ frame
    · have quiet : relay.converted ⟨device, .synchronization⟩ = none := by
        rw [converted, convertEvent, if_neg moved]
      rwa [carry_none quiet]
  | other => exact (List.append_nil events).symm ▸ kept

/-- Whatever the devices do, in any order and all at once: the keys, buttons and wheels that
come out at the other end are those that went in, each as it was, as far as they are carried. -/
theorem carried_in_order (captured : List (DeviceEvent Device)) (reach : ∀ event ∈ captured, InReach event.raw) :
    (captured.foldl carry start).sink.emitted.filter strokeOrWheel =
      captured.filterMap fun event => carried event.raw := by
  suffices Kept (captured.foldl carry start).sink (captured.filterMap fun event => carried event.raw) from this.emitted
  induction captured using List.reverseRecOn with
  | nil => exact ⟨rfl, rfl, rfl⟩
  | append_singleton earlier event ih =>
    have kept := ih fun event listed => reach event (List.mem_append_left _ listed)
    have last := kept.carry (reach event (List.mem_append_right _ (List.mem_singleton_self event)))
    rw [List.foldl_append, List.filterMap_append, List.filterMap_cons]
    cases found : carried event.raw with
    | none => simpa [found] using last
    | some event => simpa [found] using last

/-- A shortcut on a keyboard and a turn of the wheel of a mouse, with a repeat of the modifier
in between. -/
theorem carried_in_order_shortcut :
    ([(⟨true, .key 29 1⟩ : DeviceEvent Bool), ⟨true, .key 29 2⟩, ⟨true, .key 46 1⟩, ⟨false, .relativeAxis .relWheel 3⟩,
      ⟨true, .key 29 0⟩].foldl carry start).sink.emitted.filter strokeOrWheel =
        [.key 29 1, .key 46 1, .relativeAxis .relWheel 3, .key 29 0] :=
  carried_in_order [⟨true, .key 29 1⟩, ⟨true, .key 29 2⟩, ⟨true, .key 46 1⟩, ⟨false, .relativeAxis .relWheel 3⟩,
    ⟨true, .key 29 0⟩] (by simp [InReach])

end Carry

end Relay

end Omnipresent
