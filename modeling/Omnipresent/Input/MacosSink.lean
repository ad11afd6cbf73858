import Mathlib.Algebra.Order.Field.Rat
import Mathlib.Algebra.Order.Ring.Cast
import Omnipresent.Bits
import Omnipresent.Input.Desktop
import Omnipresent.Input.MacosSource
import Omnipresent.LastWrite

/-! Injection on macOS: what the sink posts for each event. The OS does not say of what it is
handed whether it is a drag or a double click, so the sink keeps the buttons that are down, the
modifiers of the last key and the last click, and says so itself. -/
namespace Omnipresent.Macos

inductive MacosInputError where
  | tapCreation
  | captureStopped
  | eventCreation
deriving DecidableEq, Repr

/-- A position of the OS. Its `f64`s are read as the rationals they are. -/
structure CGPoint where
  x : ℚ
  y : ℚ
deriving DecidableEq, Repr

namespace CGPoint

def of (point : DisplayPoint) : CGPoint := ⟨point.x, point.y⟩

def offset (self : CGPoint) (delta : MouseDelta) : CGPoint := ⟨self.x + delta.dx.toInt, self.y + delta.dy.toInt⟩

/-- The square of the straight-line distance, which is as near as its root is. -/
def distanceSq (self other : CGPoint) : ℚ := (self.x - other.x) ^ 2 + (self.y - other.y) ^ 2

/-- `clamp_to_display`, on which the bounds never cross. -/
def clampToDisplay (bounds : Option ReportedBounds) (self : CGPoint) : CGPoint :=
  match bounds with
  | none => self
  | some bounds =>
    let left : ℚ := bounds.originX.toInt
    let top : ℚ := bounds.originY.toInt
    ⟨max left (min self.x (left + bounds.width.toNat - 1)), max top (min self.y (top + bounds.height.toNat - 1))⟩

/-- On whole numbers it is the clamp of these. -/
theorem of_clampToDisplay (bounds : Option ReportedBounds) (point : DisplayPoint) :
    (Omnipresent.clampToDisplay bounds point).map of = some ((of point).clampToDisplay bounds) := by
  cases bounds with
  | none => rfl
  | some bounds =>
    rw [clampToDisplay_eq]
    simp only [Option.map_some, clampToDisplay, of]
    push_cast
    rfl

end CGPoint

inductive CGEventType where
  | leftMouseDown
  | leftMouseUp
  | rightMouseDown
  | rightMouseUp
  | otherMouseDown
  | otherMouseUp
  | mouseMoved
  | leftMouseDragged
  | rightMouseDragged
  | otherMouseDragged
deriving DecidableEq, Repr

inductive CGMouseButton where
  | left
  | right
  | center
deriving DecidableEq, Repr

structure MouseEvent where
  kind : CGEventType
  position : CGPoint
  button : CGMouseButton
  number : Option Nat
  clickState : Option Nat
  flags : Option CGEventFlags
deriving DecidableEq, Repr

inductive Posted where
  | key (vk : UInt16) (down : Bool) (flags : CGEventFlags)
  | mouse (event : MouseEvent)
  | scroll (linesY linesX : Int32)
  /-- `keep_cursor_visible`. -/
  | cursor (position : CGPoint)
deriving DecidableEq, Repr

/-- `vk_from_hid`. -/
def vkFromHid (code : KeyCode) : Option UInt16 := (vkHid.find? fun entry => entry.2 = code.value).map Prod.fst

def flagsFromModifiers (modifiers : Modifiers) : CGEventFlags where
  alphaShift := false
  shift := modifiers.contains .shift
  control := modifiers.contains .control
  alternate := modifiers.contains .alt
  command := modifiers.contains .meta'

def cgButtonNumber : MouseButton → Nat
  | .left => 0
  | .right => 1
  | .middle => 2
  | .back => 3
  | .forward => 4
  | .other n => n.toNat

/-- `DOUBLE_CLICK_INTERVAL`, in nanoseconds. -/
def doubleClickInterval : Nat := 500000000

/-- `DOUBLE_CLICK_DISTANCE`. -/
def doubleClickDistance : ℚ := 4

/-- A press of a button: which one, when and where. -/
structure Click where
  button : Nat
  at' : Nat
  position : CGPoint
deriving DecidableEq, Repr

/-- Whether a press goes on with the streak of the one before it. -/
def Click.Follows (last next : Click) : Prop :=
  last.button = next.button ∧ next.at' - last.at' ≤ doubleClickInterval ∧
    next.position.distanceSq last.position ≤ doubleClickDistance ^ 2

instance (last next : Click) : Decidable (last.Follows next) := inferInstanceAs (Decidable (_ ∧ _))

/-- The previous click, and how many it is of. -/
structure LastClick extends Click where
  count : Nat
deriving DecidableEq, Repr

def nextClickCount (last : LastClick) (click : Click) : Nat :=
  if last.toClick.Follows click then last.count + 1 else 1

/-- What the OS answers while one event is injected: its desktop, where the cursor is, whether
an event can be created, and the time. -/
structure MacosDesktop where
  bounds : Option ReportedBounds
  cursor : Option CGPoint
  creates : Bool
  now : Nat

structure MacosSink where
  /-- The buttons held, a bit for each. -/
  heldButtons : BitVec 32
  modifiers : Modifiers
  lastClick : Option LastClick
  scroll : ScrollAccumulator
  /-- What has been handed to the OS, oldest first. -/
  posted : List Posted

namespace MacosSink

def new : MacosSink := ⟨0, .none, none, ⟨.new, .new⟩, []⟩

def post (self : MacosSink) (desktop : MacosDesktop) (events : List Posted) :
    MacosSink × Except MacosInputError Unit :=
  if desktop.creates then ({ self with posted := self.posted ++ events }, .ok ())
  else (self, .error .eventCreation)

def injectKey (self : MacosSink) (desktop : MacosDesktop) (code : KeyCode) (action : Action) (modifiers : Modifiers) :
    MacosSink × Except MacosInputError Unit :=
  match vkFromHid code with
  -- An unmapped key is dropped, never guessed.
  | none => (self, .ok ())
  | some vk =>
    let sink := { self with modifiers }
    sink.post desktop [.key vk (decide (action = .press)) (flagsFromModifiers modifiers)]

def moveKind (heldButtons : BitVec 32) : CGEventType × CGMouseButton :=
  if heldButtons &&& 1 ≠ 0 then (.leftMouseDragged, .left)
  else if heldButtons &&& 2 ≠ 0 then (.rightMouseDragged, .right)
  else if heldButtons ≠ 0 then (.otherMouseDragged, .center)
  else (.mouseMoved, .left)

def moveTo (self : MacosSink) (desktop : MacosDesktop) (position : CGPoint) :
    MacosSink × Except MacosInputError Unit :=
  let (kind, button) := moveKind self.heldButtons
  self.post desktop
    [.mouse ⟨kind, position, button, none, none, some (flagsFromModifiers self.modifiers)⟩, .cursor position]

def injectMotion (self : MacosSink) (desktop : MacosDesktop) (delta : MouseDelta) :
    MacosSink × Except MacosInputError Unit :=
  match desktop.cursor with
  | none => (self, .error .eventCreation)
  | some cursor => self.moveTo desktop ((cursor.offset delta).clampToDisplay desktop.bounds)

def injectPointer (self : MacosSink) (desktop : MacosDesktop) (x y : Int32) :
    MacosSink × Except MacosInputError Unit :=
  self.moveTo desktop ((CGPoint.of (fromDesktop desktop.bounds x y)).clampToDisplay desktop.bounds)

/-- The click count for a button event. A press takes its place as the last click. -/
def clickState (self : MacosSink) (action : Action) (click : Click) : Nat × MacosSink :=
  match action with
  | .press =>
    let count := match self.lastClick with
      | some last => nextClickCount last click
      | none => 1
    (count, { self with lastClick := some ⟨click, count⟩ })
  | .release =>
    match self.lastClick with
    | some last => (if last.button = click.button then last.count else 1, self)
    | none => (1, self)

def buttonEvent (number : Nat) (action : Action) : CGEventType × CGMouseButton :=
  match number, action with
  | 0, .press => (.leftMouseDown, .left)
  | 0, .release => (.leftMouseUp, .left)
  | 1, .press => (.rightMouseDown, .right)
  | 1, .release => (.rightMouseUp, .right)
  | _, .press => (.otherMouseDown, .center)
  | _, .release => (.otherMouseUp, .center)

def injectButton (self : MacosSink) (desktop : MacosDesktop) (button : MouseButton) (action : Action) :
    MacosSink × Except MacosInputError Unit :=
  let number := cgButtonNumber button
  let (kind, cgButton) := buttonEvent number action
  match desktop.cursor with
  | none => (self, .error .eventCreation)
  | some cursor =>
    let position := cursor.clampToDisplay desktop.bounds
    let (count, sink) := self.clickState action ⟨number, desktop.now, position⟩
    let event := ⟨kind, position, cgButton, if 2 ≤ number then some number else none, some count,
      some (flagsFromModifiers sink.modifiers)⟩
    match sink.post desktop [.mouse event] with
    | (sink, .error e) => (sink, .error e)
    | (sink, .ok ()) =>
      let bit := 1#32 <<< min number 31
      match action with
      | .press => ({ sink with heldButtons := sink.heldButtons ||| bit }, .ok ())
      | .release => ({ sink with heldButtons := sink.heldButtons &&& ~~~bit }, .ok ())

def injectScroll (self : MacosSink) (desktop : MacosDesktop) (delta : ScrollDelta) :
    MacosSink × Except MacosInputError Unit :=
  let ((linesX, linesY), scroll) := self.scroll.takeScaled delta 1 millilinesPerLine millilinesPerLine
  let sink := { self with scroll }
  if linesX = 0 ∧ linesY = 0 then (sink, .ok ())
  else sink.post desktop [.scroll linesY linesX]

def inject (self : MacosSink) (desktop : MacosDesktop) : InputEvent → MacosSink × Except MacosInputError Unit
  | .key code action modifiers => self.injectKey desktop code action modifiers
  | .motion delta => self.injectMotion desktop delta
  | .pointer x y => self.injectPointer desktop x y
  | .button button action => self.injectButton desktop button action
  | .scroll delta => self.injectScroll desktop delta

def warp (self : MacosSink) (desktop : MacosDesktop) (x y : Int32) : MacosSink × Except MacosInputError Unit :=
  let position := (CGPoint.of (fromDesktop desktop.bounds x y)).clampToDisplay desktop.bounds
  self.post desktop [.mouse ⟨.mouseMoved, position, .left, none, none, none⟩, .cursor position]

end MacosSink

end Omnipresent.Macos
