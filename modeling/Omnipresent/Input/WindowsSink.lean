import Omnipresent.Input.Keymap
import Omnipresent.Input.Scroll
import Omnipresent.LastWrite

/-! Injection on Windows: what the sink asks of the OS for each event, and the modifiers it
keeps count of so that a chord whose key was lost on the way is repaired before the
next key goes down. Each operation returns the sink it leaves behind with its result. -/
namespace Omnipresent

inductive WindowsInputError where
  | hookInstall
  | alreadyRunning
  | captureStopped
  | injection
deriving DecidableEq, Repr

/-- The size and origin of the desktop, in the coordinates of the OS. -/
structure DesktopBounds where
  originX : Int32
  originY : Int32
  width : UInt32
  height : UInt32
deriving DecidableEq, Repr

/-- From desktop coordinates to those of the OS, around the end of an `i32` where they
pass it. -/
def DesktopBounds.toScreen (self : DesktopBounds) (x y : Int32) : Int32 × Int32 :=
  (x + self.originX, y + self.originY)

structure WindowsDesktop where
  bounds : Option DesktopBounds
  charsPerNotch : Int32
  linesPerNotch : Int32
  /-- Whether `SetCursorPos` succeeds. -/
  cursorMoves : Bool
deriving DecidableEq, Repr

inductive MouseFlag where
  | move
  | leftDown
  | leftUp
  | rightDown
  | rightUp
  | middleDown
  | middleUp
  | xDown
  | xUp
  | wheel
  | hWheel
deriving DecidableEq, Repr

inductive SystemCall where
  | key (vk : UInt16) (extended : Bool) (action : Action)
  | mouse (flag : MouseFlag) (data dx dy : Int32)
  | cursor (x y : Int32)
deriving DecidableEq, Repr

/-- The left-hand key stands in for a modifier as a whole. -/
def modifierKeys : List (Modifiers × UInt16) :=
  [(.shift, 0xA0), (.control, 0xA2), (.alt, 0xA4), (.meta', 0x5B)]

structure ModifierFix where
  modifier : Modifiers
  action : Action
deriving DecidableEq, Repr

/-- The modifier keys to press and release so that what is held becomes what is wanted,
releases first. -/
def reconcile (held wanted : Modifiers) : List ModifierFix :=
  (Modifiers.all.filter fun modifier => held.contains modifier && !wanted.contains modifier).map (⟨·, .release⟩) ++
    (Modifiers.all.filter fun modifier => wanted.contains modifier && !held.contains modifier).map (⟨·, .press⟩)

structure WindowsSink where
  scroll : ScrollAccumulator
  held : Modifiers
  /-- What has reached the OS, oldest first. -/
  sent : List SystemCall
  /-- How the next calls of `SendInput` end; those after them all succeed. -/
  answers : List Bool
deriving DecidableEq, Repr

namespace WindowsSink

def new (answers : List Bool) : WindowsSink := ⟨⟨.new, .new⟩, .none, [], answers⟩

def send (self : WindowsSink) (call : SystemCall) : WindowsSink × Except WindowsInputError Unit :=
  match self.answers with
  | false :: answers => ({ self with answers }, .error .injection)
  | answers => ({ self with sent := self.sent ++ [call], answers := answers.tail }, .ok ())

def sendKey (self : WindowsSink) (vk : UInt16) (extended : Bool) (action : Action) :
    WindowsSink × Except WindowsInputError Unit :=
  self.send (.key vk extended action)

/-- One repair after another, each taken down once it has reached the OS. -/
def applyFixes (self : WindowsSink) : List ModifierFix → WindowsSink × Except WindowsInputError Unit
  | [] => (self, .ok ())
  | fix :: rest =>
    match modifierKeys.find? (·.1 = fix.modifier) with
    | none => self.applyFixes rest
    | some (_, vk) =>
      match self.sendKey vk false fix.action with
      | (sink, .error e) => (sink, .error e)
      | (sink, .ok _) => { sink with held := sink.held.changed fix.modifier fix.action }.applyFixes rest

def applyModifiers (self : WindowsSink) (wanted : Modifiers) : WindowsSink × Except WindowsInputError Unit :=
  self.applyFixes (reconcile self.held wanted)

/-- What is done before a key goes to the OS: a modifier is taken down as it is asked for,
and for any other key the modifiers it carries are repaired. -/
def prepare (self : WindowsSink) (code : KeyCode) (action : Action) (modifiers : Modifiers) :
    WindowsSink × Except WindowsInputError Unit :=
  match code.modifier with
  | some modifier => ({ self with held := self.held.changed modifier action }, .ok ())
  | none => self.applyModifiers modifiers

def injectKey (self : WindowsSink) (code : KeyCode) (action : Action) (modifiers : Modifiers) :
    WindowsSink × Except WindowsInputError Unit :=
  match self.prepare code action modifiers with
  | (sink, .error e) => (sink, .error e)
  | (sink, .ok _) =>
    match vkFromHid code with
    | none => (sink, .ok ())
    | some key => sink.sendKey key.vk key.extended action

def injectMouse (self : WindowsSink) (flag : MouseFlag) (data dx dy : Int32) :
    WindowsSink × Except WindowsInputError Unit :=
  self.send (.mouse flag data dx dy)

def injectButton (self : WindowsSink) (button : MouseButton) (action : Action) :
    WindowsSink × Except WindowsInputError Unit :=
  match button, action with
  | .left, .press => self.injectMouse .leftDown 0 0 0
  | .left, .release => self.injectMouse .leftUp 0 0 0
  | .right, .press => self.injectMouse .rightDown 0 0 0
  | .right, .release => self.injectMouse .rightUp 0 0 0
  | .middle, .press => self.injectMouse .middleDown 0 0 0
  | .middle, .release => self.injectMouse .middleUp 0 0 0
  | .back, .press => self.injectMouse .xDown 1 0 0
  | .back, .release => self.injectMouse .xUp 1 0 0
  | .forward, .press => self.injectMouse .xDown 2 0 0
  | .forward, .release => self.injectMouse .xUp 2 0 0
  -- An unknown button is dropped.
  | .other _, _ => (self, .ok ())

def injectScroll (self : WindowsSink) (desktop : WindowsDesktop) (delta : ScrollDelta) :
    WindowsSink × Except WindowsInputError Unit :=
  let ((wheelX, wheelY), scroll) := scrollMovement self.scroll delta desktop.charsPerNotch desktop.linesPerNotch
  let sink := { self with scroll }
  let (sink, vertical) := if wheelY = 0 then (sink, .ok ()) else sink.injectMouse .wheel wheelY 0 0
  match vertical with
  | .error e => (sink, .error e)
  | .ok _ => if wheelX = 0 then (sink, .ok ()) else sink.injectMouse .hWheel wheelX 0 0

def warp (self : WindowsSink) (desktop : WindowsDesktop) (x y : Int32) :
    WindowsSink × Except WindowsInputError Unit :=
  let (x, y) := match desktop.bounds with
    | some bounds => bounds.toScreen x y
    | none => (x, y)
  if desktop.cursorMoves then ({ self with sent := self.sent ++ [.cursor x y] }, .ok ())
  else (self, .error .injection)

def inject (self : WindowsSink) (desktop : WindowsDesktop) : InputEvent → WindowsSink × Except WindowsInputError Unit
  | .key code action modifiers => self.injectKey code action modifiers
  | .motion delta => self.injectMouse .move 0 delta.dx delta.dy
  | .pointer x y => self.warp desktop x y
  | .button button action => self.injectButton button action
  | .scroll delta => self.injectScroll desktop delta

end WindowsSink
end Omnipresent
