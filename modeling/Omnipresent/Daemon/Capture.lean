import Omnipresent.Daemon.State
import Omnipresent.Topology.Advance

/-! One captured event: track the cursor, detect crossings, forward to the
active peer. A result of `none` is a panic under the state lock. -/
namespace Omnipresent

def clampToScreen (screen : Screen) (x y : Int32) : Point :=
  ⟨min (max x 0).toUInt32 (lastOf screen.width), min (max y 0).toUInt32 (lastOf screen.height)⟩

namespace Shared

/-- While input is local the OS owns the real cursor; adopt its position, where
the OS tells it. -/
def syncCursorToOs (self : Shared) : Option (Int32 × Int32) → Shared
  | some (x, y) =>
    { self with state.cursor := ⟨self.localMachine, clampToScreen self.localScreen x y⟩ }
  | none => self

def scaledDelta (self : Shared) (delta : MouseDelta) : Option MouseDelta :=
  match self.state.layout.screen self.state.cursor.machine with
  | some screen =>
    if self.state.cursor.machine ≠ self.localMachine then scaleDelta delta self.localScreen screen
    else some delta
  | none => some delta

def placeCursorAfterCrossing (self : Shared) (crossing : Crossing) : Shared :=
  let x := crossing.entry.x.toInt32
  let y := crossing.entry.y.toInt32
  if crossing.peer = self.localMachine then (self.warp x y).broadcast (.cursorReturned x y)
  else self.send crossing.peer (.warp x y)

/-- Moves the virtual cursor; `true` when the move crossed an edge and the
crossing was handled. -/
def advanceCursor (self : Shared) (delta : MouseDelta) : Option (Shared × Bool) := do
  let delta ← self.scaledDelta delta
  match ← self.state.layout.advance self.state.cursor delta with
  | .error _ => some ({ self with state.cursor := ⟨self.localMachine, ⟨0, 0⟩⟩ }, false)
  | .ok advance =>
    match advance.crossing with
    | none => some ({ self with state.cursor := advance.cursor }, false)
    | some crossing =>
      match self.state.sessions.handleCrossing crossing with
      | (sessions, .error _) => some ({ self with state.sessions := sessions }, false)
      | (sessions, .ok ()) =>
        let crossed := { self with state.sessions := sessions, state.cursor := advance.cursor }
        some (crossed.placeCursorAfterCrossing crossing, true)

/-- Modifiers are relabelled here, on the way out. -/
def forwardTo (self : Shared) (peer : MachineId) (event : InputEvent) : Shared :=
  { self with
    state.links := self.state.links.modify peer fun link =>
      link.send (.input (link.modifierSwap.apply event)) }

/-- The cursor's position on the peer's screen goes out, not the raw movement. -/
def forwardPosition (self : Shared) (peer : MachineId) : Shared :=
  self.forwardTo peer
    (.pointer self.state.cursor.position.x.toInt32 self.state.cursor.position.y.toInt32)

/-- One captured event, with the OS's own answer for where its cursor is. -/
def routeCaptured (self : Shared) (event : InputEvent) (os : Option (Int32 × Int32)) :
    Option Shared := do
  let (self, crossed) ← match self.state.sessions.active, event with
    | .here, .motion delta => (self.syncCursorToOs os).advanceCursor delta
    | .here, _ => some (self, false)
    | .remote peer, .motion delta => do
      let (self, crossed) ← self.advanceCursor delta
      some (if crossed then self else self.forwardPosition peer, crossed)
    | .remote peer, other => some (self.forwardTo peer other, false)
  let self := self.syncSuppression
  some (if crossed then self.notifyChange else self)

end Shared
end Omnipresent
