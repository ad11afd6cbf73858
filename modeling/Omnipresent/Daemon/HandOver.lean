import Omnipresent.Daemon.Capture

/-! The two halves of a hand-over, as the peer's control messages ask for them. -/
namespace Omnipresent.Shared

def yieldControlToPeer (self : Shared) : Shared :=
  let (sessions, gaveWay) := self.state.sessions.yieldControl
  let yielded := { self with state.sessions := sessions }
  if gaveWay then
    { yielded with state.cursor := ⟨self.localMachine, ⟨0, 0⟩⟩ }.syncSuppression.notifyChange
  else yielded

def followPeerCursor (self : Shared) (peer : MachineId) (x y : Int32) : Shared :=
  match self.state.layout.screen peer with
  | none => self
  | some screen =>
    match self.state.sessions.followPeer peer with
    | (sessions, .error _) => { self with state.sessions := sessions }
    | (sessions, .ok ()) =>
      let followed :=
        { self with
          state.sessions := sessions
          state.cursor := ⟨peer, clampToScreen screen x y⟩ }.syncSuppression
      if self.state.sessions.active ≠ .remote peer then followed.notifyChange else followed

/-- The control-stream arm of the task serving this peer. A disconnect ends the
task instead, and the rest only keeps the session alive. -/
def signalling (self : Shared) (machine : MachineId) (session : SessionId) :
    ControlMessage → Shared
  | .cursorWarp claimed x y =>
    if claimed = session then self.yieldControlToPeer.warp x y else self
  | .cursorReturned claimed x y =>
    if claimed = session then self.followPeerCursor machine x y else self
  | _ => self

/-- What both hand-overs keep, every message does. -/
theorem signalling_keeps {P : Shared → Prop} {s : Shared} (idle : P s)
    (yields : ∀ x y, P (s.yieldControlToPeer.warp x y)) (follows : ∀ x y, P (s.followPeerCursor machine x y))
    (session : SessionId) (message : ControlMessage) : P (s.signalling machine session message) := by
  unfold signalling
  split
  · split
    · exact yields _ _
    · exact idle
  · split
    · exact follows _ _
    · exact idle
  · exact idle

end Omnipresent.Shared
