import Omnipresent.Session.Manager

/-! Everything that is ever asked of a session manager, and what holds of it after any
of it in any order: its two indexes stay mutually inverse, and input only goes to a
peer with a session. -/
namespace Omnipresent

inductive SessionOperation where
  | establish (id : SessionId) (peer : MachineId) (role : Role)
  | close (id : SessionId)
  | reverseRole (id : SessionId)
  | yieldControl
  | followPeer (peer : MachineId)
  | handleCrossing (crossing : Crossing)
deriving DecidableEq, Repr

namespace SessionManager
variable {E : Type} [SessionEvents E] {manager : SessionManager E}

/-- One operation, with its outcome but without what it answers besides. -/
def perform (self : SessionManager E) : SessionOperation → SessionManager E × Except SessionError Unit
  | .establish id peer role => self.establish id peer role
  | .close id => self.close id
  | .reverseRole id => ((self.reverseRole id).1, (self.reverseRole id).2.map fun _ => ())
  | .yieldControl => (self.yieldControl.1, .ok ())
  | .followPeer peer => self.followPeer peer
  | .handleCrossing crossing => self.handleCrossing crossing

def performAll (self : SessionManager E) (operations : List SessionOperation) : SessionManager E :=
  operations.foldl (fun manager operation => (manager.perform operation).1) self

theorem performAll_induction {P : SessionManager E → Prop} (initial : P manager)
    (preserves : ∀ {manager} operation, P manager → P (manager.perform operation).1)
    (operations : List SessionOperation) : P (manager.performAll operations) := by
  induction operations generalizing manager with
  | nil => exact initial
  | cons operation rest ih => exact ih (preserves operation initial)

/-- What fails leaves everything as it was, and says nothing. -/
theorem perform_error {operation : SessionOperation} (failed : (manager.perform operation).2 = .error e) :
    (manager.perform operation).1 = manager := by
  cases operation with
  | establish id peer role => exact establish_error (Prod.ext rfl failed)
  | close id =>
    simp only [perform, close] at failed ⊢
    split at failed
    · rfl
    · cases failed
  | reverseRole id =>
    simp only [perform, reverseRole] at failed ⊢
    split at failed
    · rfl
    · cases failed
  | yieldControl => cases failed
  | followPeer peer =>
    simp only [perform, followPeer] at failed ⊢
    split
    · rfl
    · rw [if_neg ‹_›] at failed
      cases failed
  | handleCrossing crossing =>
    simp only [perform, handleCrossing] at failed ⊢
    split
    · rw [if_pos ‹_›] at failed
      cases failed
    · rw [if_neg ‹_›] at failed
      split
      · rfl
      · rw [if_neg ‹_›] at failed
        cases failed

namespace Consistent

theorem reverseRole (consistent : manager.Consistent) (id : SessionId) :
    (manager.reverseRole id).1.Consistent := by
  rw [SessionManager.reverseRole]
  cases manager.sessions.lookup id with
  | none => exact consistent
  | some session =>
    refine Consistent.emit ⟨?_, ?_, ?_⟩ _
    · intro id' session' stored
      simp only [HashMap.lookup_modify] at stored
      split at stored
      · obtain ⟨before, found, rfl⟩ := Option.map_eq_some_iff.mp stored
        have kept := consistent.keyed found
        exact kept
      · exact consistent.keyed stored
    · intro peer id' indexed
      obtain ⟨before, found, same⟩ := consistent.indexed indexed
      simp only [HashMap.lookup_modify, found, Option.map_some]
      split
      · exact ⟨_, rfl, same⟩
      · exact ⟨before, rfl, same⟩
    · intro peer remote
      exact consistent.active remote

theorem yieldControl (consistent : manager.Consistent) : manager.yieldControl.1.Consistent :=
  consistent.setActive fun remote => by cases remote

theorem followPeer (consistent : manager.Consistent) (peer : MachineId) :
    (manager.followPeer peer).1.Consistent := by
  rw [SessionManager.followPeer]
  split
  · exact consistent
  · refine consistent.setActive fun remote => ?_
    cases remote
    exact not_not.mp ‹_›

theorem handleCrossing (consistent : manager.Consistent) (crossing : Crossing) :
    (manager.handleCrossing crossing).1.Consistent := by
  rw [SessionManager.handleCrossing]
  split
  · exact consistent.setActive fun remote => by cases remote
  · split
    · exact consistent
    · refine consistent.setActive fun remote => ?_
      cases remote
      exact not_not.mp ‹_›

theorem perform (consistent : manager.Consistent) (operation : SessionOperation) :
    (manager.perform operation).1.Consistent := by
  cases operation with
  | establish id peer role => exact consistent.establish id peer role
  | close id => exact consistent.close id
  | reverseRole id => exact consistent.reverseRole id
  | yieldControl => exact consistent.yieldControl
  | followPeer peer => exact consistent.followPeer peer
  | handleCrossing crossing => exact consistent.handleCrossing crossing

end Consistent

/-- Whatever a manager is asked, in whatever order: a peer's entry in the index is a
session stored with that peer, a session is stored under its own id, and input goes
to no peer without one. -/
theorem sessions_indexed (localMachine : MachineId) (events : E) (operations : List SessionOperation) :
    let manager := (new localMachine events).performAll operations
    (∀ peer id, manager.byPeer.lookup peer = some id ↔
        ∃ session, manager.sessions.lookup id = some session ∧ session.peer = peer) ∧
      (∀ id session, manager.sessions.lookup id = some session → session.id = id) ∧
      ∀ peer, manager.active = .remote peer →
        ∃ id session, manager.sessions.lookup id = some session ∧ session.peer = peer := by
  intro manager
  have consistent : manager.Consistent :=
    performAll_induction (.new localMachine events) (fun operation before => before.perform operation) operations
  refine ⟨fun peer id => ⟨consistent.indexed, ?_⟩, fun id session stored => (consistent.keyed stored).1, ?_⟩
  · rintro ⟨session, stored, rfl⟩
    exact (consistent.keyed stored).2
  · intro peer remote
    obtain ⟨id, indexed⟩ := Finmap.mem_iff.mp (consistent.active remote)
    exact ⟨id, consistent.indexed indexed⟩

end SessionManager
end Omnipresent
