import Omnipresent.Topology.Layout

/-! Sessions, roles, and the manager that owns their lifecycle. Each operation
returns the manager it leaves behind together with its result. -/
namespace Omnipresent

inductive Role where
  | controller
  | target
deriving DecidableEq, Repr

def Role.reversed : Role → Role
  | controller => target
  | target => controller

structure Session where
  id : SessionId
  peer : MachineId
  role : Role
deriving DecidableEq, Repr

inductive ActiveTarget where
  | here
  | remote (peer : MachineId)
deriving DecidableEq, Repr

inductive SessionError where
  | duplicateSession (id : SessionId)
  | peerAlreadyConnected (peer : MachineId)
  | unknownSession (id : SessionId)
  | noSessionForPeer (peer : MachineId)
deriving DecidableEq, Repr

def SessionError.display : SessionError → String
  | duplicateSession id => s!"duplicate session {id.value.toNat}"
  | peerAlreadyConnected peer => s!"peer {peer.value} already connected"
  | unknownSession id => s!"unknown session {id.value.toNat}"
  | noSessionForPeer peer => s!"no session for peer {peer.value}"

inductive SessionEvent where
  | established (id : SessionId) (peer : MachineId) (role : Role)
  | closed (id : SessionId)
  | roleChanged (id : SessionId) (role : Role)
  | activeTargetChanged (target : ActiveTarget)
deriving DecidableEq, Repr

/-- The port through which the manager tells the outside what changed. -/
class SessionEvents (E : Type) where
  emit : E → SessionEvent → E

/-- A sink that records everything it receives, oldest first. -/
structure RecordingEvents where
  events : List SessionEvent
deriving DecidableEq, Repr

instance : SessionEvents RecordingEvents where
  emit self event := ⟨self.events ++ [event]⟩

structure SessionManager (E : Type) where
  localMachine : MachineId
  sessions : HashMap SessionId Session
  byPeer : HashMap MachineId SessionId
  active : ActiveTarget
  events : E

namespace SessionManager
variable {E : Type} [SessionEvents E]

omit [SessionEvents E] in
def new (localMachine : MachineId) (events : E) : SessionManager E :=
  ⟨localMachine, ∅, ∅, .here, events⟩

def emit (self : SessionManager E) (event : SessionEvent) : SessionManager E :=
  { self with events := SessionEvents.emit self.events event }

def sessionForPeer (self : SessionManager E) (peer : MachineId) : Option Session :=
  (self.byPeer.lookup peer).bind self.sessions.lookup

def setActive (self : SessionManager E) (target : ActiveTarget) : SessionManager E :=
  if self.active ≠ target then
    { self with active := target }.emit (.activeTargetChanged target)
  else self

def establish (self : SessionManager E) (id : SessionId) (peer : MachineId) (role : Role) :
    SessionManager E × Except SessionError Unit :=
  if id ∈ self.sessions then (self, .error (.duplicateSession id))
  else if peer ∈ self.byPeer then (self, .error (.peerAlreadyConnected peer))
  else
    ({ self with
        sessions := self.sessions.insert id ⟨id, peer, role⟩
        byPeer := self.byPeer.insert peer id }.emit (.established id peer role), .ok ())

/-- Ends a session. If its peer was the active target, input comes home. -/
def close (self : SessionManager E) (id : SessionId) : SessionManager E × Except SessionError Unit :=
  match self.sessions.lookup id with
  | none => (self, .error (.unknownSession id))
  | some session =>
    let closed :=
      { self with
        sessions := self.sessions.erase id
        byPeer := self.byPeer.erase session.peer }
    let closed := if self.active = .remote session.peer then closed.setActive .here else closed
    (closed.emit (.closed id), .ok ())

def reverseRole (self : SessionManager E) (id : SessionId) :
    SessionManager E × Except SessionError Role :=
  match self.sessions.lookup id with
  | none => (self, .error (.unknownSession id))
  | some session =>
    let role := session.role.reversed
    ({ self with sessions := self.sessions.modify id fun s => { s with role } }.emit
      (.roleChanged id role), .ok role)

/-- Brings input back because a peer has taken control of this machine. -/
def yieldControl (self : SessionManager E) : SessionManager E × Bool :=
  (self.setActive .here, self.active ≠ .here)

def followPeer (self : SessionManager E) (peer : MachineId) :
    SessionManager E × Except SessionError Unit :=
  if peer ∉ self.byPeer then (self, .error (.noSessionForPeer peer))
  else (self.setActive (.remote peer), .ok ())

def handleCrossing (self : SessionManager E) (crossing : Crossing) :
    SessionManager E × Except SessionError Unit :=
  if crossing.peer = self.localMachine then (self.setActive .here, .ok ())
  else if crossing.peer ∉ self.byPeer then (self, .error (.noSessionForPeer crossing.peer))
  else (self.setActive (.remote crossing.peer), .ok ())

@[simp] theorem emit_sessions (self : SessionManager E) (event : SessionEvent) :
    (self.emit event).sessions = self.sessions := rfl

@[simp] theorem emit_byPeer (self : SessionManager E) (event : SessionEvent) :
    (self.emit event).byPeer = self.byPeer := rfl

@[simp] theorem emit_active (self : SessionManager E) (event : SessionEvent) :
    (self.emit event).active = self.active := rfl

@[simp] theorem emit_localMachine (self : SessionManager E) (event : SessionEvent) :
    (self.emit event).localMachine = self.localMachine := rfl

@[simp] theorem setActive_active (self : SessionManager E) (target : ActiveTarget) :
    (self.setActive target).active = target := by
  rw [setActive]
  split
  · rfl
  · exact not_not.mp ‹_›

@[simp] theorem setActive_sessions (self : SessionManager E) (target : ActiveTarget) :
    (self.setActive target).sessions = self.sessions := by
  rw [setActive]
  split <;> rfl

@[simp] theorem setActive_byPeer (self : SessionManager E) (target : ActiveTarget) :
    (self.setActive target).byPeer = self.byPeer := by
  rw [setActive]
  split <;> rfl

@[simp] theorem setActive_localMachine (self : SessionManager E) (target : ActiveTarget) :
    (self.setActive target).localMachine = self.localMachine := by
  rw [setActive]
  split <;> rfl

theorem establish_ok {self : SessionManager E} {id : SessionId}
    (established : self.establish id peer role = (manager, .ok ())) :
    manager.byPeer = self.byPeer.insert peer id ∧ manager.active = self.active ∧
      manager.localMachine = self.localMachine ∧ peer ∉ self.byPeer := by
  rw [establish] at established
  split at established
  · simp at established
  · split at established
    · simp at established
    · cases established
      exact ⟨rfl, rfl, rfl, ‹_›⟩

theorem establish_error {self : SessionManager E} {id : SessionId}
    (refused : self.establish id peer role = (manager, .error e)) : manager = self := by
  rw [establish] at refused
  split at refused
  · exact (Prod.mk.inj refused).1.symm
  · split at refused
    · exact (Prod.mk.inj refused).1.symm
    · simp at refused

/-- The two indexes are mutually inverse, and input only goes to a peer with a
session. -/
structure Consistent (manager : SessionManager E) : Prop where
  keyed : ∀ {id session}, manager.sessions.lookup id = some session →
    session.id = id ∧ manager.byPeer.lookup session.peer = some id
  indexed : ∀ {peer id}, manager.byPeer.lookup peer = some id →
    ∃ session, manager.sessions.lookup id = some session ∧ session.peer = peer
  active : ∀ {peer}, manager.active = .remote peer → peer ∈ manager.byPeer

namespace Consistent
variable {manager : SessionManager E}

omit [SessionEvents E] in
theorem new (localMachine : MachineId) (events : E) :
    (SessionManager.new localMachine events).Consistent where
  keyed found := by simp [SessionManager.new] at found
  indexed found := by simp [SessionManager.new] at found
  active remote := by simp [SessionManager.new] at remote

theorem emit (consistent : manager.Consistent) (event : SessionEvent) : (manager.emit event).Consistent :=
  ⟨consistent.keyed, consistent.indexed, consistent.active⟩

theorem setActive (consistent : manager.Consistent)
    (session : ∀ {peer}, target = .remote peer → peer ∈ manager.byPeer) :
    (manager.setActive target).Consistent where
  keyed found := by
    simp only [setActive_sessions, setActive_byPeer] at found ⊢
    exact consistent.keyed found
  indexed found := by
    simp only [setActive_sessions, setActive_byPeer] at found ⊢
    exact consistent.indexed found
  active remote := by
    simp only [setActive_active, setActive_byPeer] at remote ⊢
    exact session remote

theorem establish (consistent : manager.Consistent) (id : SessionId) (peer : MachineId) (role : Role) :
    (manager.establish id peer role).1.Consistent := by
  rw [SessionManager.establish]
  split
  · exact consistent
  · split
    · exact consistent
    · rename_i fresh unconnected
      refine Consistent.emit ⟨?_, ?_, ?_⟩ _
      · intro id' session found
        simp only [HashMap.lookup_insert_eq] at found ⊢
        split at found
        · cases found
          exact ⟨Eq.symm ‹_›, by simp [*]⟩
        · obtain ⟨sameId, sameIndex⟩ := consistent.keyed found
          have other : session.peer ≠ peer := fun same =>
            unconnected (same ▸ Finmap.mem_of_lookup_eq_some sameIndex)
          exact ⟨sameId, by rw [if_neg other, sameIndex]⟩
      · intro peer' id' found
        simp only [HashMap.lookup_insert_eq] at found ⊢
        split at found
        · cases found
          exact ⟨⟨id, peer, role⟩, if_pos rfl, Eq.symm ‹_›⟩
        · obtain ⟨session, stored, same⟩ := consistent.indexed found
          have other : id' ≠ id := fun same => fresh (same ▸ Finmap.mem_of_lookup_eq_some stored)
          exact ⟨session, by rw [if_neg other, stored], same⟩
      · intro peer' remote
        exact Finmap.mem_insert.mpr (.inr (consistent.active remote))

theorem close (consistent : manager.Consistent) (id : SessionId) : (manager.close id).1.Consistent := by
  rw [SessionManager.close]
  cases found : manager.sessions.lookup id with
  | none => exact consistent
  | some session =>
    obtain ⟨sameId, sameIndex⟩ := consistent.keyed found
    -- Another session still stored has another peer: two would share one index entry.
    have keyed : ∀ {id' session'}, (manager.sessions.erase id).lookup id' = some session' →
        session'.id = id' ∧ (manager.byPeer.erase session.peer).lookup session'.peer = some id' := by
      intro id' session' stored
      rw [HashMap.lookup_erase_eq] at stored
      split at stored
      · contradiction
      · obtain ⟨same, index⟩ := consistent.keyed stored
        have other : session'.peer ≠ session.peer := fun equal =>
          ‹¬ id' = id› (Option.some.inj (index.symm.trans (equal ▸ sameIndex)))
        exact ⟨same, by rw [HashMap.lookup_erase_eq, if_neg other, index]⟩
    have indexed : ∀ {peer id'}, (manager.byPeer.erase session.peer).lookup peer = some id' →
        ∃ session', (manager.sessions.erase id).lookup id' = some session' ∧ session'.peer = peer := by
      intro peer id' stored
      rw [HashMap.lookup_erase_eq] at stored
      split at stored
      · contradiction
      · obtain ⟨session', kept, same⟩ := consistent.indexed stored
        have other : id' ≠ id := by
          rintro rfl
          cases Option.some.inj (kept.symm.trans found)
          exact ‹¬ peer = session.peer› same.symm
        exact ⟨session', by rw [HashMap.lookup_erase_eq, if_neg other, kept], same⟩
    by_cases active : manager.active = .remote session.peer
    · simp only [if_pos active]
      refine Consistent.emit ⟨?_, ?_, ?_⟩ _
      · intro id' session' stored
        simp only [setActive_sessions, setActive_byPeer] at stored ⊢
        exact keyed stored
      · intro peer id' stored
        simp only [setActive_sessions, setActive_byPeer] at stored ⊢
        exact indexed stored
      · intro peer remote
        simp only [setActive_active, reduceCtorEq] at remote
    · simp only [if_neg active]
      refine Consistent.emit ⟨keyed, indexed, ?_⟩ _
      intro peer remote
      refine Finmap.mem_erase.mpr ⟨?_, consistent.active remote⟩
      rintro rfl
      exact active remote

/-- Closing a peer's session takes the peer off the index, and input home if it
was going there. -/
theorem close_peer {id : SessionId} (consistent : manager.Consistent)
    (found : manager.byPeer.lookup peer = some id) :
    (manager.close id).1.byPeer = manager.byPeer.erase peer ∧
      (manager.close id).1.active = (if manager.active = .remote peer then .here else manager.active) ∧
      (manager.close id).1.localMachine = manager.localMachine := by
  obtain ⟨session, stored, rfl⟩ := consistent.indexed found
  by_cases active : manager.active = .remote session.peer
  · simp [SessionManager.close, stored, active]
  · simp [SessionManager.close, stored, active]

end Consistent
end SessionManager
end Omnipresent
