import Omnipresent.Daemon.HandOver

/-! Links coming and going: a connection in either direction that becomes a
session, the task that drains its commands, and the clean-up when it ends. -/
namespace Omnipresent

def coalesceMotion (batch : List PeerCommand) : List PeerCommand :=
  batch.foldl (fun out command =>
    match command, out.getLast? with
    | .input (.pointer ..), some (.input (.pointer ..)) => out.dropLast ++ [command]
    | _, _ => out ++ [command]) []

namespace Shared

def askUser (self : Shared) (host : String) (fingerprint : Fingerprint) (decision : Nat) : Shared :=
  let pending := self.state.pending ++ [⟨host, fingerprint, decision⟩]
  { self with state.pending := pending }.notifyChange

/-- The waiting is over: the handler drops what it takes for its own request. -/
def retainPending (self : Shared) (fingerprint : Fingerprint) : Shared :=
  let pending := self.state.pending.filter fun p => p.fingerprint ≠ fingerprint
  { self with state.pending := pending }.notifyChange

/-- The user approved: trust is kept in memory even where saving it fails. -/
def acceptPeer (self : Shared) (host : String) (fingerprint : Fingerprint) (write : Write) : Shared :=
  { self with trust := (self.trust.accept write fingerprint (some host)).1 }

/-- Establishes the session and its link in one go, placed where `omni layout`
put the host, else past the fallback edge. -/
def establishLink (self : Shared) (host : String) (fingerprint : Fingerprint) (session : SessionId)
    (role : Role) (screen : Screen) (fallback : Edge) (order : List MachineId) :
    Shared × Except SessionError Unit :=
  let machine := machineIdOf fingerprint
  match self.state.sessions.establish session machine role with
  | (sessions, .error e) => ({ self with state.sessions := sessions }, .error e)
  | (sessions, .ok ()) =>
    let edge := (self.state.placements.lookup host).getD fallback
    let modifierSwap := (self.state.modifierSwaps.lookup host).getD .none
    let link : PeerLink :=
      { host, fingerprint, session, role, screen, edge, modifierSwap, commands := [] }
    let linked :=
      { self with
        state.sessions := sessions
        state.links := self.state.links.insert machine link }
    (linked.rebuildLayout order, .ok ())

/-- The last part of `handle_incoming`, once the peer is trusted: by default the
controller sits past the left edge. -/
def handleIncoming (self : Shared) (host : String) (fingerprint : Fingerprint) (session : SessionId)
    (screen : ScreenSize) (order : List MachineId) : Shared × Except SessionError Unit :=
  match self.establishLink host fingerprint session .target ⟨screen.width, screen.height⟩ .left order with
  | (self, .ok ()) => (self.notifyChange, .ok ())
  | (self, .error e) => (self, .error e)

inductive ConnectError where
  | trust (e : TrustError)
  | session (e : SessionError)
deriving DecidableEq, Repr

/-- The last part of `do_connect`, once the peer accepted: its fingerprint is
pinned for the host dialled, and by default it sits past the right edge. -/
def doConnect (self : Shared) (host : String) (fingerprint : Fingerprint) (session : SessionId)
    (screen : ScreenSize) (write : Write) (order : List MachineId) :
    Shared × Except ConnectError Unit :=
  match self.trust.accept write fingerprint (some host) with
  | (trust, .error e) => ({ self with trust }, .error (.trust e))
  | (trust, .ok ()) =>
    let pinned := { self with trust }
    match pinned.establishLink host fingerprint session .controller ⟨screen.width, screen.height⟩
      .right order with
    | (self, .ok ()) => (self.notifyChange, .ok ())
    | (self, .error e) => (self, .error (.session e))

def takeCommands (self : Shared) (machine : MachineId) (count : Nat) : Shared :=
  { self with
    state.links := self.state.links.modify machine fun link =>
      { link with commands := link.commands.drop count } }

def cleanupPeer (self : Shared) (machine : MachineId) (order : List MachineId) : Shared :=
  let closed := match self.state.links.lookup machine with
    | some link =>
      { self with
        state.links := self.state.links.erase machine
        state.sessions := (self.state.sessions.close link.session).1 }
    | none => self
  (closed.rebuildLayout order).syncSuppression.notifyChange

section Keeps
variable {P : Shared → Prop} {s : Shared}

theorem establishLink_keeps (refused : P s)
    (linked : ∀ {sessions}, s.state.sessions.establish session (machineIdOf fingerprint) role = (sessions, .ok ()) →
      P (Shared.rebuildLayout { s with
        state.sessions := sessions
        state.links := s.state.links.insert (machineIdOf fingerprint)
          { host, fingerprint, session, role, screen, commands := []
            edge := (s.state.placements.lookup host).getD fallback
            modifierSwap := (s.state.modifierSwaps.lookup host).getD .none } } order)) :
    P (s.establishLink host fingerprint session role screen fallback order).1 := by
  rw [establishLink]
  dsimp only
  rcases established : s.state.sessions.establish session (machineIdOf fingerprint) role with ⟨sessions, _ | _⟩
  · obtain rfl := SessionManager.establish_error established
    exact refused
  · exact linked established

theorem handleIncoming_keeps (notify : ∀ {u}, P u → P u.notifyChange)
    (linked : P (s.establishLink host fingerprint session .target ⟨screen.width, screen.height⟩ .left order).1) :
    P (s.handleIncoming host fingerprint session screen order).1 := by
  rw [handleIncoming]
  generalize s.establishLink host fingerprint session .target ⟨screen.width, screen.height⟩ .left order = result
    at linked ⊢
  obtain ⟨u, _ | _⟩ := result
  · exact linked
  · exact notify linked

theorem doConnect_keeps (trusted : P (s.acceptPeer host fingerprint write))
    (notify : ∀ {u}, P u → P u.notifyChange)
    (linked : P ((s.acceptPeer host fingerprint write).establishLink host fingerprint session .controller
      ⟨screen.width, screen.height⟩ .right order).1) :
    P (s.doConnect host fingerprint session screen write order).1 := by
  rw [acceptPeer] at trusted linked
  rw [doConnect]
  generalize s.trust.accept write fingerprint (some host) = accepted at trusted linked ⊢
  obtain ⟨trust, _ | _⟩ := accepted
  · exact trusted
  · dsimp only at linked ⊢
    generalize Shared.establishLink { s with trust } host fingerprint session .controller
      ⟨screen.width, screen.height⟩ .right order = result at linked ⊢
    obtain ⟨u, _ | _⟩ := result
    · exact linked
    · exact notify linked

theorem cleanupPeer_keeps
    (unlinked : P (s.rebuildLayout order).syncSuppression.notifyChange)
    (closed : ∀ {link}, s.state.links.lookup machine = some link →
      P (Shared.rebuildLayout { s with
        state.links := s.state.links.erase machine
        state.sessions := (s.state.sessions.close link.session).1 } order).syncSuppression.notifyChange) :
    P (s.cleanupPeer machine order) := by
  rw [cleanupPeer]
  cases found : s.state.links.lookup machine with
  | none => exact unlinked
  | some link => exact closed found

end Keeps

def Free (s : Shared) (fingerprint : Fingerprint) (session : SessionId) : Prop :=
  session ∉ s.state.sessions.sessions ∧ machineIdOf fingerprint ∉ s.state.sessions.byPeer

structure Establishes (s : Shared) (fingerprint : Fingerprint) (session : SessionId) (role : Role) (t : Shared) :
    Prop where
  byPeer : t.state.sessions.byPeer = s.state.sessions.byPeer.insert (machineIdOf fingerprint) session
  sessions : t.state.sessions.sessions =
    s.state.sessions.sessions.insert session ⟨session, machineIdOf fingerprint, role⟩

/-- A session that cannot be established leaves everything as it was. -/
theorem establishLink_cases (s : Shared) (host : String) (fingerprint : Fingerprint) (session : SessionId)
    (role : Role) (screen : Screen) (fallback : Edge) (order : List MachineId) :
    (s.Free fingerprint session ∧
      ∃ t, s.establishLink host fingerprint session role screen fallback order = (t, .ok ()) ∧
        s.Establishes fingerprint session role t ∧ t.changes = s.changes) ∨
    ¬ s.Free fingerprint session ∧
      ∃ e, s.establishLink host fingerprint session role screen fallback order = (s, .error e) := by
  rw [establishLink, SessionManager.establish, Free]
  by_cases known : session ∈ s.state.sessions.sessions
  · simp only [known, if_true, not_true_eq_false, false_and, not_false_eq_true, true_and, false_or]
    exact ⟨_, rfl⟩
  · by_cases linked : machineIdOf fingerprint ∈ s.state.sessions.byPeer
    · simp only [known, linked, if_true, if_false, not_true_eq_false, and_false, false_and, not_false_eq_true,
        true_and, false_or]
      exact ⟨_, rfl⟩
    · simp only [known, linked, if_false, not_false_eq_true, true_and, and_self, not_true_eq_false, false_and,
        or_false]
      exact ⟨_, rfl, ⟨rfl, rfl⟩, rfl⟩

theorem handleIncoming_cases (s : Shared) (host : String) (fingerprint : Fingerprint) (session : SessionId)
    (screen : ScreenSize) (order : List MachineId) :
    (s.Free fingerprint session ∧
      ∃ t, s.handleIncoming host fingerprint session screen order = (t, .ok ()) ∧
        s.Establishes fingerprint session .target t ∧ t.changes = s.changes + 1) ∨
    ¬ s.Free fingerprint session ∧ ∃ e, s.handleIncoming host fingerprint session screen order = (s, .error e) := by
  rw [handleIncoming]
  rcases s.establishLink_cases host fingerprint session .target ⟨screen.width, screen.height⟩ .left order with
    ⟨free, t, linked, ⟨byPeer, sessions⟩, same⟩ | ⟨taken, e, refused⟩
  · exact .inl ⟨free, t.notifyChange, by rw [linked], ⟨byPeer, sessions⟩, congrArg (· + 1) same⟩
  · exact .inr ⟨taken, e, by rw [refused]⟩

/-- A dial that comes through bumps the counter. One that does not only leaves the
trust store behind. -/
theorem doConnect_cases (s : Shared) (host : String) (fingerprint : Fingerprint) (session : SessionId)
    (screen : ScreenSize) (write : Write) (order : List MachineId) :
    ((write = .done ∧ s.Free fingerprint session) ∧
      ∃ t, s.doConnect host fingerprint session screen write order = (t, .ok ()) ∧
        s.Establishes fingerprint session .controller t ∧ t.changes = s.changes + 1) ∨
    (write ≠ .done ∨ ¬ s.Free fingerprint session) ∧
      ∃ e, s.doConnect host fingerprint session screen write order =
        (s.acceptPeer host fingerprint write, .error e) := by
  cases write with
  | failed reason => exact .inr ⟨.inl (by simp), _, rfl⟩
  | torn reason parse => exact .inr ⟨.inl (by simp), _, rfl⟩
  | done =>
    let pinned := s.acceptPeer host fingerprint .done
    have linking : s.doConnect host fingerprint session screen .done order =
        match pinned.establishLink host fingerprint session .controller ⟨screen.width, screen.height⟩
          .right order with
        | (linked, .ok ()) => (linked.notifyChange, .ok ())
        | (refused, .error e) => (refused, .error (.session e)) := rfl
    rw [linking]
    rcases pinned.establishLink_cases host fingerprint session .controller ⟨screen.width, screen.height⟩
      .right order with
      ⟨free, t, linked, ⟨byPeer, sessions⟩, same⟩ | ⟨taken, e, refused⟩
    · exact .inl ⟨⟨rfl, free⟩, t.notifyChange, by rw [linked], ⟨byPeer, sessions⟩, congrArg (· + 1) same⟩
    · exact .inr ⟨.inr taken, .session e, by rw [refused]⟩

end Shared
end Omnipresent
