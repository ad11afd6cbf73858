import Omnipresent.Daemon.Reachable

/-! Two machines that trust each other and dial each other at once. Each has one place
for a session with the other, and two handshakes that may fill it: the one it answers
and the one it began. -/
namespace Omnipresent
open Transition

inductive Attempt where
  | requested
  /-- Established by the machine that answered, with its accept on the way. -/
  | accepted (session : SessionId)
  | rejected
  /-- Established by both. -/
  | held (session : SessionId)
  /-- Let go by the dialler, and not cleaned up by the machine that answered. -/
  | dropped (session : SessionId)
  | ended
deriving DecidableEq

namespace Attempt

/-- The session the dialler has from it. -/
def dialler : Attempt → Option SessionId
  | held session => some session
  | _ => none

/-- The session the machine that answered has from it. -/
def answerer : Attempt → Option SessionId
  | accepted session => some session
  | held session => some session
  | dropped session => some session
  | _ => none

def isAccepted : Attempt → Bool
  | accepted _ => true
  | _ => false

def isDropped : Attempt → Bool
  | dropped _ => true
  | _ => false

/-- It came to nothing, or is about to. -/
def failed : Attempt → Bool
  | rejected => true
  | dropped _ => true
  | ended => true
  | _ => false

end Attempt

structure Meeting where
  certificate : Bool → Fingerprint
  machine : Bool → Shared
  /-- The dial each machine began. -/
  attempt : Bool → Attempt

inductive MeetingOp where
  | answer (side : Bool) (host : String) (session : SessionId) (order : List MachineId)
  | takeUp (side : Bool) (host : String) (order : List MachineId)
  /-- The control stream of a connection let go has ended at the other machine. -/
  | cleanup (side : Bool) (order : List MachineId)
deriving DecidableEq

namespace MeetingOp

def runsOn : MeetingOp → Bool
  | answer side .. => !side
  | takeUp side .. => side
  | cleanup side .. => !side

def order : MeetingOp → List MachineId
  | answer _ _ _ order => order
  | takeUp _ _ order => order
  | cleanup _ order => order

end MeetingOp

namespace Meeting

def screen (self : Meeting) (side : Bool) : ScreenSize :=
  ⟨(self.machine side).localScreen.width, (self.machine side).localScreen.height⟩

def peer (self : Meeting) (side : Bool) : MachineId := machineIdOf (self.certificate !side)

def slot (self : Meeting) (side : Bool) : Option SessionId :=
  (self.machine side).state.sessions.byPeer.lookup (self.peer side)

def set (self : Meeting) (on : Bool) (shared : Shared) (side : Bool) (attempt : Attempt) : Meeting :=
  { self with
    machine := Function.update self.machine on shared
    attempt := Function.update self.attempt side attempt }

/-- What a step leaves behind; `none` where the handshake does not stand there. -/
def run (self : Meeting) : MeetingOp → Option Meeting
  | .answer side host session order => match self.attempt side with
    | .requested =>
      match (self.machine !side).handleIncoming host (self.certificate side) session (self.screen side) order with
      | (shared, .ok ()) => some (self.set (!side) shared side (.accepted session))
      | (shared, .error _) => some (self.set (!side) shared side .rejected)
    | _ => none
  | .takeUp side host order => match self.attempt side with
    | .accepted session =>
      match (self.machine side).doConnect host (self.certificate !side) session (self.screen !side) .done order with
      | (shared, .ok ()) => some (self.set side shared side (.held session))
      | (shared, .error _) => some (self.set side shared side (.dropped session))
    | .rejected => some (self.set side (self.machine side) side .ended)
    | _ => none
  | .cleanup side order => match self.attempt side with
    | .dropped _ =>
      some (self.set (!side) ((self.machine !side).cleanupPeer (self.peer !side) order) side .ended)
    | _ => none

/-- A session id is drawn at random out of 2^128: it is not one in use. -/
def Fresh (self : Meeting) : MeetingOp → Prop
  | .answer _ _ session _ => ∀ side, session ∉ (self.machine side).state.sessions.sessions
  | _ => True

instance (self : Meeting) (op : MeetingOp) : Decidable (self.Fresh op) := by
  cases op <;> unfold Fresh <;> infer_instance

def Walks (self : Meeting) (op : MeetingOp) : Prop :=
  HashMap.Order op.order (self.machine op.runsOn).state.links

instance (self : Meeting) (op : MeetingOp) : Decidable (self.Walks op) :=
  inferInstanceAs (Decidable (HashMap.Order _ _))

/-- The same with the id and the order checked, for running it. -/
def execute (self : Meeting) (op : MeetingOp) : Option Meeting :=
  (self.run op).filter fun t => decide (self.Fresh op) && decide (t.Walks op)

end Meeting

def MeetingStep (s : Meeting) (op : MeetingOp) (t : Meeting) : Prop :=
  s.run op = some t ∧ s.Fresh op ∧ t.Walks op

theorem MeetingStep.of_execute {s t : Meeting} (executed : s.execute op = some t) : MeetingStep s op t := by
  obtain ⟨ran, checked⟩ := Option.filter_eq_some_iff.mp executed
  obtain ⟨fresh, walks⟩ := Bool.and_eq_true_iff.mp checked
  exact ⟨ran, of_decide_eq_true fresh, of_decide_eq_true walks⟩

namespace Meeting
variable {s t : Meeting}

/-- Every attempt is through, and every session torn down has been cleaned up. -/
def Finished (s : Meeting) : Prop := ∀ side, s.attempt side = .ended ∨ ∃ session, s.attempt side = .held session

/-- Each machine has this session with the other, and no second one. -/
def Shares (s : Meeting) (session : SessionId) : Prop :=
  ∀ side id, (∃ entry, (s.machine side).state.sessions.sessions.lookup id = some entry ∧ entry.peer = s.peer side) ↔
    id = session

/-- Neither machine has a session with the other. -/
def Apart (s : Meeting) : Prop :=
  ∀ side id entry, (s.machine side).state.sessions.sessions.lookup id = some entry → entry.peer ≠ s.peer side

/-- Nobody takes up an accept with a session in its place that the other machine has
already let go. -/
def InTime (s : Meeting) : MeetingOp → Prop
  | .takeUp side _ _ => (s.attempt side).isAccepted = true → (s.attempt !side).isDropped = false
  | _ => True

instance (s : Meeting) (op : MeetingOp) : Decidable (s.InTime op) := by
  cases op <;> unfold InTime <;> infer_instance

/-- Two daemons that trust each other, without a session, each about to be dialled by
the other. -/
structure Begins (s : Meeting) : Prop where
  sound : ∀ side, (s.machine side).Sound
  trusted : ∀ side, (s.machine side).trust.isTrusted (s.certificate !side) = true
  apart : ∀ side, s.slot side = none
  requested : ∀ side, s.attempt side = .requested

/-- Each place holds what the two handshakes left there, and at most one of them left
something. -/
structure Tracked (s : Meeting) : Prop where
  sound : ∀ side, (s.machine side).Sound
  slot : ∀ side, s.slot side = (s.attempt side).dialler.or (s.attempt !side).answerer
  alone : ∀ side, (s.attempt side).dialler = none ∨ (s.attempt !side).answerer = none
  unknown : ∀ {side session}, s.attempt side = .accepted session →
    session ∉ (s.machine side).state.sessions.sessions

theorem Begins.tracked (begins : s.Begins) : s.Tracked where
  sound := begins.sound
  slot side := by rw [begins.apart, begins.requested, begins.requested]; rfl
  alone side := .inl (by rw [begins.requested]; rfl)
  unknown accepted := by simp [begins.requested] at accepted

theorem set_slot (s : Meeting) (on : Bool) (shared : Shared) (side : Bool) (attempt : Attempt) (other : Bool) :
    (s.set on shared side attempt).slot other =
      if other = on then shared.state.sessions.byPeer.lookup (s.peer on) else s.slot other := by
  simp only [slot, set, Function.update_apply]
  split
  · rw [‹other = on›]
    rfl
  · rfl

theorem set_attempt_own (s : Meeting) (on : Bool) (shared : Shared) (side : Bool) (attempt : Attempt) :
    (s.set on shared side attempt).attempt side = attempt := Function.update_self ..

theorem set_attempt_other (s : Meeting) (on : Bool) (shared : Shared) (side : Bool) (attempt : Attempt) :
    (s.set on shared side attempt).attempt (!side) = s.attempt !side :=
  Function.update_of_ne (Bool.not_ne_self side) ..

theorem forall_sides {P : Bool → Prop} (side : Bool) (own : P side) (other : P !side) : ∀ side, P side := by
  cases side
  · exact Bool.forall_bool.mpr ⟨own, other⟩
  · exact Bool.forall_bool.mpr ⟨other, own⟩

/-- The session in a machine's place is in its table. -/
theorem Tracked.stored (tracked : s.Tracked) (found : s.slot side = some session) :
    session ∈ (s.machine side).state.sessions.sessions := by
  obtain ⟨_, stored, _⟩ := (tracked.sound side).sessions.indexed found
  exact Finmap.mem_of_lookup_eq_some stored

/-- Everything a step can do. -/
inductive Moves (s : Meeting) : MeetingOp → Meeting → Prop where
  | answered : s.attempt side = .requested → (s.machine !side).Free (s.certificate side) session →
      (s.machine !side).Establishes (s.certificate side) session .target shared →
      Moves s (.answer side host session order) (s.set (!side) shared side (.accepted session))
  | refused : s.attempt side = .requested → ¬ (s.machine !side).Free (s.certificate side) session →
      Moves s (.answer side host session order) (s.set (!side) (s.machine !side) side .rejected)
  | established : s.attempt side = .accepted session → (s.machine side).Free (s.certificate !side) session →
      (s.machine side).Establishes (s.certificate !side) session .controller shared →
      Moves s (.takeUp side host order) (s.set side shared side (.held session))
  | dropped : s.attempt side = .accepted session → ¬ (s.machine side).Free (s.certificate !side) session →
      Moves s (.takeUp side host order)
        (s.set side ((s.machine side).acceptPeer host (s.certificate !side) .done) side (.dropped session))
  | declined : s.attempt side = .rejected →
    Moves s (.takeUp side host order) (s.set side (s.machine side) side .ended)
  | cleaned : s.attempt side = .dropped session → Moves s (.cleanup side order)
      (s.set (!side) ((s.machine !side).cleanupPeer (s.peer !side) order) side .ended)

theorem moves (ran : s.run op = some t) : s.Moves op t := by
  unfold run at ran
  cases op with
  | answer side host session order =>
    cases stands : s.attempt side <;> simp only [stands, reduceCtorEq] at ran
    rcases (s.machine !side).handleIncoming_cases host (s.certificate side) session (s.screen side) order with
      ⟨free, shared, answered, establishes, _⟩ | ⟨taken, e, refused⟩
    · rw [answered] at ran
      cases ran
      exact .answered stands free establishes
    · rw [refused] at ran
      cases ran
      exact .refused stands taken
  | takeUp side host order =>
    cases stands : s.attempt side <;> simp only [stands, reduceCtorEq] at ran
    · rename_i session
      rcases (s.machine side).doConnect_cases host (s.certificate !side) session (s.screen !side) .done order with
        ⟨⟨_, free⟩, shared, connected, establishes, _⟩ | ⟨failed, e, refused⟩
      · rw [connected] at ran
        cases ran
        exact .established stands free establishes
      · rw [refused] at ran
        cases ran
        exact .dropped stands (failed.resolve_left (not_not.mpr rfl))
    · cases ran
      exact .declined stands
  | cleanup side order =>
    cases stands : s.attempt side <;> simp only [stands, reduceCtorEq] at ran
    cases ran
    exact .cleaned stands

theorem sound_step (sound : ∀ side, (s.machine side).Sound) (step : MeetingStep s op t) :
    ∀ side, (t.machine side).Sound := by
  obtain ⟨ran, _, walks⟩ := step
  have elsewhere : ∀ {on shared side attempt}, shared.Sound → ∀ other,
      ((s.set on shared side attempt).machine other).Sound := by
    intro on shared side attempt kept other
    simp only [set, Function.update_apply]
    split
    · exact kept
    · exact sound other
  unfold run at ran
  cases op with
  | answer side host session order =>
    cases stands : s.attempt side <;> simp only [stands, reduceCtorEq] at ran
    have kept := (sound !side).handleIncoming host (s.certificate side) session (s.screen side) order
    generalize (s.machine !side).handleIncoming host (s.certificate side) session (s.screen side) order =
      result at ran kept
    obtain ⟨shared, _ | _⟩ := result <;> cases ran <;> refine elsewhere (kept ?_)
    all_goals simpa [Walks, MeetingOp.order, MeetingOp.runsOn, set] using walks
  | takeUp side host order =>
    cases stands : s.attempt side <;> simp only [stands, reduceCtorEq] at ran
    · rename_i session
      have kept := (sound side).doConnect host (s.certificate !side) session (s.screen !side) .done order
      generalize (s.machine side).doConnect host (s.certificate !side) session (s.screen !side) .done order = result
        at ran kept
      obtain ⟨shared, _ | _⟩ := result <;> cases ran <;> refine elsewhere (kept ?_)
      all_goals simpa [Walks, MeetingOp.order, MeetingOp.runsOn, set] using walks
    · cases ran
      exact elsewhere (sound side)
  | cleanup side order =>
    cases stands : s.attempt side <;> simp only [stands, reduceCtorEq] at ran
    cases ran
    refine elsewhere ((sound !side).cleanupPeer _ order ?_)
    simpa [Walks, MeetingOp.order, MeetingOp.runsOn, set] using walks

theorem cleanupPeer_slot {shared : Shared} {peer : MachineId} (sound : shared.Sound)
    (found : shared.state.sessions.byPeer.lookup peer = some session) (order : List MachineId) :
    (shared.cleanupPeer peer order).state.sessions.byPeer = shared.state.sessions.byPeer.erase peer ∧
      ∀ id ∈ (shared.cleanupPeer peer order).state.sessions.sessions, id ∈ shared.state.sessions.sessions := by
  obtain ⟨link, linked, rfl⟩ := Option.map_eq_some_iff.mp ((sound.linked peer).trans found)
  have closed : (shared.cleanupPeer peer order).state.sessions = (shared.state.sessions.close link.session).1 := by
    rw [Shared.cleanupPeer]
    rw [linked]
    rfl
  rw [closed]
  refine ⟨(sound.sessions.close_peer found).1, fun id kept => ?_⟩
  rw [SessionManager.close] at kept
  split at kept
  · exact kept
  · dsimp only at kept
    split at kept
    · rw [SessionManager.emit_sessions, SessionManager.setActive_sessions] at kept
      exact (Finmap.mem_erase.mp kept).2
    · exact (Finmap.mem_erase.mp kept).2

theorem Tracked.settle (tracked : s.Tracked) (sound : ∀ other, ((s.set on shared side stands).machine other).Sound)
    (sessions : shared.state.sessions = (s.machine on).state.sessions)
    (dialler : stands.dialler = (s.attempt side).dialler) (answerer : stands.answerer = (s.attempt side).answerer)
    (settled : ∀ session, stands ≠ .accepted session) : (s.set on shared side stands).Tracked := by
  have slots : ∀ other, (s.set on shared side stands).slot other = s.slot other := by
    intro other
    rw [set_slot]
    split
    · rw [‹other = on›, sessions]
      rfl
    · rfl
  refine ⟨sound, forall_sides side ?_ ?_, forall_sides side ?_ ?_, ?_⟩
  · rw [slots, set_attempt_own, set_attempt_other, tracked.slot, dialler]
  · rw [slots, Bool.not_not, set_attempt_own, set_attempt_other, tracked.slot, Bool.not_not, answerer]
  · rw [set_attempt_own, set_attempt_other, dialler]
    exact tracked.alone side
  · have alone := tracked.alone !side
    rw [Bool.not_not] at alone ⊢
    rwa [set_attempt_own, set_attempt_other, answerer]
  · intro other session accepted
    rcases Bool.eq_or_eq_not other side with rfl | rfl
    · rw [set_attempt_own] at accepted
      exact absurd accepted (settled session)
    · rw [set_attempt_other] at accepted
      simp only [set, Function.update_apply]
      split
      · rw [sessions, ← ‹(!side) = on›]
        exact tracked.unknown accepted
      · exact tracked.unknown accepted

theorem Tracked.answered (tracked : s.Tracked)
    (sound : ∀ other, ((s.set (!side) shared side (.accepted session)).machine other).Sound)
    (requested : s.attempt side = .requested) (free : (s.machine !side).Free (s.certificate side) session)
    (fresh : ∀ side, session ∉ (s.machine side).state.sessions.sessions)
    (establishes : (s.machine !side).Establishes (s.certificate side) session .target shared) :
    (s.set (!side) shared side (.accepted session)).Tracked := by
  have known : s.peer (!side) = machineIdOf (s.certificate side) := by rw [peer, Bool.not_not]
  have empty : s.slot (!side) = none := by
    rw [Meeting.slot, known]
    exact Finmap.lookup_eq_none.mpr free.2
  have began : (s.attempt !side).dialler = none := by
    rw [tracked.slot] at empty
    exact (Option.or_eq_none_iff.mp empty).1
  refine ⟨sound, forall_sides side ?_ ?_, forall_sides side ?_ ?_, ?_⟩
  · rw [set_slot, if_neg (Bool.not_ne_self side).symm, set_attempt_own, set_attempt_other, tracked.slot, requested]
    rfl
  · rw [set_slot, if_pos rfl, Bool.not_not, set_attempt_own, set_attempt_other, began, known, establishes.byPeer]
    exact Finmap.lookup_insert _
  · rw [set_attempt_own]
    exact .inl rfl
  · rw [set_attempt_other]
    exact .inl began
  · intro other session' accepted
    rcases Bool.eq_or_eq_not other side with rfl | rfl
    · rw [set_attempt_own] at accepted
      cases accepted
      simpa [set, Function.update_apply] using fresh _
    · rw [set_attempt_other] at accepted
      have stored : s.slot side = some session' := by rw [tracked.slot, requested, accepted]; rfl
      have distinct : session' ≠ session := fun same => fresh side (same ▸ tracked.stored stored)
      simp only [set, Function.update_self, establishes.sessions, Finmap.mem_insert, not_or]
      exact ⟨distinct, tracked.unknown accepted⟩

theorem Tracked.established (tracked : s.Tracked)
    (sound : ∀ other, ((s.set side shared side (.held session)).machine other).Sound)
    (accepted : s.attempt side = .accepted session) (free : (s.machine side).Free (s.certificate !side) session)
    (establishes : (s.machine side).Establishes (s.certificate !side) session .controller shared) :
    (s.set side shared side (.held session)).Tracked := by
  have empty : s.slot side = none := Finmap.lookup_eq_none.mpr free.2
  have answered : (s.attempt !side).answerer = none := by
    rw [tracked.slot] at empty
    exact (Option.or_eq_none_iff.mp empty).2
  refine ⟨sound, forall_sides side ?_ ?_, forall_sides side ?_ ?_, ?_⟩
  · rw [set_slot, if_pos rfl, set_attempt_own, establishes.byPeer]
    exact Finmap.lookup_insert _
  · rw [set_slot, if_neg (Bool.not_ne_self side), Bool.not_not, set_attempt_own, set_attempt_other, tracked.slot,
      Bool.not_not, accepted]
    rfl
  · rw [set_attempt_other]
    exact .inr answered
  · rw [set_attempt_other]
    have alone := tracked.alone !side
    rw [Bool.not_not, accepted] at alone
    exact .inl (alone.resolve_right (Option.some_ne_none _))
  · intro other session' accepted'
    rcases Bool.eq_or_eq_not other side with rfl | rfl
    · rw [set_attempt_own] at accepted'
      cases accepted'
    · rw [set_attempt_other] at accepted'
      simp [accepted', Attempt.answerer] at answered

theorem Tracked.cleaned (tracked : s.Tracked)
    (sound : ∀ other, ((s.set (!side) ((s.machine !side).cleanupPeer (s.peer !side) order) side .ended).machine
      other).Sound) (dropped : s.attempt side = .dropped session) :
    (s.set (!side) ((s.machine !side).cleanupPeer (s.peer !side) order) side .ended).Tracked := by
  have alone := tracked.alone !side
  rw [Bool.not_not, dropped] at alone
  have began := alone.resolve_right (Option.some_ne_none session)
  have filled : s.slot (!side) = some session := by
    rw [tracked.slot, began, Bool.not_not, dropped]
    rfl
  obtain ⟨byPeer, kept⟩ := cleanupPeer_slot (tracked.sound !side) filled order
  refine ⟨sound, forall_sides side ?_ ?_, forall_sides side ?_ ?_, ?_⟩
  · rw [set_slot, if_neg (Bool.not_ne_self side).symm, set_attempt_own, set_attempt_other, tracked.slot, dropped]
    rfl
  · rw [set_slot, if_pos rfl, Bool.not_not, set_attempt_own, set_attempt_other, began, byPeer]
    exact Finmap.lookup_erase _ _
  · rw [set_attempt_own]
    exact .inl rfl
  · rw [set_attempt_other]
    exact .inl began
  · intro other session' accepted
    rcases Bool.eq_or_eq_not other side with rfl | rfl
    · rw [set_attempt_own] at accepted
      cases accepted
    · rw [set_attempt_other] at accepted
      simp only [set, Function.update_self]
      exact fun found => tracked.unknown accepted (kept session' found)

theorem Tracked.step (tracked : s.Tracked) (step : MeetingStep s op t) : t.Tracked := by
  have sound := sound_step tracked.sound step
  obtain ⟨ran, fresh, _⟩ := step
  cases moves ran with
  | answered requested free establishes => exact tracked.answered sound requested free fresh establishes
  | refused requested _ =>
    exact tracked.settle sound rfl (by rw [requested]; rfl) (by rw [requested]; rfl) fun _ wrong => nomatch wrong
  | established accepted free establishes => exact tracked.established sound accepted free establishes
  | dropped accepted _ =>
    exact tracked.settle sound rfl (by rw [accepted]; rfl) (by rw [accepted]; rfl) fun _ wrong => nomatch wrong
  | declined rejected =>
    exact tracked.settle sound rfl (by rw [rejected]; rfl) (by rw [rejected]; rfl) fun _ wrong => nomatch wrong
  | cleaned dropped => exact tracked.cleaned sound dropped

theorem Tracked.of_run (begins : s.Begins) (run : Reaches MeetingStep s ops t) : t.Tracked :=
  run.invariant (fun tracked step => tracked.step step) begins.tracked

theorem Tracked.taken (tracked : s.Tracked) (unknown : session ∉ (s.machine side).state.sessions.sessions)
    (taken : ¬ (s.machine side).Free (s.certificate !side) session) :
    (s.attempt side).dialler.or (s.attempt !side).answerer ≠ none := by
  rw [← tracked.slot]
  intro empty
  exact taken ⟨unknown, Finmap.lookup_eq_none.mp empty⟩

/-- One attempt that has not failed is enough for one never to. -/
theorem Tracked.alive (tracked : s.Tracked) (alive : ∃ side, (s.attempt side).failed = false) (inTime : s.InTime op)
    (step : MeetingStep s op t) : ∃ side, (t.attempt side).failed = false := by
  obtain ⟨ran, fresh, _⟩ := step
  -- Where this side's attempt has failed already, it is the other one that has not.
  have other : ∀ {side}, (s.attempt side).failed = true → (s.attempt !side).failed = false := by
    intro side failed
    obtain ⟨alive, kept⟩ := alive
    rcases Bool.eq_or_eq_not alive side with rfl | rfl
    · exact absurd (kept.symm.trans failed) Bool.false_ne_true
    · exact kept
  cases moves ran with
  | @answered side => exact ⟨side, by rw [set_attempt_own]; rfl⟩
  | @refused side session _ _ requested taken =>
    have elsewhere := tracked.taken (fresh !side) (by rwa [Bool.not_not])
    rw [Bool.not_not, requested] at elsewhere
    refine ⟨!side, ?_⟩
    rw [set_attempt_other]
    cases stands : s.attempt !side <;> simp [stands, Attempt.dialler, Attempt.answerer] at elsewhere
    rfl
  | @established side => exact ⟨side, by rw [set_attempt_own]; rfl⟩
  | @dropped side session _ _ accepted taken =>
    have elsewhere := tracked.taken (tracked.unknown accepted) taken
    rw [accepted] at elsewhere
    refine ⟨!side, ?_⟩
    rw [set_attempt_other]
    cases stands : s.attempt !side <;> simp [stands, Attempt.dialler, Attempt.answerer] at elsewhere
    · rfl
    · rfl
    · have inTime := inTime (by rw [accepted]; rfl)
      rw [stands] at inTime
      cases inTime
  | @declined side _ _ rejected => exact ⟨!side, by rw [set_attempt_other]; exact other (by rw [rejected]; rfl)⟩
  | @cleaned side _ _ dropped => exact ⟨!side, by rw [set_attempt_other]; exact other (by rw [dropped]; rfl)⟩

/-- Once both attempts have failed nothing comes of them any more. -/
theorem lost_step (lost : ∀ side, (s.attempt side).failed = true) (step : MeetingStep s op t) :
    ∀ side, (t.attempt side).failed = true := by
  cases moves step.1 with
  | @answered side _ _ _ _ stands | @refused side _ _ _ stands | @established side _ _ _ _ stands
  | @dropped side _ _ _ stands =>
    have failed := lost side
    rw [stands] at failed
    cases failed
  | @declined side =>
    exact forall_sides side (by rw [set_attempt_own]; rfl) (by rw [set_attempt_other]; exact lost _)
  | @cleaned side =>
    exact forall_sides side (by rw [set_attempt_own]; rfl) (by rw [set_attempt_other]; exact lost _)

/-- An accept taken up too late: the session in the way is gone already. -/
theorem Tracked.late (tracked : s.Tracked) (late : ¬ s.InTime op) (step : MeetingStep s op t) :
    ∀ side, (t.attempt side).failed = true := by
  cases op with
  | answer | cleanup => exact absurd trivial late
  | takeUp side host order =>
    obtain ⟨waiting, dropped⟩ := Classical.not_imp.mp late
    obtain ⟨kept, dropped⟩ : ∃ kept, s.attempt (!side) = .dropped kept := by
      cases stands : s.attempt !side with
      | dropped kept => exact ⟨kept, rfl⟩
      | _ => exact absurd (by rw [stands]; rfl) dropped
    have filled : s.slot side ≠ none := by
      rw [tracked.slot, dropped]
      exact fun empty => Option.some_ne_none _ (Option.or_eq_none_iff.mp empty).2
    cases moves step.1 with
    | established _ free => exact absurd (Finmap.lookup_eq_none.mpr free.2) filled
    | dropped => exact forall_sides side (by rw [set_attempt_own]; rfl) (by rw [set_attempt_other, dropped]; rfl)
    | declined rejected =>
      rw [rejected] at waiting
      cases waiting

/-- What is in a machine's place is its one session with the other. -/
theorem Tracked.only (tracked : s.Tracked) (side : Bool) (id : SessionId) :
    (∃ entry, (s.machine side).state.sessions.sessions.lookup id = some entry ∧ entry.peer = s.peer side) ↔
      s.slot side = some id := by
  constructor
  · rintro ⟨entry, stored, same⟩
    rw [Meeting.slot, ← same]
    exact ((tracked.sound side).sessions.keyed stored).2
  · exact (tracked.sound side).sessions.indexed

theorem Tracked.shares (tracked : s.Tracked) (finished : s.Finished)
    (alive : ∃ side, (s.attempt side).failed = false) :
    ∃ session, s.Shares session := by
  obtain ⟨side, kept⟩ := alive
  rcases finished side with ended | ⟨session, held⟩
  · rw [ended] at kept
    cases kept
  · have alone := tracked.alone !side
    rw [Bool.not_not, held] at alone
    have own : s.slot side = some session := by
      rw [tracked.slot, held]
      rfl
    have other : s.slot (!side) = some session := by
      rw [tracked.slot, alone.resolve_right (Option.some_ne_none _), Bool.not_not, held]
      rfl
    refine ⟨session, forall_sides side (fun id => ?_) (fun id => ?_)⟩
    · rw [tracked.only, own, Option.some.injEq, eq_comm]
    · rw [tracked.only, other, Option.some.injEq, eq_comm]

theorem Tracked.apart (tracked : s.Tracked) (finished : s.Finished)
    (lost : ∀ side, (s.attempt side).failed = true) :
    s.Apart := by
  have ended : ∀ side, s.attempt side = .ended := by
    intro side
    rcases finished side with ended | ⟨session, held⟩
    · exact ended
    · have failed := lost side
      rw [held] at failed
      cases failed
  intro side id entry stored same
  have filled := (tracked.only side id).mp ⟨entry, stored, same⟩
  rw [tracked.slot, ended, ended] at filled
  cases filled

end Meeting

/-- Where every accept is taken up in time, the two machines end up with one session,
the same on both. Where one is not, they end up with none. -/
theorem one_session (begins : Meeting.Begins s) (run : Reaches (guarded MeetingStep Meeting.InTime) s ops t) :
    (t.Finished → ∃ session, t.Shares session) ∧
      ∀ op u later v, ¬ t.InTime op → MeetingStep t op u → Reaches MeetingStep u later v → v.Finished →
        v.Apart := by
  have kept : t.Tracked ∧ ∃ side, (t.attempt side).failed = false := by
    refine run.invariant (P := fun t => t.Tracked ∧ ∃ side, (t.attempt side).failed = false) ?_
      ⟨begins.tracked, true, ?_⟩
    · rintro s op t ⟨tracked, alive⟩ ⟨inTime, step⟩
      exact ⟨tracked.step step, tracked.alive alive inTime step⟩
    · rw [begins.requested]
      rfl
  obtain ⟨tracked, alive⟩ := kept
  refine ⟨fun finished => tracked.shares finished alive, fun op u later v late step rest finished => ?_⟩
  have lost := rest.invariant (P := fun v => v.Tracked ∧ ∀ side, (v.attempt side).failed = true)
    (fun ⟨tracked, lost⟩ step => ⟨tracked.step step, Meeting.lost_step lost step⟩)
    ⟨tracked.step step, tracked.late late step⟩
  exact lost.1.apart finished lost.2

namespace Meeting

def strangers : Meeting :=
  let certificate side := if side then Fingerprint.filled 1 else .filled 2
  { certificate
    machine := fun side => .start (machineIdOf (certificate side)) ⟨100, 100⟩
      ⟨.missing, [⟨some "peer", fingerprintHex (certificate !side)⟩]⟩ none ∅ ∅
    attempt := fun _ => .requested }

theorem strangers_begins : strangers.Begins where
  sound _ := Shared.start_sound _ _ _ _ _ _
  trusted side := by cases side <;> decide +kernel
  apart _ := rfl
  requested _ := rfl

end Meeting

theorem one_session_in_turn : ∃ t : Meeting, t.Finished ∧ ∃ session, t.Shares session := by
  let execute (s : Meeting) (op : MeetingOp) := if s.InTime op then s.execute op else none
  have sound : ∀ {s op t}, execute s op = some t → guarded MeetingStep Meeting.InTime s op t := by
    intro s op t executed
    obtain ⟨inTime, executed⟩ := Option.ite_none_right_eq_some.mp executed
    exact ⟨inTime, .of_execute executed⟩
  obtain ⟨t, run, tested⟩ := Reaches.of_any sound
    (show ([.answer true "desk" ⟨7⟩ [machineIdOf (.filled 1)], .takeUp true "laptop" [machineIdOf (.filled 2)],
        .answer false "laptop" ⟨8⟩ [machineIdOf (.filled 2)], .takeUp false "desk" [machineIdOf (.filled 1)]].foldlM
          execute .strangers).any
      (fun t => t.attempt true = .held ⟨7⟩ ∧ t.attempt false = .ended) = true by decide +kernel)
  obtain ⟨held, ended⟩ := of_decide_eq_true tested
  have finished : t.Finished := Bool.forall_bool.mpr ⟨.inl ended, .inr ⟨_, held⟩⟩
  exact ⟨t, finished, (one_session Meeting.strangers_begins run).1 finished⟩

/-- Each answers the other before either takes up the accept it got. -/
theorem both_let_go : ¬ ∀ (s : Meeting) (ops : List MeetingOp) (t : Meeting),
    s.Begins → Reaches MeetingStep s ops t → t.Finished → ∃ session, t.Shares session := by
  intro shares
  obtain ⟨t, run, ended⟩ := Reaches.of_any MeetingStep.of_execute
    (show ([.answer true "desk" ⟨7⟩ [machineIdOf (.filled 1)], .answer false "laptop" ⟨8⟩ [machineIdOf (.filled 2)],
        .takeUp true "laptop" [machineIdOf (.filled 2)], .takeUp false "desk" [machineIdOf (.filled 1)],
        .cleanup true [], .cleanup false []].foldlM Meeting.execute .strangers).any
      (fun t => ∀ side, t.attempt side = .ended) = true by decide +kernel)
  have ended : ∀ side, t.attempt side = .ended := of_decide_eq_true ended
  obtain ⟨session, shared⟩ := shares _ _ t Meeting.strangers_begins run fun side => .inl (ended side)
  have tracked := Meeting.Tracked.of_run Meeting.strangers_begins run
  have filled := (tracked.only true session).mp ((shared true session).mpr rfl)
  rw [tracked.slot, ended, ended] at filled
  cases filled

end Omnipresent
