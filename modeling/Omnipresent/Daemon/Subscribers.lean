import Omnipresent.Daemon.Subscriptions
import Omnipresent.Execution
import Mathlib.Tactic.FinCases
import Mathlib.Tactic.IntervalCases

/-! What subscriptions come to in the end: they catch up with the daemon, and none of them
keeps it from going down, as long as clients take what is written to them. -/
namespace Omnipresent

def Subscription.Idle (self : Subscription) (board : Announcing) : Prop :=
  self.progress = .ended ∨
    self.progress = .waiting ∧ self.seen = board.version ∧ self.shutdownSeen = board.shutdownVersion

def Progress.left : Progress → ℕ
  | subscribed => 7 | armed => 6 | reading => 5 | gathered _ => 4 | listed .. => 3 | loaded .. => 2
  | writing _ => 1
  | waiting | ended => 0

namespace Subscription
variable {sub next : Subscription} {board : Announcing}

theorem step_line (stepped : sub.step board .line = some next) : next = sub := by
  unfold step at stepped
  split at stepped <;> first | contradiction | cases stepped
  rfl

/-- What a subscription does by itself. The rest is for its client to do. -/
def Action.Own : Action → Prop
  | written | line | hangUp => False
  | _ => True

def Ready (self : Subscription) (board : Announcing) : Prop :=
  ∃ action, action.Own ∧ (self.step board action).isSome

/-- In the middle of a look there is always something to go on with. -/
theorem ready_or_writing (sub : Subscription) (board : Announcing)
    (working : sub.progress ≠ .waiting ∧ sub.progress ≠ .ended) :
    sub.Ready board ∨ ∃ info, sub.progress = .writing info := by
  obtain ⟨seen, shutdownSeen, progress, sent⟩ := sub
  cases progress with
  | subscribed => exact .inl ⟨.arm, trivial, rfl⟩
  | armed => exact .inl ⟨.check, trivial, rfl⟩
  | reading =>
    obtain ⟨passes, covered⟩ := board.daemon.shared.exists_coveredBy
    exact .inl ⟨.gather passes, trivial, Option.isSome_iff_exists.mpr ⟨_, if_pos covered⟩⟩
  | gathered gathered => exact .inl ⟨.listPeers, trivial, rfl⟩
  | listed gathered peers => exact .inl ⟨.loadCapturing, trivial, rfl⟩
  | loaded gathered peers capturing => exact .inl ⟨.loadClipboard, trivial, rfl⟩
  | writing info => exact .inr ⟨info, rfl⟩
  | waiting => exact absurd rfl working.1
  | ended => exact absurd rfl working.2

theorem Idle.not_writing (idle : sub.Idle board) : sub.progress ≠ .writing info := by
  rcases idle with ended | ⟨waiting, _⟩
  · simp [ended]
  · simp [waiting]

theorem Idle.not_ready (idle : sub.Idle board) : ¬ sub.Ready board := by
  rintro ⟨action, own, possible⟩
  obtain ⟨seen, shutdownSeen, progress, sent⟩ := sub
  obtain rfl | ⟨rfl, rfl, rfl⟩ : progress = .ended ∨ progress = .waiting ∧ seen = board.version ∧
    shutdownSeen = board.shutdownVersion := idle
  · cases possible
  · cases action <;> simp [step, Action.Own] at possible own

theorem step_left (stepped : sub.step board action = some next) (moves : action ≠ .line) :
    next.progress.left < sub.progress.left ∨ sub.progress = .waiting := by
  unfold step at stepped
  split at stepped
  case h_2 =>
    cases stepped
    left
    cases board.shuttingDown <;> simp [*, Progress.left]
  case h_3 =>
    split at stepped <;> cases stepped
    exact .inl (by simp [*, Progress.left])
  case h_9 | h_10 | h_11 | h_12 => exact .inr ‹_›
  case h_13 => cases stepped
  all_goals
    cases stepped
    exact .inl (by simp [*, Progress.left])

/-- From where it waits it looks again if there is something new, or it ends. -/
theorem step_waiting (stepped : sub.step board action = some next) (waiting : sub.progress = .waiting)
    (moves : action ≠ .line) :
    sub.seen ≠ board.version ∧ next.seen = board.version ∨ next.progress = .ended := by
  obtain ⟨seen, shutdownSeen, progress, sent⟩ := sub
  obtain rfl : progress = .waiting := waiting
  cases action with
  | changed =>
    simp only [step] at stepped
    split at stepped <;> cases stepped
    exact .inl ⟨‹_›, rfl⟩
  | shutdown =>
    simp only [step] at stepped
    split at stepped <;> cases stepped
    exact .inr rfl
  | hangUp =>
    cases stepped
    exact .inr rfl
  | line => exact absurd rfl moves
  | _ => cases stepped

theorem step_of_ended (ended : sub.progress = .ended) : sub.step board action = none := by
  obtain ⟨seen, shutdownSeen, progress, sent⟩ := sub
  obtain rfl : progress = .ended := ended
  rfl

theorem step_shutdown (stepped : sub.step board .shutdown = some next) : next.progress = .ended := by
  unfold step at stepped
  split at stepped <;> first | contradiction | skip
  split at stepped <;> cases stepped
  rfl

/-- Nothing but the client ends it while the daemon is up. -/
theorem step_ended (stepped : sub.step board action = some next) (ended : next.progress = .ended)
    (up : board.shuttingDown = false) (unsignalled : sub.shutdownSeen = board.shutdownVersion) :
    action = .hangUp ∨ sub.progress = .ended := by
  unfold step at stepped
  split at stepped
  case h_2 =>
    cases stepped
    simp [up] at ended
  case h_3 | h_9 =>
    split at stepped <;> cases stepped
    cases ended
  case h_8 | h_12 => exact .inl rfl
  case h_10 => simp [unsignalled] at stepped
  case h_11 =>
    cases stepped
    exact .inr ended
  case h_13 => cases stepped
  all_goals
    cases stepped
    cases ended

end Subscription

namespace Announcing
open Transition
variable {s t : Announcing}

/-- A subscription past its look at the shutdown flag. -/
def Listening (sub : Subscription) : Prop :=
  sub.progress ≠ .subscribed ∧ sub.progress ≠ .armed ∧ sub.progress ≠ .ended

/-- Who listens has not marked the shutdown signal that was given. -/
structure Warned (s : Announcing) : Prop where
  silent : s.shuttingDown = false → s.shutdownVersion = 0
  marked : ∀ sub ∈ s.subscriptions, sub.shutdownSeen ≤ s.shutdownVersion
  unmarked : s.shuttingDown = true → ∀ sub ∈ s.subscriptions, Listening sub →
    sub.shutdownSeen < s.shutdownVersion

/-- A subscription marks the signal before it looks at the flag, and never after. -/
theorem step_shutdownSeen (stepped : sub.step s action = some next) :
    next.shutdownSeen = s.shutdownVersion ∧ next.progress = .armed ∨
      next.shutdownSeen = sub.shutdownSeen ∧ (Listening next → Listening sub ∨ s.shuttingDown = false) := by
  unfold Subscription.step at stepped
  split at stepped
  case h_1 =>
    cases stepped
    exact .inl ⟨rfl, rfl⟩
  case h_2 =>
    cases stepped
    refine .inr ⟨rfl, fun listening => ?_⟩
    cases down : s.shuttingDown with
    | true => exact absurd (if_pos down) listening.2.2
    | false => exact .inr rfl
  case h_3 =>
    split at stepped <;> cases stepped
    exact .inr ⟨rfl, fun _ => .inl (by simp [Listening, *])⟩
  case h_9 =>
    split at stepped <;> cases stepped
    exact .inr ⟨rfl, fun _ => .inl (by simp [Listening, *])⟩
  case h_10 =>
    split at stepped <;> cases stepped
    exact .inr ⟨rfl, fun _ => .inl (by simp [Listening, *])⟩
  case h_13 => cases stepped
  all_goals
    cases stepped
    exact .inr ⟨rfl, fun _ => .inl (by simp [Listening, *])⟩

theorem Warned.act (warned : s.Warned) (stepped : s.step (.act i action) = some t) : t.Warned := by
  obtain ⟨sub, next, found, moved, rfl⟩ := act_inv stepped
  have member := List.mem_of_getElem? found
  refine ⟨warned.silent, fun other changed => ?_, fun down other changed listening => ?_⟩
  · rcases List.mem_or_eq_of_mem_set changed with kept | rfl
    · exact warned.marked other kept
    · rcases step_shutdownSeen moved with ⟨marked, _⟩ | ⟨same, _⟩
      · exact marked.le
      · exact same ▸ warned.marked sub member
  · rcases List.mem_or_eq_of_mem_set changed with kept | rfl
    · exact warned.unmarked down other kept listening
    · rcases step_shutdownSeen moved with ⟨_, armed⟩ | ⟨same, before⟩
      · exact absurd armed listening.2.1
      · rw [same]
        rcases before listening with listened | up
        · exact warned.unmarked down sub member listened
        · exact absurd (up.symm.trans down) Bool.false_ne_true

theorem Warned.step (warned : s.Warned) (stepped : s.step label = some t) : t.Warned := by
  cases label with
  | spawn op =>
    cases stepped
    exact ⟨warned.silent, warned.marked, warned.unmarked⟩
  | enter i =>
    obtain ⟨task, next, daemon, rest, _, _, _, _, rfl⟩ := enter_inv stepped
    exact ⟨warned.silent, warned.marked, warned.unmarked⟩
  | notify i =>
    obtain ⟨task, rfl⟩ := notify_inv stepped
    exact ⟨warned.silent, warned.marked, warned.unmarked⟩
  | subscribe =>
    cases stepped
    refine ⟨warned.silent, fun sub member => ?_, fun down sub member listening => ?_⟩
    · rcases List.mem_append.mp member with kept | new
      · exact warned.marked sub kept
      · rw [List.mem_singleton.mp new]
        exact Nat.zero_le _
    · rcases List.mem_append.mp member with kept | new
      · exact warned.unmarked down sub kept listening
      · rw [List.mem_singleton.mp new] at listening
        exact absurd rfl listening.1
  | act i action => exact warned.act stepped
  | shutDown =>
    cases stepped
    exact ⟨nofun, fun sub member => (warned.marked sub member).trans (Nat.le_succ _),
      fun _ sub member _ => Nat.lt_succ_of_le (warned.marked sub member)⟩

theorem start_warned (daemon : Daemon) : (start daemon).Warned where
  silent _ := rfl
  marked _ member := absurd member List.not_mem_nil
  unmarked _ _ member := absurd member List.not_mem_nil

/-- No subscription is put off for ever where it can go on by itself. What is written to it a
client takes, or it leaves. -/
structure Fair (run : Execution Step) : Prop where
  goesOn : ∀ {n i sub}, (run.state n).subscriptions[i]? = some sub → sub.Ready (run.state n) →
    ∃ m ≥ n, ∃ action, run.label m = some (.act i action) ∧ action ≠ .line
  taken : ∀ {n i sub info}, (run.state n).subscriptions[i]? = some sub → sub.progress = .writing info →
    ∃ m ≥ n, run.label m = some (.act i .written) ∨ run.label m = some (.act i .hangUp)

/-- The loop that is offered the shutdown signal again and again does not pass it over for ever. -/
def Heeds (run : Execution Step) : Prop :=
  ∀ i, (∀ n, ∃ m ≥ n, ∃ sub, (run.state m).subscriptions[i]? = some sub ∧
    (sub.step (run.state m) .shutdown).isSome) → ∃ m, run.label m = some (.act i .shutdown)

theorem step_acts (stepped : s.step label = some t) (found : s.subscriptions[i]? = some sub) :
    t.subscriptions[i]? = some sub ∨ ∃ action next, label = .act i action ∧ sub.step s action = some next ∧
      t.subscriptions[i]? = some next := by
  cases label with
  | spawn op =>
    cases stepped
    exact .inl found
  | enter j =>
    obtain ⟨task, next, daemon, rest, _, _, _, _, rfl⟩ := enter_inv stepped
    exact .inl found
  | notify j =>
    obtain ⟨task, rfl⟩ := notify_inv stepped
    exact .inl found
  | subscribe =>
    cases stepped
    exact .inl ((List.getElem?_append_left (List.getElem?_eq_some_iff.mp found).1).trans found)
  | act j action =>
    obtain ⟨acting, next, there, moved, rfl⟩ := act_inv stepped
    by_cases same : j = i
    · subst same
      cases found.symm.trans there
      exact .inr ⟨action, next, rfl, moved, List.getElem?_set_self (List.getElem?_eq_some_iff.mp found).1⟩
    · exact .inl ((List.getElem?_set_ne same).trans found)
  | shutDown =>
    cases stepped
    exact .inl found

theorem step_shuttingDown (stepped : s.step label = some t) (down : s.shuttingDown = true) :
    t.shuttingDown = true := by
  cases label with
  | enter i =>
    obtain ⟨task, next, daemon, rest, _, _, _, _, rfl⟩ := enter_inv stepped
    exact down
  | notify i =>
    obtain ⟨task, rfl⟩ := notify_inv stepped
    exact down
  | act i action =>
    obtain ⟨sub, next, _, _, rfl⟩ := act_inv stepped
    exact down
  | shutDown =>
    cases stepped
    rfl
  | spawn | subscribe =>
    cases stepped
    exact down

section Execution
variable {run : Execution Step} {n m i : ℕ} {sub : Subscription}

theorem stays_there (found : (run.state n).subscriptions[i]? = some sub) (later : n ≤ m) :
    ∃ sub, (run.state m).subscriptions[i]? = some sub := by
  refine run.always (P := fun s => ∃ sub, s.subscriptions[i]? = some sub) ⟨sub, found⟩ ?_ later
  rintro k label _ happening ⟨sub, found⟩
  rcases step_acts (run.steps happening) found with kept | ⟨_, next, _, _, after⟩
  · exact ⟨sub, kept⟩
  · exact ⟨next, after⟩

/-- What a subscription is bound to do, it does from where it is now. -/
theorem moves_on (due : ∃ m ≥ n, ∃ action, run.label m = some (.act i action) ∧ action ≠ .line)
    (found : (run.state n).subscriptions[i]? = some sub) :
    ∃ m ≥ n, ∃ action next, action ≠ .line ∧ sub.step (run.state m) action = some next ∧
      (run.state (m + 1)).subscriptions[i]? = some next := by
  obtain ⟨m, later, action, happening, moves⟩ := due
  obtain ⟨m, later, label, happening, ⟨action, rfl, moves⟩, there⟩ := run.awaits
    (A := fun label => ∃ action, label = .act i action ∧ action ≠ .line)
    (P := fun s => s.subscriptions[i]? = some sub) ⟨m, later, _, happening, action, rfl, moves⟩ found
    fun happening other there => by
      rcases step_acts (run.steps happening) there with kept | ⟨action, next, rfl, moved, after⟩
      · exact kept
      · obtain rfl : action = .line := not_not.mp fun moves => other ⟨action, rfl, moves⟩
        exact Subscription.step_line moved ▸ after
  refine ⟨m, later, action, ?_⟩
  obtain ⟨acting, next, same, moved, result⟩ := act_inv (run.steps happening)
  cases there.symm.trans same
  refine ⟨next, moves, moved, ?_⟩
  rw [result]
  exact List.getElem?_set_self (List.getElem?_eq_some_iff.mp there).1

def Idles (i : ℕ) (s : Announcing) : Prop :=
  ∃ sub, s.subscriptions[i]? = some sub ∧ (sub.progress = .waiting ∨ sub.progress = .ended)

/-- Every look is brought to its end. -/
theorem Fair.idles (fair : Fair run) (found : (run.state n).subscriptions[i]? = some sub) :
    ∃ m ≥ n, Idles i (run.state m) := by
  suffices ∃ m ≥ n, (∃ sub, (run.state m).subscriptions[i]? = some sub) ∧ Idles i (run.state m) from
    this.imp fun _ => And.imp_right And.right
  refine run.arrives (P := fun s => ∃ sub, s.subscriptions[i]? = some sub)
    (fun s => (s.subscriptions[i]?).elim 0 fun sub => sub.progress.left) ?_ ⟨sub, found⟩
  rintro k _ ⟨sub, found⟩
  rw [or_iff_not_imp_left]
  intro busy
  have working : sub.progress ≠ .waiting ∧ sub.progress ≠ .ended :=
    not_or.mp fun idle => busy ⟨sub, found, idle⟩
  have due : ∃ m ≥ k, ∃ action, run.label m = some (.act i action) ∧ action ≠ .line := by
    rcases sub.ready_or_writing (run.state k) working with ready | ⟨info, writing⟩
    · exact fair.goesOn found ready
    · obtain ⟨m, later, taken | left⟩ := fair.taken found writing
      · exact ⟨m, later, .written, taken, nofun⟩
      · exact ⟨m, later, .hangUp, left, nofun⟩
  obtain ⟨m, later, action, next, moves, moved, there⟩ := moves_on due found
  refine ⟨m + 1, later.trans (Nat.le_succ m), ⟨next, there⟩, ?_⟩
  rw [there, found]
  exact (Subscription.step_left moved moves).resolve_right working.1

end Execution

/-- Only subscriptions act, or a client subscribes. -/
def Label.Looks : Label → Prop
  | .act .. | .subscribe => True
  | _ => False

/-- The daemon is at rest, and not going down. -/
structure Rest (s : Announcing) (daemon : Daemon) (version : ℕ) : Prop where
  sound : s.Sound
  warned : s.Warned
  quiet : s.Quiet
  up : s.shuttingDown = false
  sameDaemon : s.daemon = daemon
  sameVersion : s.version = version

section Execution
variable {run : Execution Step} {daemon : Daemon} {version n m i : ℕ} {sub : Subscription}

theorem Rest.step (rest : s.Rest daemon version) (looks : label.Looks) (stepped : s.step label = some t) :
    t.Rest daemon version := by
  have warned := rest.warned.step stepped
  cases label with
  | act i action =>
    have sound := rest.sound.act stepped
    obtain ⟨sub, next, found, moved, rfl⟩ := act_inv stepped
    exact ⟨sound, warned, rest.quiet, rest.up, rest.sameDaemon, rest.sameVersion⟩
  | subscribe =>
    have loud : s.Loud .subscribe := trivial
    have sound := rest.sound.step loud stepped
    cases stepped
    exact ⟨sound, warned, rest.quiet, rest.up, rest.sameDaemon, rest.sameVersion⟩
  | _ => cases looks

theorem Rest.unsignalled (rest : s.Rest daemon version) (member : sub ∈ s.subscriptions) :
    sub.shutdownSeen = s.shutdownVersion := by
  have marked := rest.warned.marked sub member
  rw [rest.warned.silent rest.up] at marked ⊢
  exact Nat.le_zero.mp marked

theorem stays_alive (rest : ∀ k, (run.state k).Rest daemon version)
    (stays : ¬ ∃ m ≥ n, run.label m = some (.act i .hangUp))
    (found : (run.state n).subscriptions[i]? = some sub) (live : sub.progress ≠ .ended) (later : n ≤ m)
    (there : (run.state m).subscriptions[i]? = some last) : last.progress ≠ .ended := by
  suffices ∃ sub, (run.state m).subscriptions[i]? = some sub ∧ sub.progress ≠ .ended by
    obtain ⟨same, found, live⟩ := this
    cases there.symm.trans found
    exact live
  refine run.always (P := fun s => ∃ sub, s.subscriptions[i]? = some sub ∧ sub.progress ≠ .ended)
    ⟨sub, found, live⟩ ?_ later
  rintro k label later happening ⟨sub, found, live⟩
  rcases step_acts (run.steps happening) found with kept | ⟨action, next, rfl, moved, after⟩
  · exact ⟨sub, kept, live⟩
  · refine ⟨next, after, fun ended => ?_⟩
    have unsignalled := (rest k).unsignalled (List.mem_of_getElem? found)
    rcases Subscription.step_ended moved ended (rest k).up unsignalled with rfl | before
    · exact stays ⟨k, later, happening⟩
    · exact live before

/-- What a subscription has marked is the last change there was. -/
def CaughtUp (i version : ℕ) (s : Announcing) : Prop :=
  ∃ sub, s.subscriptions[i]? = some sub ∧ sub.seen = version

theorem caughtUp_lasts (rest : ∀ k, (run.state k).Rest daemon version) (caughtUp : CaughtUp i version (run.state n))
    (later : n ≤ m) : CaughtUp i version (run.state m) := by
  refine run.always caughtUp ?_ later
  rintro k label _ happening ⟨sub, found, same⟩
  rcases step_acts (run.steps happening) found with kept | ⟨action, next, rfl, moved, after⟩
  · exact ⟨sub, kept, same⟩
  · rcases Subscription.step_seen moved with unmarked | ⟨marked, _⟩
    · exact ⟨next, after, unmarked.trans same⟩
    · exact ⟨next, after, marked.trans (rest k).sameVersion⟩

theorem catches_up (rest : ∀ k, (run.state k).Rest daemon version) (fair : Fair run)
    (alive : ∀ {k last}, n ≤ k → (run.state k).subscriptions[i]? = some last → last.progress ≠ .ended)
    (found : (run.state n).subscriptions[i]? = some sub) (waiting : sub.progress = .waiting) :
    ∃ m ≥ n, CaughtUp i version (run.state m) := by
  by_cases caughtUp : sub.seen = version
  · exact ⟨n, le_rfl, sub, found, caughtUp⟩
  have ready : sub.Ready (run.state n) := by
    refine ⟨.changed, trivial, ?_⟩
    simp [Subscription.step, waiting, (rest n).sameVersion, caughtUp]
  obtain ⟨m, later, action, next, moves, moved, there⟩ := moves_on (fair.goesOn found ready) found
  rcases Subscription.step_waiting moved waiting moves with ⟨_, marked⟩ | ended
  · exact ⟨m + 1, later.trans (Nat.le_succ m), next, there, marked.trans (rest m).sameVersion⟩
  · exact absurd ended (alive (later.trans (Nat.le_succ m)) there)

theorem waits_on (rest : ∀ k, (run.state k).Rest daemon version)
    (alive : ∀ {k last}, n ≤ k → (run.state k).subscriptions[i]? = some last → last.progress ≠ .ended)
    (found : (run.state n).subscriptions[i]? = some sub) (waiting : sub.progress = .waiting)
    (caughtUp : sub.seen = version) (later : n ≤ m) :
    ∃ sub, (run.state m).subscriptions[i]? = some sub ∧ sub.progress = .waiting ∧ sub.seen = version := by
  refine run.always (P := fun s => ∃ sub, s.subscriptions[i]? = some sub ∧ sub.progress = .waiting ∧
    sub.seen = version) ⟨sub, found, waiting, caughtUp⟩ ?_ later
  rintro k label later happening ⟨sub, found, waiting, caughtUp⟩
  rcases step_acts (run.steps happening) found with kept | ⟨action, next, rfl, moved, after⟩
  · exact ⟨sub, kept, waiting, caughtUp⟩
  by_cases stray : action = .line
  · subst stray
    exact ⟨sub, Subscription.step_line moved ▸ after, waiting, caughtUp⟩
  rcases Subscription.step_waiting moved waiting stray with ⟨behind, _⟩ | ended
  · exact absurd (caughtUp.trans (rest k).sameVersion.symm) behind
  · exact absurd ended (alive (later.trans (Nat.le_succ k)) after)

/-- It has nothing more to look at, and the last thing written is the status. -/
def Shows (i : ℕ) (daemon : Daemon) (s : Announcing) : Prop :=
  ∃ sub passes, s.subscriptions[i]? = some sub ∧ sub.progress = .waiting ∧
    daemon.shared.CoveredBy passes ∧ sub.sent.getLast? = some (daemon.status passes)

theorem Rest.shows (rest : s.Rest daemon version) (found : s.subscriptions[i]? = some sub)
    (waiting : sub.progress = .waiting) (caughtUp : sub.seen = version) : Shows i daemon s := by
  have current := rest.sound.current sub (List.mem_of_getElem? found)
  have fresh := current.settled (caughtUp.trans rest.sameVersion.symm) (rest.sound.settled rest.quiet)
  rw [Subscription.Fresh, waiting, rest.sameDaemon] at fresh
  obtain ⟨passes, covered, last⟩ := fresh
  exact ⟨sub, passes, found, waiting, covered, last⟩

/-- Once all tasks are done and nothing but the subscriptions does anything, each of them comes
to where the last thing it has written is the status as it is, unless its client leaves. -/
theorem subscriptions_catch_up (reached : Reaches (guarded Step Loud) (start initial) labels (run.state 0))
    (quiet : (run.state 0).Quiet) (up : (run.state 0).shuttingDown = false)
    (still : ∀ n, ∀ label ∈ run.label n, label.Looks) (fair : Fair run)
    (found : (run.state n).subscriptions[i]? = some sub) (live : sub.progress ≠ .ended) :
    (∃ m ≥ n, run.label m = some (.act i .hangUp)) ∨
      ∃ m ≥ n, ∀ k ≥ m, Shows i (run.state 0).daemon (run.state k) := by
  rw [or_iff_not_imp_left]
  intro stays
  have rest (k) : (run.state k).Rest (run.state 0).daemon (run.state 0).version := by
    have warned : (run.state 0).Warned :=
      reached.unguarded.invariant (fun warned stepped => warned.step stepped) (start_warned initial)
    exact run.always (P := fun s => s.Rest (run.state 0).daemon (run.state 0).version)
      ⟨run_sound reached, warned, quiet, up, rfl, rfl⟩
      (fun _ happening rest => rest.step (still _ _ happening) (run.steps happening)) (Nat.zero_le k)
  have alive {k last} (later : n ≤ k) (there : (run.state k).subscriptions[i]? = some last) :
      last.progress ≠ .ended := stays_alive rest stays found live later there
  have waits {k sub} (later : n ≤ k) (found : (run.state k).subscriptions[i]? = some sub) :
      ∃ m ≥ k, ∃ sub, (run.state m).subscriptions[i]? = some sub ∧ sub.progress = .waiting := by
    obtain ⟨m, after, sub, there, idle⟩ := fair.idles found
    exact ⟨m, after, sub, there, idle.resolve_right (alive (later.trans after) there)⟩
  obtain ⟨first, later, sub, found, waiting⟩ := waits le_rfl found
  obtain ⟨marking, after, sub, found, marked⟩ :=
    catches_up rest fair (fun following => alive (later.trans following)) found waiting
  have later := later.trans after
  obtain ⟨m, after, sub, there, waiting⟩ := waits later found
  obtain ⟨same, found, caughtUp⟩ := caughtUp_lasts rest ⟨_, found, marked⟩ after
  cases there.symm.trans found
  have later := later.trans after
  refine ⟨m, later, fun k after => ?_⟩
  obtain ⟨last, found, waiting, caughtUp⟩ :=
    waits_on rest (fun following => alive (later.trans following)) there waiting caughtUp after
  exact (rest k).shows found waiting caughtUp

end Execution

/-- The first subscription looks again, and then nothing happens any more. -/
def lookingAgain : Execution Step := .idling id switched (.act 0 .changed :: look) rfl

theorem lookingAgain_shown (done : 6 ≤ n) : lookingAgain.state n = shown :=
  Execution.idling_state id rfl done

theorem lookingAgain_fair : Fair lookingAgain := by
  have only {n i : ℕ} {sub : Subscription} (found : (lookingAgain.state n).subscriptions[i]? = some sub) : i = 0 := by
    have one : (lookingAgain.state n).subscriptions.length = 1 := by
      rcases Nat.lt_or_ge n 6 with early | done
      · interval_cases n <;> rfl
      · rw [lookingAgain_shown done]
        rfl
    exact Nat.lt_one_iff.mp (one ▸ (List.getElem?_eq_some_iff.mp found).1)
  have idle {n i : ℕ} {sub : Subscription} (done : 6 ≤ n)
      (found : (lookingAgain.state n).subscriptions[i]? = some sub) : sub.Idle (lookingAgain.state n) := by
    rw [lookingAgain_shown done] at found ⊢
    obtain rfl := List.mem_singleton.mp (List.mem_of_getElem? found)
    exact .inr ⟨rfl, rfl, rfl⟩
  constructor
  · intro n i sub found ready
    obtain rfl := only found
    rcases Nat.lt_or_ge n 6 with early | done
    · refine ⟨n, le_rfl, ?_⟩
      interval_cases n <;> exact ⟨_, rfl, nofun⟩
    · exact absurd ready (idle done found).not_ready
  · intro n i sub info found writing
    obtain rfl := only found
    rcases Nat.lt_or_ge 5 n with done | early
    · exact absurd writing (idle done found).not_writing
    · exact ⟨5, early, .inl rfl⟩

theorem subscriptions_catch_up_switched :
    (∃ m ≥ 0, lookingAgain.label m = some (.act 0 .hangUp)) ∨
      ∃ m ≥ 0, ∀ k ≥ m, Shows 0 switched.daemon (lookingAgain.state k) := by
  have found : (lookingAgain.state 0).subscriptions[0]? = some (switched.subscriptions.head nofun) := rfl
  refine subscriptions_catch_up switched_run ?_ rfl ?_ lookingAgain_fair found nofun
  · intro task done
    cases List.mem_singleton.mp done
    exact ⟨rfl, rfl⟩
  · intro n label happening
    have member := List.mem_of_getElem? happening
    fin_cases member <;> trivial

section Execution
variable {run : Execution Step} {n m i : ℕ} {sub : Subscription}

/-- Whatever else goes on, once the daemon is going down every subscription comes to its end,
whenever it was made. -/
theorem shutdown_lets_go (reached : Reaches Step (start initial) labels (run.state 0)) (fair : Fair run)
    (heeds : Heeds run) (down : (run.state n).shuttingDown = true)
    (found : (run.state n).subscriptions[i]? = some sub) :
    ∃ m, ∀ k ≥ m, ∃ last, (run.state k).subscriptions[i]? = some last ∧ last.progress = .ended := by
  have ended_lasts {m sub} (found : (run.state m).subscriptions[i]? = some sub) (ended : sub.progress = .ended)
      (k) (later : m ≤ k) : ∃ last, (run.state k).subscriptions[i]? = some last ∧ last.progress = .ended := by
    refine run.always (P := fun s => ∃ last, s.subscriptions[i]? = some last ∧ last.progress = .ended)
      ⟨sub, found, ended⟩ ?_ later
    rintro k label _ happening ⟨last, found, ended⟩
    rcases step_acts (run.steps happening) found with kept | ⟨action, next, rfl, moved, _⟩
    · exact ⟨last, kept, ended⟩
    · rw [Subscription.step_of_ended ended] at moved
      cases moved
  have warned (k) : (run.state k).Warned := by
    have first : (run.state 0).Warned :=
      reached.invariant (fun warned stepped => warned.step stepped) (start_warned initial)
    exact run.always first (fun _ happening warned => warned.step (run.steps happening)) (Nat.zero_le k)
  have down (k) (later : n ≤ k) : (run.state k).shuttingDown = true :=
    run.always (P := fun s => s.shuttingDown = true) down
      (fun _ happening down => step_shuttingDown (run.steps happening) down) later
  by_contra never
  have offered (k) : ∃ m ≥ k, ∃ sub, (run.state m).subscriptions[i]? = some sub ∧
      (sub.step (run.state m) .shutdown).isSome := by
    obtain ⟨sub, found⟩ := stays_there found (Nat.le_max_left n k)
    obtain ⟨m, later, sub, there, waiting | ended⟩ := fair.idles found
    · have unmarked := (warned m).unmarked (down m ((Nat.le_max_left n k).trans later)) sub
        (List.mem_of_getElem? there) ⟨by simp [waiting], by simp [waiting], by simp [waiting]⟩
      refine ⟨m, (Nat.le_max_right n k).trans later, sub, there, ?_⟩
      simp [Subscription.step, waiting, unmarked.ne]
    · exact absurd ⟨m, ended_lasts there ended⟩ never
  obtain ⟨m, heard⟩ := heeds i offered
  obtain ⟨sub, next, there, moved, result⟩ := act_inv (run.steps heard)
  have last : (run.state (m + 1)).subscriptions[i]? = some next := by
    rw [result]
    exact List.getElem?_set_self (List.getElem?_eq_some_iff.mp there).1
  exact never ⟨m + 1, ended_lasts last (Subscription.step_shutdown moved)⟩

end Execution

def leaving : Announcing := (switched.step .shutDown).get rfl

def lettingGo : Execution Step := .idling id leaving [.act 0 .shutdown] rfl

theorem lettingGo_ended {i : ℕ} (found : (lettingGo.state (n + 1)).subscriptions[i]? = some sub) :
    sub.progress = .ended := by
  have last : lettingGo.state (n + 1) = lettingGo.state 1 := Execution.idling_state id rfl (Nat.le_add_left 1 n)
  rw [last] at found
  obtain rfl := List.mem_singleton.mp (List.mem_of_getElem? found)
  rfl

theorem lettingGo_fair : Fair lettingGo := by
  constructor
  · intro n i sub found ready
    cases n with
    | zero =>
      obtain rfl : i = 0 := Nat.lt_one_iff.mp (List.getElem?_eq_some_iff.mp found).1
      exact ⟨0, le_rfl, _, rfl, nofun⟩
    | succ n => exact absurd ready (Subscription.Idle.not_ready (.inl (lettingGo_ended found)))
  · intro n i sub info found writing
    cases n with
    | zero =>
      obtain rfl := List.mem_singleton.mp (List.mem_of_getElem? found)
      cases writing
    | succ n => cases (lettingGo_ended found).symm.trans writing

theorem lettingGo_heeds : Heeds lettingGo := by
  intro i offered
  obtain ⟨m, done, sub, found, possible⟩ := offered 1
  obtain ⟨n, rfl⟩ := Nat.exists_eq_add_of_le' done
  rw [Subscription.step_of_ended (lettingGo_ended found)] at possible
  cases possible

theorem shutdown_lets_go_leaving :
    ∃ m, ∀ k ≥ m, ∃ last, (lettingGo.state k).subscriptions[0]? = some last ∧ last.progress = .ended := by
  have later : Reaches Step switched [.shutDown] leaving := .single (Option.some_get _).symm
  have found : (lettingGo.state 0).subscriptions[0]? = some (leaving.subscriptions.head nofun) := rfl
  exact shutdown_lets_go (switched_run.unguarded.trans later) lettingGo_fair lettingGo_heeds (n := 0) rfl found

end Announcing
end Omnipresent
