import Omnipresent.Daemon.Ipc
import Omnipresent.Transition
import Mathlib.Logic.Function.Basic

/-! The connect requests waiting for the user: one handler for each, the list they
share, and the user's decisions, in any order of their critical sections. -/
namespace Omnipresent
open Transition

inductive Outcome where
  | approved
  | rejected
  | elapsed
  /-- The decision's sender went away without deciding. -/
  | dropped
deriving DecidableEq, Repr

inductive Handler where
  | idle
  /-- On the decision channel, with what has been sent on it. -/
  | waiting (host : String) (fingerprint : Fingerprint) (sent : Option Bool)
  | woken (host : String) (fingerprint : Fingerprint) (outcome : Outcome)
  | cleared (host : String) (fingerprint : Fingerprint) (outcome : Outcome)
  /-- Answered `Reject(Declined)`. -/
  | declined (host : String) (fingerprint : Fingerprint) (outcome : Outcome)
  | admitted
deriving DecidableEq

/-- What a send on the decision channel does at the other end; nobody listens
any more once the wait is over. -/
def Handler.receive (approve : Bool) : Handler → Handler
  | waiting host fingerprint none => waiting host fingerprint (some approve)
  | other => other

structure Inbound where
  shared : Shared
  handlers : Nat → Handler

inductive InboundOp where
  | arrive (request : Nat) (host : String) (fingerprint : Fingerprint)
  /-- The user's answer, and the request it was found to be for. -/
  | decide (selector : String) (approve : Bool) (told : Option Nat)
  | wake (request : Nat)
  | expire (request : Nat)
  | clear (request : Nat)
  | conclude (request : Nat)
deriving DecidableEq

namespace Inbound

def withHandler (s : Inbound) (request : Nat) (handler : Handler) : Inbound :=
  { s with handlers := Function.update s.handlers request handler }

/-- The sender of this handler's decision is still on the list. -/
def Listed (s : Inbound) (request : Nat) : Prop := ∃ p ∈ s.shared.state.pending, p.decision = request

end Inbound

inductive InboundStep : Inbound → InboundOp → Inbound → Prop where
  | arrive : s.handlers request = .idle → s.shared.trust.isTrusted fingerprint = false →
      InboundStep s (.arrive request host fingerprint)
        ({ s with shared := s.shared.askUser host fingerprint request }.withHandler request
          (.waiting host fingerprint none))
  | decided : s.shared.decidePending selector = (after, some request, response) →
      InboundStep s (.decide selector approve (some request))
        ({ s with shared := after }.withHandler request ((s.handlers request).receive approve))
  | unmatched : s.shared.decidePending selector = (after, none, response) →
      InboundStep s (.decide selector approve none) { s with shared := after }
  | told : s.handlers request = .waiting host fingerprint (some approve) →
      InboundStep s (.wake request)
        (s.withHandler request (.woken host fingerprint (if approve then .approved else .rejected)))
  | dropped : s.handlers request = .waiting host fingerprint none → ¬ s.Listed request →
      InboundStep s (.wake request) (s.withHandler request (.woken host fingerprint .dropped))
  | expire : s.handlers request = .waiting host fingerprint none → s.Listed request →
      InboundStep s (.expire request) (s.withHandler request (.woken host fingerprint .elapsed))
  | clear : s.handlers request = .woken host fingerprint outcome →
      InboundStep s (.clear request)
        ({ s with shared := s.shared.retainPending fingerprint }.withHandler request
          (.cleared host fingerprint outcome))
  | decline : s.handlers request = .cleared host fingerprint outcome → outcome ≠ .approved →
      InboundStep s (.conclude request) (s.withHandler request (.declined host fingerprint outcome))
  | approved : s.handlers request = .cleared host fingerprint .approved →
      InboundStep s (.conclude request)
        ({ s with shared := s.shared.acceptPeer host fingerprint write }.withHandler request .admitted)

/-- The user rejected this request: a rejection named it, and took it off the list. -/
def Rejected (ops : List InboundOp) (request : Nat) (host : String) (fingerprint : Fingerprint) : Prop :=
  ∃ selector, .decide selector false (some request) ∈ ops ∧
    PendingRequest.selected ⟨host, fingerprint, request⟩ selector = true

/-- The outcome is one the user or this request's own timeout brought about. -/
def Outcome.Caused (ops : List InboundOp) (request : Nat) (host : String) (fingerprint : Fingerprint) :
    Outcome → Prop
  | approved => True
  | rejected => Rejected ops request host fingerprint
  | elapsed => .expire request ∈ ops
  | dropped => False

def Handler.Caused (ops : List InboundOp) (request : Nat) : Handler → Prop
  | waiting host fingerprint sent => sent = some false → Rejected ops request host fingerprint
  | woken host fingerprint outcome | cleared host fingerprint outcome =>
    outcome.Caused ops request host fingerprint
  | declined host fingerprint outcome => outcome ≠ .approved ∧ outcome.Caused ops request host fingerprint
  | idle | admitted => True

theorem Rejected.mono (rejected : Rejected ops request host fingerprint) (later : List InboundOp) :
    Rejected (ops ++ later) request host fingerprint := by
  obtain ⟨selector, decided, named⟩ := rejected
  exact ⟨selector, List.mem_append_left _ decided, named⟩

theorem Outcome.Caused.mono {outcome : Outcome} (caused : outcome.Caused ops request host fingerprint)
    (later : List InboundOp) : outcome.Caused (ops ++ later) request host fingerprint := by
  cases outcome with
  | approved => trivial
  | rejected => exact Rejected.mono caused later
  | elapsed => exact List.mem_append_left _ caused
  | dropped => exact caused

theorem Handler.Caused.mono {handler : Handler} (caused : handler.Caused ops request)
    (later : List InboundOp) : handler.Caused (ops ++ later) request := by
  cases handler with
  | waiting host fingerprint sent => exact fun refused => (caused refused).mono later
  | woken | cleared => exact Outcome.Caused.mono caused later
  | declined => exact ⟨caused.1, caused.2.mono later⟩
  | idle | admitted => trivial

namespace Inbound
variable {s t : Inbound}

theorem withHandler_handlers (s : Inbound) (request : Nat) (handler : Handler) (other : Nat) :
    (s.withHandler request handler).handlers other = if other = request then handler else s.handlers other :=
  Function.update_apply ..

/-- A handler that clears the list finds no other request of its certificate
still undecided. -/
def Alone (s : Inbound) : InboundOp → Prop
  | .clear request => ∀ host fingerprint outcome, s.handlers request = .woken host fingerprint outcome →
      ∀ other host', s.handlers other ≠ .waiting host' fingerprint none
  | _ => True

/-- List and handlers agree: an undecided request is listed, a listed one is
undecided or has just expired, and every outcome has its cause. -/
structure Tracked (s : Inbound) (ops : List InboundOp) : Prop where
  kept : ∀ {request host fingerprint}, s.handlers request = .waiting host fingerprint none →
    ⟨host, fingerprint, request⟩ ∈ s.shared.state.pending
  listed : ∀ {p}, p ∈ s.shared.state.pending →
    s.handlers p.decision = .waiting p.host p.fingerprint none ∨
      s.handlers p.decision = .woken p.host p.fingerprint .elapsed
  nodup : s.shared.state.pending.Nodup
  caused : ∀ {request handler}, s.handlers request = handler → handler.Caused ops request

theorem Tracked.moved (tracked : s.Tracked ops) {request : Nat} {handler : Handler}
    (shared : t.shared.state.pending = s.shared.state.pending)
    (handlers : t.handlers = Function.update s.handlers request handler)
    (finished : ∀ host fingerprint, handler ≠ .waiting host fingerprint none)
    (unlisted : ∀ {p}, p ∈ s.shared.state.pending → p.decision = request →
      handler = .woken p.host p.fingerprint .elapsed)
    (caused : handler.Caused (ops ++ [op]) request) : t.Tracked (ops ++ [op]) where
  kept waiting := by
    rw [handlers, Function.update_apply] at waiting
    rw [shared]
    split at waiting
    · exact absurd waiting (finished _ _)
    · exact tracked.kept waiting
  listed := by
    intro p member
    rw [shared] at member
    rw [handlers, Function.update_apply]
    split
    · exact .inr (unlisted member ‹_›)
    · exact tracked.listed member
  nodup := shared ▸ tracked.nodup
  caused stands := by
    rw [handlers, Function.update_apply] at stands
    split at stands
    · cases stands
      exact ‹_ = request› ▸ caused
    · exact (tracked.caused stands).mono _

theorem Tracked.unlisted (tracked : s.Tracked ops) (stands : s.handlers request = handler)
    (decided : ∀ host fingerprint, handler ≠ .waiting host fingerprint none)
    (later : ∀ host fingerprint, handler ≠ .woken host fingerprint .elapsed)
    (member : p ∈ s.shared.state.pending) : p.decision ≠ request := by
  rintro rfl
  rcases tracked.listed member with waiting | expired
  · exact decided _ _ (stands.symm.trans waiting)
  · exact later _ _ (stands.symm.trans expired)

theorem Tracked.same (tracked : s.Tracked ops) (p q : PendingRequest)
    (listedP : p ∈ s.shared.state.pending) (listedQ : q ∈ s.shared.state.pending)
    (handler : p.decision = q.decision) : p = q := by
  have standsP := tracked.listed listedP
  have standsQ := tracked.listed listedQ
  rw [handler] at standsP
  have about : p.host = q.host ∧ p.fingerprint = q.fingerprint := by
    rcases standsP with own | own <;> rcases standsQ with other | other <;>
      simpa using own.symm.trans other
  cases p
  cases q
  simp_all

/-- A decision takes one request off the list: the first the selector names,
whose handler it tells. -/
theorem decidePending_told {shared : Shared}
    (decided : shared.decidePending selector = (after, some request, response)) :
    ∃ front p back, shared.state.pending = front ++ p :: back ∧ after.state.pending = front ++ back ∧
      p.selected selector = true ∧ p.decision = request := by
  rw [Shared.decidePending] at decided
  cases found : shared.state.pending.find? (·.selected selector) with
  | none => simp [found] at decided
  | some entry =>
    simp only [found, Prod.mk.injEq, Option.some.injEq] at decided
    obtain ⟨rfl, same, _⟩ := decided
    obtain ⟨first, front, back, misses, hit, split, erased⟩ := List.exists_of_eraseP
      (List.mem_of_find?_eq_some found) (List.find?_some found)
    have own : first = entry := by
      rw [split, List.find?_append, List.find?_eq_none.mpr (by simpa using misses)] at found
      simpa [hit] using found
    exact ⟨front, first, back, split, erased, hit, own ▸ same⟩

theorem decidePending_untold {shared : Shared}
    (decided : shared.decidePending selector = (after, none, response)) : after = shared := by
  rw [Shared.decidePending] at decided
  split at decided
  · simp at decided
  · exact (Prod.mk.inj decided).1.symm

theorem Tracked.decided (tracked : s.Tracked ops)
    (decided : s.shared.decidePending selector = (after, some request, response)) :
    ({ s with shared := after }.withHandler request ((s.handlers request).receive approve)).Tracked
      (ops ++ [InboundOp.decide selector approve (some request)]) := by
  obtain ⟨front, p, back, split, left, named, rfl⟩ := decidePending_told decided
  have unique := tracked.nodup
  rw [split, List.nodup_middle, List.nodup_cons] at unique
  have member : p ∈ s.shared.state.pending := by simp [split]
  have others : ∀ {q}, q ∈ front ++ back → q ∈ s.shared.state.pending := by
    intro q listed
    rw [split]
    simp only [List.mem_append, List.mem_cons] at listed ⊢
    exact listed.imp_right .inr
  have apart : ∀ {q}, q ∈ front ++ back → q.decision ≠ p.decision := fun listed same =>
    unique.1 (tracked.same _ p (others listed) member same ▸ listed)
  refine ⟨?_, ?_, left ▸ unique.2, ?_⟩
  · intro request host fingerprint waiting
    rw [withHandler_handlers] at waiting
    split at waiting
    · rcases tracked.listed member with own | own <;> simp [own, Handler.receive] at waiting
    · have listed := tracked.kept waiting
      change _ ∈ after.state.pending
      rw [split, List.mem_append, List.mem_cons] at listed
      rw [left, List.mem_append]
      rcases listed with early | rfl | late
      · exact .inl early
      · exact absurd rfl ‹¬ _ = _›
      · exact .inr late
  · intro q listed
    have remains : q ∈ front ++ back := left ▸ listed
    rw [withHandler_handlers, if_neg (apart remains)]
    exact tracked.listed (others remains)
  · intro request handler stands
    rw [withHandler_handlers] at stands
    split at stands
    · obtain rfl := stands
      rename_i same
      subst request
      rcases tracked.listed member with own | own
      · rw [own]
        intro refused
        cases refused
        exact ⟨selector, List.mem_append_right _ (List.mem_singleton_self _), named⟩
      · rw [own]
        exact Handler.Caused.mono (tracked.caused own) _
    · exact (tracked.caused stands).mono _

theorem Tracked.arrive (tracked : s.Tracked ops) (fresh : s.handlers request = .idle) (host : String)
    (fingerprint : Fingerprint) :
    ({ s with shared := s.shared.askUser host fingerprint request }.withHandler request
      (.waiting host fingerprint none)).Tracked (ops ++ [InboundOp.arrive request host fingerprint]) := by
  have unlisted : ∀ {p}, p ∈ s.shared.state.pending → p.decision ≠ request := fun member =>
    tracked.unlisted fresh (fun _ _ same => nomatch same) (fun _ _ same => nomatch same) member
  refine ⟨?_, ?_, ?_, ?_⟩
  · intro other host' fingerprint' waiting
    rw [withHandler_handlers] at waiting
    split at waiting
    · cases waiting
      exact List.mem_append_right _ (List.mem_singleton.mpr (by simp [*]))
    · exact List.mem_append_left _ (tracked.kept waiting)
  · intro p member
    rw [withHandler_handlers]
    rcases List.mem_append.mp member with earlier | own
    · rw [if_neg (unlisted earlier)]
      exact tracked.listed earlier
    · cases List.mem_singleton.mp own
      exact .inl (if_pos rfl)
  · refine List.nodup_append.mpr ⟨tracked.nodup, List.nodup_singleton _, ?_⟩
    intro p member q own same
    cases List.mem_singleton.mp own
    exact unlisted member (same ▸ rfl)
  · intro other handler stands
    rw [withHandler_handlers] at stands
    split at stands
    · cases stands
      exact fun refused => nomatch refused
    · exact (tracked.caused stands).mono _

theorem Tracked.clear (tracked : s.Tracked ops) (alone : s.Alone (.clear request))
    (woken : s.handlers request = .woken host fingerprint outcome) :
    ({ s with shared := s.shared.retainPending fingerprint }.withHandler request
      (.cleared host fingerprint outcome)).Tracked (ops ++ [InboundOp.clear request]) := by
  refine ⟨?_, ?_, tracked.nodup.filter _, ?_⟩
  · intro other host' fingerprint' waiting
    rw [withHandler_handlers] at waiting
    split at waiting
    · simp at waiting
    · refine List.mem_filter.mpr ⟨tracked.kept waiting, ?_⟩
      simp only [ne_eq, decide_not, Bool.not_eq_true', decide_eq_false_iff_not]
      rintro rfl
      exact alone _ _ _ woken other host' waiting
  · intro p member
    obtain ⟨listed, others⟩ := List.mem_filter.mp member
    rw [withHandler_handlers]
    split
    · rename_i own
      have stands := tracked.listed listed
      rw [own, woken] at stands
      simp only [ne_eq, decide_not, Bool.not_eq_true', decide_eq_false_iff_not] at others
      simp only [reduceCtorEq, Handler.woken.injEq, false_or] at stands
      exact absurd stands.2.1.symm others
    · exact tracked.listed listed
  · intro other handler stands
    rw [withHandler_handlers] at stands
    split at stands
    · cases stands
      rename_i same
      subst other
      exact Outcome.Caused.mono (tracked.caused woken) _
    · exact (tracked.caused stands).mono _

theorem Tracked.step (tracked : s.Tracked ops) (step : guarded InboundStep Alone s op t) :
    t.Tracked (ops ++ [op]) := by
  obtain ⟨alone, step⟩ := step
  cases step with
  | arrive fresh _ => exact tracked.arrive fresh _ _
  | decided told => exact tracked.decided told
  | unmatched untold =>
    obtain rfl := decidePending_untold untold
    exact ⟨tracked.kept, tracked.listed, tracked.nodup, fun stands => (tracked.caused stands).mono _⟩
  | @told _ _ _ _ approve sent =>
    have unlisted := fun {p} => tracked.unlisted (p := p) sent (by simp) (by simp)
    refine tracked.moved rfl rfl (by simp) (fun member own => absurd own (unlisted member)) ?_
    cases approve with
    | true => trivial
    | false => exact Rejected.mono (tracked.caused sent rfl) _
  | dropped waiting unlisted => exact absurd ⟨_, tracked.kept waiting, rfl⟩ unlisted
  | expire waiting listed =>
    refine tracked.moved rfl rfl (by simp) ?_ (List.mem_append_right _ (List.mem_singleton_self _))
    intro p member own
    have stands := tracked.listed member
    rw [own, waiting] at stands
    simp only [Handler.waiting.injEq, and_true, reduceCtorEq, or_false] at stands
    rw [stands.1, stands.2]
  | clear woken => exact tracked.clear alone woken
  | decline cleared refused =>
    have unlisted := fun {p} => tracked.unlisted (p := p) cleared (by simp) (by simp)
    refine tracked.moved rfl rfl (by simp) (fun member own => absurd own (unlisted member)) ?_
    exact ⟨refused, Outcome.Caused.mono (tracked.caused cleared) _⟩
  | approved cleared =>
    have unlisted := fun {p} => tracked.unlisted (p := p) cleared (by simp) (by simp)
    exact tracked.moved rfl rfl (by simp) (fun member own => absurd own (unlisted member)) trivial

theorem tracked_of_run (idle : ∀ request, s.handlers request = .idle) (empty : s.shared.state.pending = [])
    (run : Reaches (guarded InboundStep Alone) s ops t) : t.Tracked ops := by
  induction run with
  | refl =>
    refine ⟨?_, ?_, ?_, ?_⟩
    · intro request host fingerprint waiting
      simp [idle request] at waiting
    · simp [empty]
    · simp [empty]
    · intro request handler stands
      rw [idle request] at stands
      subst stands
      trivial
  | next _ last ih => exact ih.step last

end Inbound

open Inbound

/-- As long as no handler clears the list while another request of its
certificate is undecided, a request is declined only because the user rejected
it or its own time was up, and every undecided one stays on the list. A handler
that clears the list at another time takes an undecided request off it. -/
theorem declined_for_cause (idle : ∀ request, s.handlers request = .idle)
    (empty : s.shared.state.pending = []) (run : Reaches (guarded InboundStep Alone) s ops t) :
    (∀ request host fingerprint outcome, t.handlers request = .declined host fingerprint outcome →
      Rejected ops request host fingerprint ∨ .expire request ∈ ops) ∧
    (∀ request host fingerprint, t.handlers request = .waiting host fingerprint none →
      ⟨host, fingerprint, request⟩ ∈ t.shared.state.pending) ∧
    ∀ op u, ¬ t.Alone op → InboundStep t op u →
      ∃ request host fingerprint, u.handlers request = .waiting host fingerprint none ∧
        ⟨host, fingerprint, request⟩ ∉ u.shared.state.pending := by
  have tracked := tracked_of_run idle empty run
  refine ⟨?_, fun _ _ _ => tracked.kept, ?_⟩
  · intro request host fingerprint outcome declined
    obtain ⟨refused, cause⟩ := tracked.caused declined
    cases outcome with
    | approved => exact absurd rfl refused
    | rejected => exact .inl cause
    | elapsed => exact .inr cause
    | dropped => exact absurd cause id
  · intro op u crowded step
    cases step with
    | clear woken =>
      simp only [Alone, not_forall, not_not] at crowded
      obtain ⟨_, _, _, same, other, host', waiting⟩ := crowded
      rw [woken] at same
      cases same
      rename_i request _ _ _
      have distinct : other ≠ request := by
        rintro rfl
        exact nomatch waiting.symm.trans woken
      refine ⟨other, host', _, (withHandler_handlers ..).trans ((if_neg distinct).trans waiting), ?_⟩
      exact fun listed => by simpa using (List.mem_filter.mp listed).2
    | _ => exact absurd trivial crowded

def quiet : Inbound := ⟨.start ⟨1⟩ ⟨100, 100⟩ ⟨.missing, []⟩ none ∅ ∅, fun _ => .idle⟩

theorem declined_for_cause_expired : ∃ t ops, Reaches (guarded InboundStep Alone) quiet ops t ∧
    t.handlers 0 = .declined "desk" (.filled 2) .elapsed ∧ .expire 0 ∈ ops := by
  let asked := { quiet with shared := quiet.shared.askUser "desk" (.filled 2) 0 }.withHandler 0
    (.waiting "desk" (.filled 2) none)
  let late := asked.withHandler 0 (.woken "desk" (.filled 2) .elapsed)
  have arrived : guarded InboundStep Alone quiet (.arrive 0 "desk" (.filled 2)) asked :=
    ⟨trivial, .arrive rfl rfl⟩
  have expired : guarded InboundStep Alone asked (.expire 0) late :=
    ⟨trivial, .expire rfl ⟨_, List.mem_singleton_self _, rfl⟩⟩
  have alone : late.Alone (.clear 0) := by
    intro _ _ _ _ other host waiting
    by_cases own : other = 0 <;> simp [late, asked, withHandler_handlers, quiet, own] at waiting
  let cleared := { late with shared := late.shared.retainPending (.filled 2) }.withHandler 0
    (.cleared "desk" (.filled 2) .elapsed)
  have clears : guarded InboundStep Alone late (.clear 0) cleared := ⟨alone, .clear rfl⟩
  have declines : guarded InboundStep Alone cleared (.conclude 0)
      (cleared.withHandler 0 (.declined "desk" (.filled 2) .elapsed)) :=
    ⟨trivial, .decline (show cleared.handlers 0 = .cleared "desk" (.filled 2) .elapsed from rfl) (by decide)⟩
  have run := (((Reaches.single arrived).next expired).next clears).next declines
  obtain ⟨_, rejected, _⟩ | timeout := (declined_for_cause (fun _ => rfl) rfl run).1 0 _ _ .elapsed rfl
  · simp at rejected
  · exact ⟨_, _, run, rfl, timeout⟩

/-- A peer dials twice; when its first request expires, the second is declined
before the user has answered it and before its own time is up. -/
theorem declined_without_cause :
    ¬ ∀ (s : Inbound) (ops : List InboundOp) (t : Inbound), (∀ request, s.handlers request = .idle) →
      s.shared.state.pending = [] → Reaches InboundStep s ops t →
      ∀ request host fingerprint outcome, t.handlers request = .declined host fingerprint outcome →
        Rejected ops request host fingerprint ∨ .expire request ∈ ops := by
  intro claimed
  let first := { quiet with shared := quiet.shared.askUser "desk" (.filled 2) 0 }.withHandler 0
    (.waiting "desk" (.filled 2) none)
  let second := { first with shared := first.shared.askUser "desk" (.filled 2) 1 }.withHandler 1
    (.waiting "desk" (.filled 2) none)
  let late := second.withHandler 0 (.woken "desk" (.filled 2) .elapsed)
  let cleared := { late with shared := late.shared.retainPending (.filled 2) }.withHandler 0
    (.cleared "desk" (.filled 2) .elapsed)
  let lost := cleared.withHandler 1 (.woken "desk" (.filled 2) .dropped)
  have arrived : InboundStep quiet (.arrive 0 "desk" (.filled 2)) first := .arrive rfl rfl
  have again : InboundStep first (.arrive 1 "desk" (.filled 2)) second := .arrive rfl rfl
  have expired : InboundStep second (.expire 0) late := .expire rfl ⟨_, List.mem_cons_self, rfl⟩
  have clears : InboundStep late (.clear 0) cleared := .clear rfl
  have dropped : InboundStep cleared (.wake 1) lost := by
    refine .dropped rfl ?_
    rintro ⟨p, listed, _⟩
    have empty : cleared.shared.state.pending = [] := by decide +kernel
    simp [empty] at listed
  let refused := { lost with shared := lost.shared.retainPending (.filled 2) }.withHandler 1
    (.cleared "desk" (.filled 2) .dropped)
  have clearsAgain : InboundStep lost (.clear 1) refused := .clear rfl
  have declines : InboundStep refused (.conclude 1)
      (refused.withHandler 1 (.declined "desk" (.filled 2) .dropped)) :=
    .decline (show refused.handlers 1 = .cleared "desk" (.filled 2) .dropped from rfl) (by decide)
  have run := ((((((Reaches.single arrived).next again).next expired).next clears).next dropped).next
    clearsAgain).next declines
  obtain ⟨_, rejected, _⟩ | timeout := claimed quiet _ _ (fun _ => rfl) rfl run 1 _ _ .dropped rfl
  · simp at rejected
  · simp at timeout

end Omnipresent
