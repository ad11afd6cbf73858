import Omnipresent.LastWrite
import Omnipresent.Security.Store

/-! The trust authority over any store. An acceptance and a removal are two writes each, and
the store may refuse either of them; the decision reads both halves of what is stored. -/
namespace Omnipresent

structure TrustAuthority (σ : Type) where
  store : σ

namespace TrustAuthority
variable {σ ε : Type} [TrustStore σ ε]

def authorize (self : TrustAuthority σ) (identity : PeerIdentity) : Except ε TrustDecision := do
  let allowlist ← TrustStore.allowlist self.store
  let pinned ← TrustStore.pinned self.store identity.peer
  return evaluate allowlist pinned identity

/-- One write of the store, and if it was performed another. -/
def writes (first : σ × Except ε Unit) (second : σ → σ × Except ε Unit) : TrustAuthority σ × Except ε Unit :=
  match first with
  | (store, .error e) => (⟨store⟩, .error e)
  | (store, .ok ()) => (⟨(second store).1⟩, (second store).2)

/-- Records a person's approval of a peer: allowed first, then pinned. -/
def accept (self : TrustAuthority σ) (identity : PeerIdentity) : TrustAuthority σ × Except ε Unit :=
  writes (TrustStore.allow self.store identity.peer) fun store =>
    TrustStore.pin store identity.peer identity.fingerprint

/-- Forgets a peer: off the allowlist first, then unpinned. -/
def forget (self : TrustAuthority σ) (peer : PeerId) : TrustAuthority σ × Except ε Unit :=
  writes (TrustStore.removeAllowed self.store peer) fun store => TrustStore.unpin store peer

/-- Where the store is left: unwritten, written once or written twice, as the answers tell. -/
theorem writes_cases {first : σ × Except ε Unit} {second : σ → σ × Except ε Unit} {view once : TrustView}
    {twice : TrustView} (written : TrustView.Written first view once)
    (written' : ∀ store, once.Of store → TrustView.Written (second store) once twice) :
    (first.2.isOk = false ∧ (writes first second).2.isOk = false ∧ view.Of (writes first second).1.store) ∨
    (first.2.isOk = true ∧ (writes first second).2.isOk = false ∧ once.Of (writes first second).1.store) ∨
    (first.2.isOk = true ∧ (writes first second).2.isOk = true ∧ twice.Of (writes first second).1.store) := by
  obtain ⟨store, answer⟩ := first
  obtain ⟨done, read⟩ | ⟨⟨e, refused⟩, read⟩ := written
  · cases done
    obtain ⟨done', read'⟩ | ⟨⟨e, refused⟩, read'⟩ := written' store read
    · exact .inr (.inr ⟨rfl, congrArg Except.isOk done', read'⟩)
    · exact .inr (.inl ⟨rfl, congrArg Except.isOk refused, read'⟩)
  · cases refused
    exact .inl ⟨rfl, rfl, read⟩

omit [TrustStore σ ε] in
theorem writes_first {first : σ × Except ε Unit} {second : σ → σ × Except ε Unit}
    (done : (writes first second).2 = .ok ()) : first.2.isOk = true := by
  obtain ⟨store, answer⟩ := first
  cases answer with
  | ok => rfl
  | error e => cases done

end TrustAuthority


inductive AuthorityOp where
  | accept (identity : PeerIdentity)
  | forget (peer : PeerId)
deriving DecidableEq

namespace AuthorityOp

def peer : AuthorityOp → PeerId
  | .accept identity => identity.peer
  | .forget peer => peer

def allows : AuthorityOp → Bool
  | .accept _ => true
  | .forget _ => false

def pin : AuthorityOp → Option Fingerprint
  | .accept identity => some identity.fingerprint
  | .forget _ => none

def list (op : AuthorityOp) (list : AllowList) : AllowList :=
  match op with
  | .accept identity => list.allow identity.peer
  | .forget peer => list.remove peer

theorem list_contains (op : AuthorityOp) (list : AllowList) (peer : PeerId) :
    (op.list list).contains peer = if op.peer = peer then op.allows else list.contains peer := by
  cases op with
  | accept identity =>
    by_cases own : identity.peer = peer
    · simp [AuthorityOp.list, AuthorityOp.peer, allows, AllowList.contains, AllowList.allow, own]
    · simp [AuthorityOp.list, AuthorityOp.peer, AllowList.contains, AllowList.allow, own, Ne.symm own]
  | forget other =>
    by_cases own : other = peer
    · simp [AuthorityOp.list, AuthorityOp.peer, allows, AllowList.contains, AllowList.remove, own]
    · simp [AuthorityOp.list, AuthorityOp.peer, AllowList.contains, AllowList.remove, own, Ne.symm own]

end AuthorityOp

section History
variable {σ ε : Type} [TrustStore σ ε]

def TrustAuthority.step (self : TrustAuthority σ) : AuthorityOp → TrustAuthority σ × Except ε Unit
  | .accept identity => self.accept identity
  | .forget peer => self.forget peer

def TrustAuthority.run (self : TrustAuthority σ) (ops : List AuthorityOp) : TrustAuthority σ :=
  ops.foldl (fun authority op => (authority.step op).1) self

/-- One call in a run, with the authority as it found it. -/
structure AuthorityCall (σ : Type) where
  before : TrustAuthority σ
  op : AuthorityOp

def TrustAuthority.history (self : TrustAuthority σ) : List AuthorityOp → List (AuthorityCall σ)
  | [] => []
  | op :: rest => ⟨self, op⟩ :: (self.step op).1.history rest

namespace AuthorityCall

def firstWrite (call : AuthorityCall σ) : Except ε Unit :=
  match call.op with
  | .accept identity => (TrustStore.allow call.before.store identity.peer).2
  | .forget peer => (TrustStore.removeAllowed call.before.store peer).2

/-- What the call wrote about the peer on the allowlist, if that write was performed. -/
def allowed (peer : PeerId) (call : AuthorityCall σ) : Option Bool :=
  if call.op.peer = peer ∧ call.firstWrite.isOk then some call.op.allows else none

/-- What the call wrote for the peer's pin: it is the second write, and the call succeeds
exactly where it comes to it and it is performed. -/
def pinned (peer : PeerId) (call : AuthorityCall σ) : Option (Option Fingerprint) :=
  if call.op.peer = peer ∧ (call.before.step call.op).2.isOk then some call.op.pin else none

end AuthorityCall

theorem TrustView.Of.authorize {view : TrustView} {authority : TrustAuthority σ} (read : view.Of authority.store)
    (identity : PeerIdentity) :
    authority.authorize identity = .ok (evaluate view.list (view.pins identity.peer) identity) := by
  rw [TrustAuthority.authorize, read.1, read.2]
  rfl

/-- Only an acceptance of the fingerprint that succeeds pins it. -/
theorem AuthorityCall.pinned_iff {call : AuthorityCall σ} : call.pinned peer = some (some fingerprint) ↔
    call.op = .accept ⟨peer, fingerprint⟩ ∧ (call.before.step call.op).2.isOk = true := by
  obtain ⟨before, op⟩ := call
  cases op with
  | accept identity =>
    obtain ⟨peer', fingerprint'⟩ := identity
    rw [pinned, Option.ite_none_right_eq_some]
    simp only [AuthorityOp.peer, AuthorityOp.pin, AuthorityOp.accept.injEq, PeerIdentity.mk.injEq,
      Option.some.injEq]
    tauto
  | forget other => simp [pinned, AuthorityOp.pin]

theorem TrustAuthority.history_ops (authority : TrustAuthority σ) (ops : List AuthorityOp) :
    (authority.history ops).map (·.op) = ops := by
  induction ops generalizing authority with
  | nil => rfl
  | cons op rest ih => rw [history, List.map_cons, ih]

theorem AuthorityCall.firstWrite_isOk {call : AuthorityCall σ} (succeeds : (call.before.step call.op).2 = .ok ()) :
    call.firstWrite.isOk = true := by
  obtain ⟨before, op⟩ := call
  cases op with
  | accept identity => exact TrustAuthority.writes_first succeeds
  | forget peer => exact TrustAuthority.writes_first succeeds

variable [LawfulTrustStore σ] {view : TrustView} {authority : TrustAuthority σ}

/-- How far a call came, as its answers tell, and what the store reads as then. -/
theorem TrustAuthority.step_cases (read : view.Of authority.store) (op : AuthorityOp) :
    ((AuthorityCall.firstWrite ⟨authority, op⟩).isOk = false ∧ (authority.step op).2.isOk = false ∧
      view.Of (authority.step op).1.store) ∨
    ((AuthorityCall.firstWrite ⟨authority, op⟩).isOk = true ∧ (authority.step op).2.isOk = false ∧
      TrustView.Of (authority.step op).1.store { view with list := op.list view.list }) ∨
    ((AuthorityCall.firstWrite ⟨authority, op⟩).isOk = true ∧ (authority.step op).2.isOk = true ∧
      TrustView.Of (authority.step op).1.store ⟨op.list view.list, Function.update view.pins op.peer op.pin⟩) := by
  cases op with
  | accept identity =>
    exact writes_cases (LawfulTrustStore.allow read identity.peer)
      fun _ read => LawfulTrustStore.pin read identity.peer identity.fingerprint
  | forget peer =>
    exact writes_cases (LawfulTrustStore.removeAllowed read peer) fun _ read => LawfulTrustStore.unpin read peer

theorem TrustAuthority.step_view (read : view.Of authority.store) (op : AuthorityOp) :
    ∃ after : TrustView, after.Of (authority.step op).1.store ∧ ∀ peer,
      after.list.contains peer =
        (AuthorityCall.allowed peer ⟨authority, op⟩).getD (view.list.contains peer) ∧
      after.pins peer = (AuthorityCall.pinned peer ⟨authority, op⟩).getD (view.pins peer) := by
  simp only [AuthorityCall.allowed, AuthorityCall.pinned]
  obtain ⟨first, both, read⟩ | ⟨first, both, read⟩ | ⟨first, both, read⟩ := step_cases read op
  · exact ⟨_, read, fun peer => by simp [first, both]⟩
  · refine ⟨_, read, fun peer => ⟨?_, by simp [both]⟩⟩
    rw [AuthorityOp.list_contains]
    by_cases own : op.peer = peer <;> simp [first, own]
  · refine ⟨_, read, fun peer => ⟨?_, ?_⟩⟩
    · rw [AuthorityOp.list_contains]
      by_cases own : op.peer = peer <;> simp [first, own]
    · by_cases own : op.peer = peer
      · simp [both, own]
      · simp [own, Ne.symm own]

/-- After a run each half holds the last write of it that was performed. -/
theorem TrustAuthority.run_view (read : view.Of authority.store) (ops : List AuthorityOp) :
    ∃ after : TrustView, after.Of (authority.run ops).store ∧ ∀ peer,
      after.list.contains peer =
        lastEffect (AuthorityCall.allowed peer) (view.list.contains peer) (authority.history ops) ∧
      after.pins peer = lastEffect (AuthorityCall.pinned peer) (view.pins peer) (authority.history ops) := by
  induction ops generalizing authority view with
  | nil => exact ⟨view, read, fun _ => ⟨rfl, rfl⟩⟩
  | cons op rest ih =>
    obtain ⟨middle, read, wrote⟩ := step_view read op
    obtain ⟨after, read, later⟩ := ih read
    refine ⟨after, read, fun peer => ?_⟩
    rw [history, lastEffect_cons, lastEffect_cons, ← (wrote peer).1, ← (wrote peer).2]
    exact later peer

/-- In a run without failures the last call about a peer decides. -/
theorem TrustAuthority.run_clean (empty : TrustView.empty.Of authority.store)
    (clean : ∀ call ∈ authority.history ops, (call.before.step call.op).2 = .ok ()) :
    ∃ after : TrustView, after.Of (authority.run ops).store ∧ ∀ peer,
      after.list.contains peer = ((ops.filter (·.peer = peer)).getLast?.map AuthorityOp.allows).getD false ∧
      after.pins peer = ((ops.filter (·.peer = peer)).getLast?.map AuthorityOp.pin).getD none := by
  obtain ⟨after, read, wrote⟩ := run_view empty ops
  refine ⟨after, read, fun peer => ?_⟩
  have last : ∀ {α : Type} (f : AuthorityOp → α),
      ((authority.history ops).filter (·.op.peer = peer)).getLast?.map (fun call => f call.op) =
        (ops.filter (·.peer = peer)).getLast?.map f := by
    intro α f
    conv_rhs => rw [← history_ops authority ops, List.filter_map, List.getLast?_map, Option.map_map]
    rfl
  have listed := (wrote peer).1
  have pinned := (wrote peer).2
  rw [lastEffect_eq_getLast (fun call => call.op.peer = peer) fun call => call.op.allows] at listed
  · rw [lastEffect_eq_getLast (fun call => call.op.peer = peer) fun call => call.op.pin] at pinned
    · exact ⟨listed.trans (congrArg (Option.getD · false) (last AuthorityOp.allows)),
        pinned.trans (congrArg (Option.getD · none) (last AuthorityOp.pin))⟩
    · intro call member
      simp [AuthorityCall.pinned, clean call member, Except.isOk, Except.toBool]
  · intro call member
    simp [AuthorityCall.allowed, AuthorityCall.firstWrite_isOk (clean call member)]

/-- A peer is trusted exactly where the last write of its pin pinned this fingerprint and the
last of its entry on the allowlist put it there, counting the writes that were performed; and
where all were, its last call decides. -/
theorem authorize_ledger (empty : TrustView.empty.Of authority.store) (ops : List AuthorityOp) (peer : PeerId)
    (fingerprint : Fingerprint) :
    ((authority.run ops).authorize ⟨peer, fingerprint⟩ = .ok .trusted ↔
      (∃ before call after, authority.history ops = before ++ call :: after ∧
        call.pinned peer = some (some fingerprint) ∧ ∀ later ∈ after, later.pinned peer = none) ∧
      ∃ before call after, authority.history ops = before ++ call :: after ∧
        call.allowed peer = some true ∧ ∀ later ∈ after, later.allowed peer = none) ∧
    ((∀ call ∈ authority.history ops, (call.before.step call.op).2 = .ok ()) →
      (authority.run ops).authorize ⟨peer, fingerprint⟩ = .ok (match (ops.filter (·.peer = peer)).getLast? with
        | some (.accept identity) =>
          if identity.fingerprint = fingerprint then .trusted else .fingerprintMismatch
        | _ => .notAllowed)) := by
  constructor
  · obtain ⟨after, read, wrote⟩ := TrustAuthority.run_view empty ops
    have trusted : evaluate after.list (after.pins peer) ⟨peer, fingerprint⟩ = .trusted ↔
        after.list.contains peer = true ∧ after.pins peer = some fingerprint := by
      have decided := @evaluate_isTrusted after.list (after.pins peer) ⟨peer, fingerprint⟩
      rwa [TrustDecision.isTrusted, decide_eq_true_eq] at decided
    have unlisted : TrustView.empty.list.contains peer ≠ true := by
      simp [TrustView.empty, AllowList.new, AllowList.contains]
    rw [read.authorize, Except.ok.injEq, trusted, (wrote peer).1, (wrote peer).2, lastEffect_eq_iff,
      lastEffect_eq_iff,
      and_comm]
    refine and_congr (or_iff_left ?_) (or_iff_left ?_)
    · rintro ⟨unpinned, _⟩
      cases unpinned
    · exact fun unwritten => unlisted unwritten.1
  · intro clean
    obtain ⟨after, read, last⟩ := TrustAuthority.run_clean empty clean
    rw [read.authorize]
    simp only [evaluate, (last peer).1, (last peer).2]
    cases (ops.filter (·.peer = peer)).getLast? with
    | none => rfl
    | some op => cases op <;> rfl

end History

/-- A second acceptance whose pin the backend refuses leaves the first fingerprint trusted;
in memory, where nothing is refused, the first is a mismatch then. -/
theorem authorize_ledger_refused :
    ((TrustAuthority.mk (ScriptedTrustStore.mk .default [none, none, none, some "disk full"])).run
      [.accept ⟨⟨1⟩, .filled 3⟩, .accept ⟨⟨1⟩, .filled 4⟩]).authorize ⟨⟨1⟩, .filled 3⟩ = .ok .trusted ∧
    ((TrustAuthority.mk InMemoryTrustStore.default).run
      [.accept ⟨⟨1⟩, .filled 3⟩, .accept ⟨⟨1⟩, .filled 4⟩]).authorize ⟨⟨1⟩, .filled 3⟩ =
        .ok .fingerprintMismatch := by
  have empty : TrustView.empty.Of
      (TrustAuthority.mk (ScriptedTrustStore.mk .default [none, none, none, some "disk full"])).store :=
    ⟨rfl, fun _ => rfl⟩
  have empty' : TrustView.empty.Of (TrustAuthority.mk InMemoryTrustStore.default).store := ⟨rfl, fun _ => rfl⟩
  constructor
  · -- The first call pinned, the second only put the peer on the allowlist again.
    refine (authorize_ledger empty _ ⟨1⟩ (.filled 3)).1.mpr
      ⟨⟨[], _, _, rfl, rfl, fun later member => ?_⟩,
        ⟨[_], _, [], rfl, rfl, fun _ member => absurd member List.not_mem_nil⟩⟩
    rw [List.mem_singleton.mp member]
    rfl
  · refine (authorize_ledger empty' _ ⟨1⟩ (.filled 3)).2 fun call member => ?_
    rcases List.mem_pair.mp member with rfl | rfl <;> rfl

end Omnipresent
