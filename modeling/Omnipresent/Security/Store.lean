import Omnipresent.HashMap
import Omnipresent.Security.Evaluate

/-! Where the trust policy's data is kept: who is allowed, and which fingerprint is pinned for
each peer. Every write may be refused. -/
namespace Omnipresent

/-- Persists who is allowed, and which fingerprint is pinned for each peer. -/
class TrustStore (σ : Type) (ε : outParam Type) where
  allowlist : σ → Except ε AllowList
  pinned : σ → PeerId → Except ε (Option Fingerprint)
  allow : σ → PeerId → σ × Except ε Unit
  removeAllowed : σ → PeerId → σ × Except ε Unit
  pin : σ → PeerId → Fingerprint → σ × Except ε Unit
  unpin : σ → PeerId → σ × Except ε Unit

structure InMemoryTrustStore where
  allowlist : AllowList
  pins : HashMap PeerId Fingerprint

namespace InMemoryTrustStore

def default : InMemoryTrustStore := ⟨.new, ∅⟩

def allow (self : InMemoryTrustStore) (peer : PeerId) : InMemoryTrustStore :=
  { self with allowlist := self.allowlist.allow peer }

def removeAllowed (self : InMemoryTrustStore) (peer : PeerId) : InMemoryTrustStore :=
  { self with allowlist := self.allowlist.remove peer }

def pin (self : InMemoryTrustStore) (peer : PeerId) (fingerprint : Fingerprint) : InMemoryTrustStore :=
  { self with pins := self.pins.insert peer fingerprint }

def unpin (self : InMemoryTrustStore) (peer : PeerId) : InMemoryTrustStore :=
  { self with pins := self.pins.erase peer }

/-- Its operations cannot fail, so its error type is empty. -/
instance : TrustStore InMemoryTrustStore Empty where
  allowlist store := .ok store.allowlist
  pinned store peer := .ok (store.pins.lookup peer)
  allow store peer := (store.allow peer, .ok ())
  removeAllowed store peer := (store.removeAllowed peer, .ok ())
  pin store peer fingerprint := (store.pin peer fingerprint, .ok ())
  unpin store peer := (store.unpin peer, .ok ())

end InMemoryTrustStore

/-- The in-memory store behind a backend whose writes fail as the script has it, where it
still has an entry for one. -/
structure ScriptedTrustStore (ε : Type) where
  inner : InMemoryTrustStore
  script : List (Option ε)

namespace ScriptedTrustStore
variable {ε : Type}

def write (self : ScriptedTrustStore ε) (f : InMemoryTrustStore → InMemoryTrustStore) :
    ScriptedTrustStore ε × Except ε Unit :=
  match self.script with
  | [] => (⟨f self.inner, []⟩, .ok ())
  | none :: script => (⟨f self.inner, script⟩, .ok ())
  | some e :: script => (⟨self.inner, script⟩, .error e)

instance : TrustStore (ScriptedTrustStore ε) ε where
  allowlist store := .ok store.inner.allowlist
  pinned store peer := .ok (store.inner.pins.lookup peer)
  allow store peer := store.write (·.allow peer)
  removeAllowed store peer := store.write (·.removeAllowed peer)
  pin store peer fingerprint := store.write (·.pin peer fingerprint)
  unpin store peer := store.write (·.unpin peer)

end ScriptedTrustStore

structure TrustView where
  list : AllowList
  pins : PeerId → Option Fingerprint

def TrustView.empty : TrustView := ⟨.new, fun _ => none⟩

def TrustView.Of {σ ε : Type} [TrustStore σ ε] (store : σ) (view : TrustView) : Prop :=
  TrustStore.allowlist store = .ok view.list ∧ ∀ peer, TrustStore.pinned store peer = .ok (view.pins peer)

/-- A write was performed, or refused with the store reading as before. -/
def TrustView.Written {σ ε : Type} [TrustStore σ ε] (outcome : σ × Except ε Unit)
    (before after : TrustView) : Prop :=
  (outcome.2 = .ok () ∧ after.Of outcome.1) ∨ (∃ e, outcome.2 = .error e) ∧ before.Of outcome.1

/-- Reads answer, and each write does what it is for, or fails and leaves the store unchanged. -/
class LawfulTrustStore (σ : Type) {ε : Type} [TrustStore σ ε] : Prop where
  reads : ∀ store : σ, ∃ view : TrustView, view.Of store
  allow {store : σ} {view : TrustView} : view.Of store → ∀ peer,
    TrustView.Written (TrustStore.allow store peer) view { view with list := view.list.allow peer }
  removeAllowed {store : σ} {view : TrustView} : view.Of store → ∀ peer,
    TrustView.Written (TrustStore.removeAllowed store peer) view { view with list := view.list.remove peer }
  pin {store : σ} {view : TrustView} : view.Of store → ∀ peer fingerprint,
    TrustView.Written (TrustStore.pin store peer fingerprint) view
      { view with pins := Function.update view.pins peer (some fingerprint) }
  unpin {store : σ} {view : TrustView} : view.Of store → ∀ peer,
    TrustView.Written (TrustStore.unpin store peer) view { view with pins := Function.update view.pins peer none }

def InMemoryTrustStore.view (store : InMemoryTrustStore) : TrustView := ⟨store.allowlist, store.pins.lookup⟩

theorem InMemoryTrustStore.view_pin (store : InMemoryTrustStore) (peer : PeerId) (fingerprint : Fingerprint) :
    (store.pin peer fingerprint).view =
      { store.view with pins := Function.update store.view.pins peer (some fingerprint) } := by
  refine congrArg (TrustView.mk store.allowlist) (funext fun other => ?_)
  rw [Function.update_apply]
  exact HashMap.lookup_insert_eq peer fingerprint store.pins other

theorem InMemoryTrustStore.view_unpin (store : InMemoryTrustStore) (peer : PeerId) :
    (store.unpin peer).view = { store.view with pins := Function.update store.view.pins peer none } := by
  refine congrArg (TrustView.mk store.allowlist) (funext fun other => ?_)
  rw [Function.update_apply]
  exact HashMap.lookup_erase_eq peer store.pins other

theorem InMemoryTrustStore.of_iff {store : InMemoryTrustStore} {read : TrustView} :
    TrustView.Of store read ↔ store.view = read := by
  constructor
  · rintro ⟨list, pins⟩
    obtain ⟨list', pins'⟩ := read
    cases list
    exact congrArg (TrustView.mk _) (funext fun peer => Except.ok.inj (pins peer))
  · rintro rfl
    exact ⟨rfl, fun _ => rfl⟩

theorem ScriptedTrustStore.of_iff {store : ScriptedTrustStore ε} {read : TrustView} :
    TrustView.Of store read ↔ store.inner.view = read := by
  rw [← InMemoryTrustStore.of_iff, TrustView.Of, TrustView.Of]
  simp only [TrustStore.allowlist, TrustStore.pinned, Except.ok.injEq]

theorem ScriptedTrustStore.write_written {store : ScriptedTrustStore ε}
    (f : InMemoryTrustStore → InMemoryTrustStore) :
    TrustView.Written (store.write f) store.inner.view (f store.inner).view := by
  rw [write]
  split
  · exact .inl ⟨rfl, of_iff.mpr rfl⟩
  · exact .inl ⟨rfl, of_iff.mpr rfl⟩
  · rename_i e _ _
    exact .inr ⟨⟨e, rfl⟩, of_iff.mpr rfl⟩

instance : LawfulTrustStore InMemoryTrustStore where
  reads store := ⟨store.view, InMemoryTrustStore.of_iff.mpr rfl⟩
  allow read peer := by
    cases InMemoryTrustStore.of_iff.mp read
    exact .inl ⟨rfl, InMemoryTrustStore.of_iff.mpr rfl⟩
  removeAllowed read peer := by
    cases InMemoryTrustStore.of_iff.mp read
    exact .inl ⟨rfl, InMemoryTrustStore.of_iff.mpr rfl⟩
  pin {store} _ read peer fingerprint := by
    cases InMemoryTrustStore.of_iff.mp read
    exact .inl ⟨rfl, InMemoryTrustStore.of_iff.mpr (store.view_pin peer fingerprint)⟩
  unpin {store} _ read peer := by
    cases InMemoryTrustStore.of_iff.mp read
    exact .inl ⟨rfl, InMemoryTrustStore.of_iff.mpr (store.view_unpin peer)⟩

instance : LawfulTrustStore (ScriptedTrustStore ε) where
  reads store := ⟨store.inner.view, ScriptedTrustStore.of_iff.mpr rfl⟩
  allow read peer := by
    cases ScriptedTrustStore.of_iff.mp read
    exact ScriptedTrustStore.write_written (·.allow peer)
  removeAllowed read peer := by
    cases ScriptedTrustStore.of_iff.mp read
    exact ScriptedTrustStore.write_written (·.removeAllowed peer)
  pin {store} _ read peer fingerprint := by
    cases ScriptedTrustStore.of_iff.mp read
    rw [← InMemoryTrustStore.view_pin]
    exact ScriptedTrustStore.write_written (·.pin peer fingerprint)
  unpin {store} _ read peer := by
    cases ScriptedTrustStore.of_iff.mp read
    rw [← InMemoryTrustStore.view_unpin]
    exact ScriptedTrustStore.write_written (·.unpin peer)

end Omnipresent
