import Omnipresent.Transition
import Mathlib.Logic.Function.Basic

/-! One record kept twice, in memory and in a shared file. A task sets an entry in
memory, then reads the whole file, then writes it back with that entry replaced. Any
number of tasks are under way at once. -/
namespace Omnipresent.ReadModifyWrite
open Transition
variable {κ ν : Type}

/-- One entry set in memory, and as the how many-th. -/
structure Change (κ ν : Type) where
  version : Nat
  key : κ
  value : ν

inductive Task (κ ν : Type) where
  | idle
  | applied (change : Change κ ν)
  /-- It has read this. -/
  | loaded (change : Change κ ν) (snapshot : κ → ν)

def Task.unsaved : Task κ ν → Option (Change κ ν)
  | idle => none
  | applied change => some change
  | loaded change _ => some change

structure Store (κ ν : Type) where
  memory : κ → ν
  file : κ → ν
  tasks : Nat → Task κ ν
  /-- Everything set so far, oldest first. -/
  history : List (κ × ν)
  /-- The last time each entry was set; zero is never. -/
  latest : κ → Nat
  /-- The newest of those that was ever saved. -/
  saved : κ → Nat

inductive Op (κ ν : Type) where
  | set (task : Nat) (key : κ) (value : ν)
  | load (task : Nat)
  | save (task : Nat)

namespace Store
variable [DecidableEq κ] {s t : Store κ ν}

def withTask (s : Store κ ν) (task : Nat) (stands : Task κ ν) : Store κ ν :=
  { s with tasks := Function.update s.tasks task stands }

def set (s : Store κ ν) (task : Nat) (key : κ) (value : ν) : Store κ ν :=
  { s.withTask task (.applied ⟨s.history.length + 1, key, value⟩) with
    memory := Function.update s.memory key value
    history := s.history ++ [(key, value)]
    latest := Function.update s.latest key (s.history.length + 1) }

def save (s : Store κ ν) (task : Nat) (change : Change κ ν) (snapshot : κ → ν) : Store κ ν :=
  { s.withTask task .idle with
    file := Function.update snapshot change.key change.value
    saved := Function.update s.saved change.key (max (s.saved change.key) change.version) }

end Store

inductive Step [DecidableEq κ] (s : Store κ ν) : Op κ ν → Store κ ν → Prop where
  | set : s.tasks task = .idle → Step s (.set task key value) (s.set task key value)
  | load : s.tasks task = .applied change → Step s (.load task) (s.withTask task (.loaded change s.file))
  | save : s.tasks task = .loaded change snapshot → Step s (.save task) (s.save task change snapshot)

namespace Store
variable [DecidableEq κ] {s t : Store κ ν}

/-- Nothing set, nothing under way. -/
structure Initial (s : Store κ ν) : Prop where
  idle : ∀ task, s.tasks task = .idle
  unset : s.history = []
  latest : ∀ key, s.latest key = 0
  saved : ∀ key, s.saved key = 0

/-- A save finds the file as its task had read it, its own entry aside, and that entry
not yet saved by a task that set it later to something else. -/
def InOrder (s : Store κ ν) : Op κ ν → Prop
  | .save task => ∀ change snapshot, s.tasks task = .loaded change snapshot →
      (∀ key, key ≠ change.key → s.file key = snapshot key) ∧
        (s.saved change.key ≤ change.version ∨ s.file change.key = change.value)
  | _ => True

/-- With nothing under way, every entry ever set reads the same in the file as in
memory, and as something it was set to. -/
def Kept (s : Store κ ν) : Prop :=
  (∀ task, s.tasks task = .idle) → ∀ {key value}, (key, value) ∈ s.history →
    s.file key = s.memory key ∧ (key, s.file key) ∈ s.history

/-- What keeps track of every entry set: where it was saved last the file has what
memory has, and where it was not a task has that yet to do. -/
structure Tracked (s : Store κ ν) : Prop where
  recent : ∀ key, s.latest key ≤ s.history.length
  ordered : ∀ key, s.saved key ≤ s.latest key
  touched : ∀ {key value}, (key, value) ∈ s.history → 0 < s.latest key
  known : ∀ {key}, 0 < s.latest key → (key, s.memory key) ∈ s.history
  agrees : ∀ {key}, 0 < s.latest key → s.saved key = s.latest key → s.file key = s.memory key
  numbered : ∀ {task change}, (s.tasks task).unsaved = some change →
    0 < change.version ∧ change.version ≤ s.latest change.key ∧
      (change.version = s.latest change.key → change.value = s.memory change.key)
  pending : ∀ {key}, s.saved key < s.latest key → ∃ task value,
    (s.tasks task).unsaved = some ⟨s.latest key, key, value⟩
  changed : ∀ {task change snapshot key}, s.tasks task = .loaded change snapshot →
    s.file key ≠ snapshot key → 0 < s.latest key

omit [DecidableEq κ] in
theorem Initial.tracked (initial : s.Initial) : s.Tracked where
  recent key := by simp [initial.latest]
  ordered key := by simp [initial.saved]
  touched touched := by simp [initial.unset] at touched
  known set := by simp [initial.latest] at set
  agrees set := by simp [initial.latest] at set
  numbered under := by simp [initial.idle, Task.unsaved] at under
  pending := by simp [initial.latest]
  changed under := by simp [initial.idle] at under

omit [DecidableEq κ] in
theorem unsaved_update {tasks : Nat → Task κ ν} {stands : Task κ ν}
    (under : (Function.update tasks task stands other).unsaved = some change) :
    other = task ∧ stands.unsaved = some change ∨ other ≠ task ∧ (tasks other).unsaved = some change := by
  rw [Function.update_apply] at under
  split at under
  · exact .inl ⟨‹_›, under⟩
  · exact .inr ⟨‹_›, under⟩

theorem Tracked.set (tracked : s.Tracked) (idle : s.tasks task = .idle) (key : κ) (value : ν) :
    (s.set task key value).Tracked where
  recent other := by
    simp only [Store.set, List.length_append, List.length_singleton, Function.update_apply]
    split
    · omega
    · exact Nat.le_succ_of_le (tracked.recent other)
  ordered other := by
    simp only [Store.set, withTask, Function.update_apply]
    split
    · subst other
      exact Nat.le_succ_of_le (Nat.le_trans (tracked.ordered key) (tracked.recent key))
    · exact tracked.ordered other
  touched {other _} touched := by
    simp only [Store.set, Function.update_apply]
    split
    · omega
    · rename_i distinct
      rcases List.mem_append.mp touched with earlier | now
      · exact tracked.touched earlier
      · exact absurd (Prod.mk.inj (List.mem_singleton.mp now)).1 distinct
  known {other} set := by
    simp only [Store.set, Function.update_apply] at set ⊢
    split at set
    · subst other
      simp
    · rename_i distinct
      rw [if_neg distinct]
      exact List.mem_append_left _ (tracked.known set)
  agrees {other} set same := by
    simp only [Store.set, withTask, Function.update_apply] at set same ⊢
    split at same
    · subst other
      have ordered := Nat.le_trans (tracked.ordered key) (tracked.recent key)
      omega
    · rename_i distinct
      rw [if_neg distinct] at set ⊢
      exact tracked.agrees set same
  numbered {other change} under := by
    simp only [Store.set, withTask, Function.update_apply]
    rcases unsaved_update under with ⟨_, own⟩ | ⟨_, earlier⟩
    · cases own
      simp
    · obtain ⟨positive, ordered, same⟩ := tracked.numbered earlier
      have recent := tracked.recent change.key
      refine ⟨positive, ?_, ?_⟩ <;> split
      · omega
      · exact ordered
      · omega
      · exact same
  pending {other} behind := by
    simp only [Store.set, withTask, Function.update_apply] at behind ⊢
    split at behind
    · subst other
      exact ⟨task, value, by simp [Task.unsaved]⟩
    · rename_i distinct
      obtain ⟨owner, value', under⟩ := tracked.pending behind
      refine ⟨owner, value', ?_⟩
      rw [if_neg distinct, if_neg, under]
      rintro rfl
      simp [idle, Task.unsaved] at under
  changed {other change snapshot key'} under distinct := by
    simp only [Store.set, withTask, Function.update_apply] at under distinct ⊢
    split at under
    · cases under
    · split
      · omega
      · exact tracked.changed under distinct

omit [DecidableEq κ] in
theorem Tracked.load (tracked : s.Tracked) (applied : s.tasks task = .applied change) :
    (s.withTask task (.loaded change s.file)).Tracked where
  recent := tracked.recent
  ordered := tracked.ordered
  touched := tracked.touched
  known := tracked.known
  agrees := tracked.agrees
  numbered {other _} under := by
    rcases unsaved_update under with ⟨_, own⟩ | ⟨_, earlier⟩
    · cases own
      have under : (s.tasks task).unsaved = some change := by rw [applied]; rfl
      exact tracked.numbered under
    · exact tracked.numbered earlier
  pending {key} behind := by
    obtain ⟨owner, value, under⟩ := tracked.pending behind
    refine ⟨owner, value, ?_⟩
    simp only [withTask, Function.update_apply]
    split
    · subst owner
      rwa [applied] at under
    · exact under
  changed {other _ _ key} under distinct := by
    simp only [withTask, Function.update_apply] at under
    split at under
    · cases under
      exact absurd rfl distinct
    · exact tracked.changed under distinct

theorem Tracked.save (tracked : s.Tracked) (loaded : s.tasks task = .loaded change snapshot)
    (inOrder : s.InOrder (.save task)) : (s.save task change snapshot).Tracked := by
  obtain ⟨apart, late⟩ := inOrder change snapshot loaded
  have under : (s.tasks task).unsaved = some change := by rw [loaded]; rfl
  obtain ⟨positive, ordered, same⟩ := tracked.numbered under
  have kept : ∀ {key}, key ≠ change.key → (s.save task change snapshot).file key = s.file key := by
    intro key distinct
    simp only [Store.save, Function.update_of_ne distinct, apart key distinct]
  refine ⟨tracked.recent, fun key => ?_, tracked.touched, tracked.known, ?_, ?_, ?_, ?_⟩
  · simp only [Store.save, withTask, Function.update_apply]
    split
    · subst key
      exact Nat.max_le.mpr ⟨tracked.ordered _, ordered⟩
    · exact tracked.ordered key
  · intro key set newest
    rcases eq_or_ne key change.key with rfl | distinct
    · simp only [Store.save, withTask, Function.update_self] at newest ⊢
      rcases Nat.lt_or_eq_of_le ordered with older | last
      · have saved : s.saved change.key = s.latest change.key := by omega
        have file := late.resolve_left (by omega)
        exact file.symm.trans (tracked.agrees set saved)
      · exact same last
    · rw [kept distinct]
      simp only [Store.save, withTask, Function.update_of_ne distinct] at newest
      exact tracked.agrees set newest
  · intro other _ under
    rcases unsaved_update under with ⟨_, own⟩ | ⟨_, earlier⟩
    · cases own
    · exact tracked.numbered earlier
  · intro key behind
    have behind' : s.saved key < s.latest key ∧ (key = change.key → change.version < s.latest key) := by
      simp only [Store.save, withTask, Function.update_apply] at behind
      split at behind
      · subst key
        exact ⟨by omega, fun _ => by omega⟩
      · exact ⟨behind, fun same => absurd same ‹_›⟩
    obtain ⟨owner, value, owned⟩ := tracked.pending behind'.1
    refine ⟨owner, value, ?_⟩
    simp only [Store.save, withTask, Function.update_apply]
    rw [if_neg, owned]
    rintro rfl
    -- The change just saved is older than the one still due.
    cases under.symm.trans owned
    exact absurd (behind'.2 rfl) (Nat.lt_irrefl _)
  · intro other change' snapshot' key loaded' distinct
    rcases eq_or_ne key change.key with rfl | apart'
    · exact Nat.lt_of_lt_of_le positive ordered
    · rw [kept apart'] at distinct
      simp only [Store.save, withTask, Function.update_apply] at loaded'
      split at loaded'
      · cases loaded'
      · exact tracked.changed loaded' distinct

theorem Tracked.step (tracked : s.Tracked) (inOrder : s.InOrder op) (step : Step s op t) : t.Tracked := by
  cases step with
  | set idle => exact tracked.set idle _ _
  | load applied => exact tracked.load applied
  | save loaded => exact tracked.save loaded inOrder

omit [DecidableEq κ] in
theorem Tracked.kept (tracked : s.Tracked) : s.Kept := by
  intro idle key value touched
  have set := tracked.touched touched
  have saved : ¬ s.saved key < s.latest key := by
    intro behind
    obtain ⟨task, _, under⟩ := tracked.pending behind
    simp [idle task, Task.unsaved] at under
  have agrees := tracked.agrees set (Nat.le_antisymm (tracked.ordered key) (Nat.not_lt.mp saved))
  exact ⟨agrees, agrees ▸ tracked.known set⟩

theorem Tracked.of_run (initial : s.Initial) (run : Reaches (guarded Step InOrder) s ops t) : t.Tracked :=
  run.invariant (fun tracked ⟨inOrder, step⟩ => tracked.step inOrder step) initial.tracked

/-- A save out of order that is the last one under way has lost something. -/
theorem Tracked.lost (tracked : s.Tracked) (outOfOrder : ¬ s.InOrder (.save task)) (step : Step s (.save task) t)
    (idle : ∀ task, t.tasks task = .idle) : ¬ t.Kept := by
  intro kept
  cases step with | save loaded =>
  rename_i change snapshot
  have under : (s.tasks task).unsaved = some change := by rw [loaded]; rfl
  obtain ⟨positive, ordered, _⟩ := tracked.numbered under
  -- Every other task is through already, so what was set later is in the file.
  have settled : ∀ {key}, (key = change.key → change.version < s.latest key) → s.saved key = s.latest key := by
    intro key older
    refine Nat.le_antisymm (tracked.ordered key) (Nat.not_lt.mp fun behind => ?_)
    obtain ⟨owner, value, owned⟩ := tracked.pending behind
    rcases eq_or_ne owner task with rfl | distinct
    · cases under.symm.trans owned
      exact absurd (older rfl) (Nat.lt_irrefl _)
    · have through := idle owner
      simp only [Store.save, withTask, Function.update_of_ne distinct] at through
      simp [through, Task.unsaved] at owned
  have agrees : ∀ {key}, 0 < s.latest key →
      (s.save task change snapshot).file key = s.memory key := fun set => (kept idle (tracked.known set)).1
  apply outOfOrder
  intro change' snapshot' loaded'
  cases loaded.symm.trans loaded'
  constructor
  · intro key distinct
    by_contra changed
    have set := tracked.changed loaded changed
    have file := agrees set
    simp only [Store.save, Function.update_of_ne distinct] at file
    exact changed ((tracked.agrees set (settled fun same => absurd same distinct)).trans file.symm)
  · by_contra late
    obtain ⟨newer, distinct⟩ := not_or.mp late
    have set : 0 < s.latest change.key := Nat.lt_of_lt_of_le positive ordered
    have file := agrees set
    simp only [Store.save, Function.update_self] at file
    have last : s.saved change.key = s.latest change.key :=
      settled fun _ => Nat.lt_of_lt_of_le (Nat.not_le.mp newer) (tracked.ordered _)
    exact distinct ((tracked.agrees set last).trans file.symm)

end Store
end Omnipresent.ReadModifyWrite
