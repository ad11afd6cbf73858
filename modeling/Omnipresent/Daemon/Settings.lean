import Omnipresent.Daemon.Config
import Omnipresent.ReadModifyWrite

/-! Settings commands from several clients at once, each served by its own task: a
change takes effect under the state lock, and is then merged into the config file
with no lock at all. Every file operation succeeds. -/
namespace Omnipresent
open Transition

inductive SettingsTask where
  | idle
  /-- In effect, as the how many-th change. -/
  | applied (version : Nat) (change : SettingsChange)
  | loaded (version : Nat) (change : SettingsChange) (config : Config)

/-- The daemon, its file and the commands under way, with the history that says which
change of each setting is the last one, and which of them the file has. -/
structure Settings where
  daemon : Daemon
  file : Option Config
  tasks : Nat → SettingsTask
  history : List SettingsChange
  latest : Setting → Nat
  saved : Setting → Nat

inductive SettingsOp where
  | request (task : Nat) (request : SettingsRequest)
  | load (task : Nat)
  | save (task : Nat)

namespace Settings

def start (daemon : Daemon) (file : Option Config) : Settings where
  daemon
  file
  tasks _ := .idle
  history := []
  latest _ := 0
  saved _ := 0

def withTask (self : Settings) (task : Nat) (stands : SettingsTask) : Settings :=
  { self with tasks := Function.update self.tasks task stands }

def apply (self : Settings) (task : Nat) (request : SettingsRequest) (change : SettingsChange) : Settings :=
  { self.withTask task (.applied (self.history.length + 1) change) with
    daemon := (self.daemon.set .saved request).1
    history := self.history ++ [change]
    latest := Function.update self.latest change.setting (self.history.length + 1) }

def save (self : Settings) (task version : Nat) (change : SettingsChange) (config : Config) : Settings :=
  { self.withTask task .idle with
    file := (config.merge change).save
    saved := Function.update self.saved change.setting (max (self.saved change.setting) version) }

/-- The next piece of a command; `none` where the task does not stand there. -/
def run (self : Settings) : SettingsOp → Option Settings
  | .request task request => match self.tasks task, request.change with
    | .idle, some change => some (self.apply task request change)
    | .idle, none => some { self with daemon := (self.daemon.set .saved request).1 }
    | _, _ => none
  | .load task => match self.tasks task with
    | .applied version change => some (self.withTask task (.loaded version change (.load self.file)))
    | _ => none
  | .save task => match self.tasks task with
    | .loaded version change config => some (self.save task version change config)
    | _ => none

end Settings

def SettingsStep (s : Settings) (op : SettingsOp) (t : Settings) : Prop := s.run op = some t

namespace Settings
variable {s t : Settings}

/-- A save finds the file as its task had read it, its own setting aside, and that
setting not yet saved by a command that changed it later to something else. -/
def InOrder (s : Settings) : SettingsOp → Prop
  | .save task => ∀ version change config, s.tasks task = .loaded version change config →
      (∀ key, key ≠ change.setting → (Config.load s.file).setting key = config.setting key) ∧
        (s.saved change.setting ≤ version ∨ (Config.load s.file).setting change.setting = some change.value)
  | _ => True

/-- Once all have answered, every setting ever changed is in the file as it is in
memory, with a value it was changed to. -/
def Kept (s : Settings) : Prop :=
  (∀ task, s.tasks task = .idle) → ∀ change ∈ s.history,
    (Config.load s.file).setting change.setting = s.daemon.setting change.setting ∧
      ∃ written ∈ s.history, written.setting = change.setting ∧
        (Config.load s.file).setting change.setting = some written.value

end Settings

section View
open ReadModifyWrite

def SettingsChange.entry (change : SettingsChange) : Setting × Option SettingValue :=
  (change.setting, some change.value)

def SettingsTask.view : SettingsTask → Task Setting (Option SettingValue)
  | idle => .idle
  | applied version change => .applied ⟨version, change.setting, some change.value⟩
  | loaded version change config => .loaded ⟨version, change.setting, some change.value⟩ config.setting

namespace Settings
variable {s t : Settings}

/-- The settings in memory and those in the file, as one record kept twice. -/
def view (s : Settings) : Store Setting (Option SettingValue) where
  memory := s.daemon.setting
  file := (Config.load s.file).setting
  tasks task := (s.tasks task).view
  history := s.history.map SettingsChange.entry
  latest := s.latest
  saved := s.saved

theorem view_start (daemon : Daemon) (file : Option Config) : (start daemon file).view.Initial :=
  ⟨fun _ => rfl, rfl, fun _ => rfl, fun _ => rfl⟩

theorem view_idle : (s.tasks task).view = .idle ↔ s.tasks task = .idle := by
  cases s.tasks task <;> simp [SettingsTask.view]

theorem view_withTask (s : Settings) (task : Nat) (stands : SettingsTask) :
    (s.withTask task stands).view = s.view.withTask task stands.view := by
  simp only [view, withTask, Store.withTask, Store.mk.injEq, true_and, and_true]
  exact Function.comp_update SettingsTask.view s.tasks task stands

theorem view_apply (s : Settings) (task : Nat) {request : SettingsRequest} (known : request.change = some change) :
    (s.apply task request change).view = s.view.set task change.setting (some change.value) := by
  simp only [view, apply, withTask, Store.set, Store.withTask, List.length_map, List.map_append, Store.mk.injEq,
    true_and, and_true]
  exact ⟨s.daemon.setting_set known .saved, Function.comp_update SettingsTask.view s.tasks task _, rfl⟩

theorem view_save (s : Settings) (task version : Nat) (change : SettingsChange) (config : Config) :
    (s.save task version change config).view =
      s.view.save task ⟨version, change.setting, some change.value⟩ config.setting := by
  simp only [view, save, withTask, Store.save, Store.withTask, Store.mk.injEq, true_and, and_true]
  exact ⟨config.setting_merge change, Function.comp_update SettingsTask.view s.tasks task _⟩

theorem view_inOrder (loaded : s.tasks task = .loaded version change config) :
    s.view.InOrder (.save task) ↔ s.InOrder (.save task) := by
  have stands : s.view.tasks task = .loaded ⟨version, change.setting, some change.value⟩ config.setting :=
    congrArg SettingsTask.view loaded
  constructor
  · intro inOrder version' change' config' loaded'
    obtain ⟨rfl, rfl, rfl⟩ := SettingsTask.loaded.inj (loaded.symm.trans loaded')
    exact inOrder _ _ stands
  · intro inOrder change' snapshot stands'
    obtain ⟨rfl, rfl⟩ := Task.loaded.inj (stands.symm.trans stands')
    exact inOrder _ _ _ loaded

theorem view_kept : s.view.Kept ↔ s.Kept := by
  have idle : (∀ task, s.view.tasks task = .idle) ↔ ∀ task, s.tasks task = .idle := forall_congr' fun _ => view_idle
  constructor
  · intro kept through change made
    obtain ⟨agrees, written⟩ := kept (idle.mpr through) (List.mem_map_of_mem made)
    obtain ⟨change', made', same⟩ := List.mem_map.mp written
    obtain ⟨setting, value⟩ := Prod.mk.inj same
    exact ⟨agrees, change', made', setting, value.symm⟩
  · intro kept through key value made
    obtain ⟨change, changed, same⟩ := List.mem_map.mp made
    cases same
    obtain ⟨agrees, change', made', setting, value⟩ := kept (idle.mp through) change changed
    refine ⟨agrees, List.mem_map.mpr ⟨change', made', ?_⟩⟩
    exact Prod.ext setting value.symm

theorem view_step (step : SettingsStep s op t) (inOrder : s.InOrder op) :
    t.view = s.view ∨ ∃ op, guarded Step Store.InOrder s.view op t.view := by
  cases op with
  | request task request =>
    cases stands : s.tasks task <;> cases known : request.change <;>
      simp only [SettingsStep, run, stands, known, reduceCtorEq] at step <;> cases step
    · rw [s.daemon.set_unchanged known]
      exact .inl rfl
    · rename_i change
      refine .inr ⟨.set task change.setting (some change.value), trivial, ?_⟩
      rw [s.view_apply task known]
      exact .set (congrArg SettingsTask.view stands)
  | load task =>
    cases stands : s.tasks task <;> simp only [SettingsStep, run, stands, reduceCtorEq] at step
    cases step
    refine .inr ⟨.load task, trivial, ?_⟩
    rw [view_withTask]
    exact .load (congrArg SettingsTask.view stands)
  | save task =>
    cases stands : s.tasks task <;> simp only [SettingsStep, run, stands, reduceCtorEq] at step
    cases step
    refine .inr ⟨.save task, (view_inOrder stands).mpr inOrder, ?_⟩
    rw [view_save]
    exact .save (congrArg SettingsTask.view stands)

theorem tracked_of_run {initial : Daemon} {file : Option Config}
    (run : Reaches (guarded SettingsStep InOrder) (start initial file) ops s) :
    s.view.Tracked := by
  obtain ⟨record, _, rfl, run⟩ := run.simulates (R := fun s record => record = s.view) (by
    rintro s op t _ rfl ⟨inOrder, step⟩
    exact ⟨t.view, rfl, view_step step inOrder⟩) rfl
  exact .of_run (view_start initial file) run

/-- A command that no other comes in between of is in order. -/
theorem alone (tracked : s.view.Tracked) (idle : s.tasks task = .idle) (known : request.change = some change) :
    ∃ t, Reaches (guarded SettingsStep InOrder) s [.request task request, .load task, .save task] t ∧
      t.history = s.history ++ [change] ∧ t.tasks = s.tasks := by
  let applied := s.apply task request change
  let loaded := applied.withTask task (.loaded (s.history.length + 1) change (.load s.file))
  have requested : SettingsStep s (.request task request) applied := by
    simp only [SettingsStep, run, idle, known, applied]
  have read : SettingsStep applied (.load task) loaded := by
    simp only [SettingsStep, run, applied, loaded, apply, withTask, Function.update_self]
  have stands : loaded.tasks task = .loaded (s.history.length + 1) change (.load s.file) := Function.update_self ..
  have wrote : SettingsStep loaded (.save task)
      (loaded.save task (s.history.length + 1) change (.load s.file)) := by
    simp only [SettingsStep, run, stands]
  have inOrder : loaded.InOrder (.save task) := by
    intro version change' config stands'
    obtain ⟨rfl, rfl, rfl⟩ := SettingsTask.loaded.inj (stands.symm.trans stands')
    refine ⟨fun _ _ => rfl, .inl ?_⟩
    have earlier := Nat.le_trans (tracked.ordered change.setting) (tracked.recent change.setting)
    exact Nat.le_succ_of_le (earlier.trans_eq (List.length_map _))
  refine ⟨_, .next (.next (.single ⟨trivial, requested⟩) ⟨trivial, read⟩) ⟨inOrder, wrote⟩, rfl, ?_⟩
  simp only [save, loaded, applied, apply, withTask, Function.update_idem, ← idle, Function.update_eq_self]

end Settings
end View

/-- Where every save is in order, no change is lost; where the last one under way is
not, one is. -/
theorem settings_kept
    (run : Reaches (guarded SettingsStep Settings.InOrder) (.start daemon file) ops s) : s.Kept ∧
      ∀ task t, SettingsStep s (.save task) t → ¬ s.InOrder (.save task) → (∀ task, t.tasks task = .idle) →
        ¬ t.Kept := by
  have tracked := Settings.tracked_of_run run
  refine ⟨Settings.view_kept.mp tracked.kept, fun task t step outOfOrder idle => ?_⟩
  cases stands : s.tasks task <;> simp only [SettingsStep, Settings.run, stands, reduceCtorEq] at step
  rename_i version change config
  have saved : ReadModifyWrite.Step s.view (.save task) t.view := by
    cases step
    rw [Settings.view_save]
    exact .save (congrArg SettingsTask.view stands)
  have lost := tracked.lost (mt (Settings.view_inOrder stands).mp outOfOrder) saved
    fun task => Settings.view_idle.mpr (idle task)
  exact fun kept => lost (Settings.view_kept.mpr kept)

theorem settings_kept_in_turn : ∃ s : Settings, s.history = [.placement "desk" .left, .clipboardSharing true] ∧
    s.Kept := by
  have fresh : Reaches (guarded SettingsStep Settings.InOrder) (.start .fresh none) [] (.start .fresh none) :=
    .refl _
  have free : (Settings.start .fresh none).tasks 0 = .idle := rfl
  obtain ⟨s, first, placed, back⟩ := Settings.alone (Settings.tracked_of_run fresh) free
    (show SettingsRequest.change (.layout "desk" "left" []) = some (.placement "desk" .left) from rfl)
  have idle : s.tasks 1 = .idle := congrFun back 1
  obtain ⟨t, second, switched, _⟩ := Settings.alone (Settings.tracked_of_run first) idle
    (show SettingsRequest.change (.clipboard true) = some (.clipboardSharing true) from rfl)
  exact ⟨t, switched.trans (congrArg (· ++ _) placed), (settings_kept (first.trans second)).1⟩

/-- Two hosts placed at once: the second command saves the file as it was before the
first one did. -/
theorem placement_lost : ¬ ∀ (initial : Daemon) (file : Option Config) (ops : List SettingsOp) (s : Settings),
    Reaches SettingsStep (.start initial file) ops s → s.Kept := by
  intro kept
  obtain ⟨s, run, idle, made, saved, set⟩ : ∃ s, Reaches SettingsStep (.start .fresh none)
      [.request 0 (.layout "desk" "left" []), .request 1 (.layout "laptop" "right" []), .load 0, .load 1,
        .save 0, .save 1] s ∧ (∀ task, s.tasks task = .idle) ∧ .placement "desk" .left ∈ s.history ∧
      (Config.load s.file).setting (.placement "desk") = none ∧
      s.daemon.setting (.placement "desk") = some (.edge .left) := by
    refine ⟨_, .of_foldlM id rfl, fun task => ?_, .head _, rfl, rfl⟩
    rcases task with _ | _ | task <;> rfl
  exact absurd (kept _ _ _ s run idle _ made).1 (by rw [SettingsChange.setting, saved, set]; simp)

end Omnipresent
