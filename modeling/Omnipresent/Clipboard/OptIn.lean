import Omnipresent.Clipboard.Echo

/-! Switching sharing off: the flag is looked at once, at the start of a call, so what
is under way at the time decides whether off is off. -/
namespace Omnipresent
open Transition

def ClipboardOp.TouchesOs : ClipboardOp → Prop
  | read .. | write .. => True
  | _ => False

/-- The call has nothing left to do to the clipboard or to what was last synced. -/
def ClipboardCall.Spent : ClipboardCall → Prop
  | idle | forgetting | comparing _ none => True
  | polling | comparing _ (some _) | updating _ | recording .. => False

namespace ClipboardTasks
variable {s t : ClipboardTasks}

/-- After a switch-off has returned and before sharing is switched on again: nothing was
last synced, and no piece touches the OS clipboard or returns data. -/
def ReallyOff (s : ClipboardTasks) : Prop :=
  s.off = true → s.manager.lastSynced = none ∧
    ∀ op t, ClipboardStep s op t → ¬ op.TouchesOs ∧ t.answered = s.answered

/-- A switch-off that returns finds sharing still off, and no call with anything left
to do. -/
def Quiet (s : ClipboardTasks) : ClipboardOp → Prop
  | .forget _ => s.manager.enabled = false ∧ ∀ call, (s.calls call).Spent
  | _ => True

/-- What keeps off off. -/
structure Still (s : ClipboardTasks) : Prop where
  enabled : s.manager.enabled = false
  last : s.manager.lastSynced = none
  spent : ∀ call, (s.calls call).Spent

theorem Still.withCall (still : s.Still) (call : Nat) {stands : ClipboardCall} (spent : stands.Spent) :
    (s.withCall call stands).Still := by
  refine ⟨still.enabled, still.last, fun other => ?_⟩
  rw [withCall_calls]
  split
  · exact spent
  · exact still.spent other

theorem Still.not_busy {P : Prop} (still : s.Still) (stands : s.calls call = stage) (busy : ¬ stage.Spent) : P :=
  (busy (stands ▸ still.spent call)).elim

theorem Still.step (still : s.Still) (step : ClipboardStep s op t) :
    (¬ op.TouchesOs ∧ t.answered = s.answered) ∧ (t.Still ∨ t.off = false) := by
  cases moves step with
  | unpolled | unapplied => exact ⟨⟨id, rfl⟩, .inl still⟩
  | poll _ on => exact False.elim (Bool.false_ne_true (still.enabled.symm.trans on))
  | unread stands | read stands | unwritten stands | write stands | record stands => exact still.not_busy stands id
  | @compare call version current stands =>
    cases current with
    | some data => exact still.not_busy stands id
    | none =>
      rw [compare_same version (.inl rfl)]
      exact ⟨⟨id, rfl⟩, .inl (still.withCall call trivial)⟩
  | update _ on => exact False.elim (Bool.false_ne_true (still.enabled.symm.trans on))
  | on => exact ⟨⟨id, rfl⟩, .inr rfl⟩
  | off => exact ⟨⟨id, rfl⟩, .inl (Still.withCall (s := { s with manager := s.manager.storeEnabled false })
      ⟨rfl, still.last, still.spent⟩ _ trivial)⟩
  | @forget call =>
    have kept := still.withCall call (show ClipboardCall.idle.Spent from trivial)
    exact ⟨⟨id, rfl⟩, .inl ⟨still.enabled, rfl, kept.spent⟩⟩
  | copy => exact ⟨⟨id, rfl⟩, .inl ⟨still.enabled, still.last, still.spent⟩⟩

theorem still_of_run (run : Reaches (guarded ClipboardStep Quiet) (.new port enabled) ops s) (off : s.off = true) :
    s.Still := by
  refine run.invariant (P := fun s => s.off = true → s.Still) ?_ (fun off => by cases off) off
  rintro s op t kept ⟨quiet, step⟩ off
  by_cases before : s.off = true
  · exact ((kept before).step step).2.resolve_right fun on => by cases off.symm.trans on
  · -- It is this step that switched off.
    cases moves step with
    | @forget call stands =>
      obtain ⟨enabled, spent⟩ := quiet
      refine ⟨enabled, rfl, fun other => ?_⟩
      change ((s.withCall call .idle).calls other).Spent
      rw [withCall_calls]
      split
      · trivial
      · exact spent other
    | on => cases off
    | _ => exact absurd off before

/-- The state leads on to what switching off rules out, with nobody switching sharing on. -/
def Leaks (s : ClipboardTasks) : Prop :=
  ∃ ops t, Reaches ClipboardStep s ops t ∧ (∀ op ∈ ops, ∀ call, op ≠ .switch call true) ∧ ¬ t.ReallyOff

theorem polling_leaks (off : s.off = true) (stands : s.calls call = .polling) : s.Leaks := by
  refine ⟨[], s, .refl s, fun op member => absurd member List.not_mem_nil, fun really => ?_⟩
  have read : ClipboardStep s (.read call none)
      (s.withCall call (.comparing s.manager.port.puts.length s.manager.port.read)) := by
    simp only [ClipboardStep, run, stands]
  exact ((really off).2 _ _ read).1 trivial

theorem updating_leaks (off : s.off = true) (stands : s.calls call = .updating data) : s.Leaks := by
  refine ⟨[], s, .refl s, fun op member => absurd member List.not_mem_nil, fun really => ?_⟩
  have unwritten : ClipboardStep s (.write call (some "")) (s.withCall call .idle) := by
    simp only [ClipboardStep, run, stands]
  exact ((really off).2 _ _ unwritten).1 trivial

theorem synced_leaks (step : ClipboardStep s op t) (other : ∀ call, op ≠ .switch call true) (off : t.off = true)
    (last : t.manager.lastSynced = some data) : s.Leaks := by
  refine ⟨[op], t, .single step, fun op' member => ?_, fun really => ?_⟩
  · rw [List.mem_singleton] at member
    exact member ▸ other
  · cases last.symm.trans (really off).1

theorem busy_leaks (off : s.off = true) (busy : ¬ (s.calls call).Spent) :
    s.Leaks := by
  cases stands : s.calls call with
  | idle | forgetting => exact (busy (stands ▸ trivial)).elim
  | polling => exact polling_leaks off stands
  | updating data => exact updating_leaks off stands
  | comparing version current =>
    cases current with
    | none => exact (busy (stands ▸ trivial)).elim
    | some data =>
      have compared : ClipboardStep s (.compare call) ((s.compare version (some data)).withCall call .idle) := by
        simp only [ClipboardStep, run, stands]
      exact synced_leaks compared (fun _ wrong => by cases wrong) off (ClipboardManager.compare_lastSynced _ _)
  | recording version data =>
    have recorded : ClipboardStep s (.record call) ((s.record version data).withCall call .idle) := by
      simp only [ClipboardStep, run, stands]
    exact synced_leaks recorded (fun _ wrong => by cases wrong) off rfl

/-- A switch-off that returns while sharing is on again, or while a call has something
left to do, is not the end of it. -/
theorem leaks_of_loud (step : ClipboardStep s (.forget call) t) (loud : ¬ s.Quiet (.forget call)) : t.Leaks := by
  cases moves step with
  | forget stands =>
    have idle : Function.update s.calls call .idle call = .idle := Function.update_self ..
    simp only [Quiet, not_and_or, Bool.not_eq_false, not_forall] at loud
    rcases loud with on | ⟨other, busy⟩
    · -- Sharing is on, so the next poll reads.
      have polled : ClipboardStep { s.withCall call .idle with manager := s.manager.forget, off := true } (.poll call)
          (withCall { s.withCall call .idle with manager := s.manager.forget, off := true } call .polling) := by
        have enabled : s.manager.forget.enabled = true := on
        simp only [ClipboardStep, run, withCall, idle, enabled, if_true]
      obtain ⟨ops, u, rest, still, leak⟩ := polling_leaks
        (s := withCall { s.withCall call .idle with manager := s.manager.forget, off := true } call .polling)
        rfl (Function.update_self ..)
      refine ⟨.poll call :: ops, u, (Reaches.single polled).trans rest, ?_, leak⟩
      exact List.forall_mem_cons.mpr ⟨(fun _ wrong => by cases wrong), still⟩
    · have apart : other ≠ call := by
        rintro rfl
        exact busy (stands ▸ trivial)
      have same : Function.update s.calls call .idle other = s.calls other := Function.update_of_ne apart ..
      exact busy_leaks rfl fun spent => busy (same ▸ spent)

end ClipboardTasks

open ClipboardTasks

/-- Where every switch-off that returns is quiet, off is off in every state; where one
is not, it can be followed by what it rules out, with nobody switching sharing on. -/
theorem off_is_off (run : Reaches (guarded ClipboardStep Quiet) (.new port enabled) ops s) :
    s.ReallyOff ∧
      ∀ call t, ClipboardStep s (.forget call) t → ¬ s.Quiet (.forget call) → t.Leaks := by
  refine ⟨fun off => ?_, fun _ _ => leaks_of_loud⟩
  have still := still_of_run run off
  exact ⟨still.last, fun op t step => (still.step step).1⟩

theorem off_is_off_switched : ∃ s : ClipboardTasks, s.off = true ∧ s.ReallyOff := by
  obtain ⟨s, run, enabled, spent, t, forgot, off⟩ : ∃ s, Reaches ClipboardStep (.new (.holding none) true)
      [.copy (some (.text "copied")), .switch 0 false] s ∧ s.manager.enabled = false ∧
        (∀ call, (s.calls call).Spent) ∧ ∃ t, ClipboardStep s (.forget 0) t ∧ t.off = true := by
    refine ⟨_, .of_foldlM id rfl, rfl, fun call => ?_, _, rfl, rfl⟩
    change (Function.update (fun _ => ClipboardCall.idle) 0 .forgetting call).Spent
    rw [Function.update_apply]
    split <;> trivial
  have earlier : Reaches (guarded ClipboardStep Quiet) _ _ s :=
    (run.guard (fun op => ∀ s, Quiet s op) (by simp [Quiet])).mono fun ⟨quiet, step⟩ => ⟨quiet _, step⟩
  have last : guarded ClipboardStep Quiet s (.forget 0) t := ⟨⟨enabled, spent⟩, forgot⟩
  exact ⟨t, off, (off_is_off (earlier.next last)).1⟩

/-- A poll that found sharing on reads the clipboard after the switch-off has returned. -/
theorem poll_under_way : ¬ ∀ (port : OsClipboard) (enabled : Bool) (ops : List ClipboardOp) (s : ClipboardTasks),
    Reaches ClipboardStep (.new port enabled) ops s → s.ReallyOff := by
  intro reallyOff
  obtain ⟨s, run, tested⟩ := Reaches.of_any ClipboardStep.of_run
    (show ([.poll 0, .switch 1 false, .forget 1].foldlM ClipboardTasks.run (.new (.holding none) true)).any
      (fun s => s.off = true ∧ s.calls 0 = .polling) = true by decide +kernel)
  obtain ⟨off, stands⟩ := of_decide_eq_true tested
  have read : ClipboardStep s (.read 0 none)
      (s.withCall 0 (.comparing s.manager.port.puts.length s.manager.port.read)) := by
    simp only [ClipboardStep, ClipboardTasks.run, stands]
  exact ((reallyOff _ _ _ s run off).2 _ _ read).1 trivial

end Omnipresent
