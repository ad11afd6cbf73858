import Omnipresent.Input.Bookkeeping

/-! Modifiers as the OS sees them, two keys each, where every keystroke reaches it: an
ordinary key goes down with just the modifiers it carries unless a right-hand key, or
one the sink takes for released, is down for another. -/
namespace Omnipresent
open Transition

/-- Whether the last keystroke on a virtual key was a press. -/
def isDown (vk : UInt16) (sent : List SystemCall) : Bool := lastWrite vk .release (strokes sent) = .press

/-- One of the two keys of a modifier is down. -/
def Modifiers.Down (self : Modifiers) (sent : List SystemCall) : Prop :=
  isDown self.virtualKeys.1 sent = true ∨ isDown self.virtualKeys.2 sent = true

instance (self : Modifiers) (sent : List SystemCall) : Decidable (self.Down sent) :=
  inferInstanceAs (Decidable (_ ∨ _))

theorem isDown_key (vk : UInt16) (sent : List SystemCall) (struck : UInt16) (extended : Bool) (action : Action) :
    isDown vk (sent ++ [.key struck extended action]) =
      if struck = vk then decide (action = .press) else isDown vk sent := by
  rw [isDown, strokes_append, lastWrite_append]
  change decide ((if struck = vk then action else _) = Action.press) = _
  split <;> rfl

theorem modifierOfVk_virtualKeys : ∀ modifier ∈ Modifiers.all,
    modifierOfVk modifier.virtualKeys.1 = some modifier ∧ modifierOfVk modifier.virtualKeys.2 = some modifier := by
  decide

theorem virtualKeys_modifierOfVk {vk : UInt16} {modifier : Modifiers} (controls : modifierOfVk vk = some modifier) :
    vk = modifier.virtualKeys.1 ∨ vk = modifier.virtualKeys.2 := by
  simpa using List.find?_some controls

theorem virtualKeys_injective : ∀ one ∈ Modifiers.all, ∀ other ∈ Modifiers.all,
    one.virtualKeys.1 = other.virtualKeys.1 → one = other := by decide

theorem virtualKeys_apart : ∀ one ∈ Modifiers.all, ∀ other ∈ Modifiers.all,
    one.virtualKeys.1 ≠ other.virtualKeys.2 := by decide

/-- A key that is none of a modifier's leaves both of its keys as they were. -/
theorem isDown_apart {modifier : Modifiers} (known : modifier ∈ Modifiers.all) {vk : UInt16}
    (other : modifierOfVk vk ≠ some modifier) (sent : List SystemCall) (extended : Bool) (action : Action) :
    isDown modifier.virtualKeys.1 (sent ++ [.key vk extended action]) = isDown modifier.virtualKeys.1 sent ∧
      isDown modifier.virtualKeys.2 (sent ++ [.key vk extended action]) = isDown modifier.virtualKeys.2 sent := by
  obtain ⟨left, right⟩ := modifierOfVk_virtualKeys modifier known
  have apart : vk ≠ modifier.virtualKeys.1 := fun same => other (same ▸ left)
  have apart' : vk ≠ modifier.virtualKeys.2 := fun same => other (same ▸ right)
  rw [isDown_key, if_neg apart, isDown_key, if_neg apart']
  exact ⟨rfl, rfl⟩

theorem find_modifierKeys : ∀ modifier ∈ Modifiers.all,
    modifierKeys.find? (·.1 = modifier) = some (modifier, modifier.virtualKeys.1) := by decide

def ModifierFix.write (self : ModifierFix) : Modifiers × Action := (self.modifier, self.action)

/-- There is a repair of a modifier exactly where what is held is not what is wanted. -/
theorem mem_reconcile {held wanted : Modifiers} {fix : ModifierFix} : fix ∈ reconcile held wanted ↔
    fix.modifier ∈ Modifiers.all ∧ held.contains fix.modifier ≠ wanted.contains fix.modifier ∧
      fix.action = if wanted.contains fix.modifier then .press else .release := by
  obtain ⟨modifier, action⟩ := fix
  simp only [reconcile, List.mem_append, List.mem_map, List.mem_filter, Bool.and_eq_true, Bool.not_eq_true',
    ModifierFix.mk.injEq]
  constructor
  · rintro (⟨_, ⟨known, stuck, unwanted⟩, rfl, rfl⟩ | ⟨_, ⟨known, missing, free⟩, rfl, rfl⟩)
    · exact ⟨known, by simp [stuck, unwanted], by simp [unwanted]⟩
    · exact ⟨known, by simp [missing, free], by simp [missing]⟩
  · rintro ⟨known, different, repair⟩
    change modifier ∈ Modifiers.all at known
    change held.contains modifier ≠ wanted.contains modifier at different
    change action = if wanted.contains modifier then Action.press else .release at repair
    cases asked : wanted.contains modifier with
    | false =>
      have stuck : held.contains modifier = true := by simpa [asked] using different
      exact .inl ⟨modifier, ⟨known, stuck, asked⟩, rfl, by rw [repair, asked]; rfl⟩
    | true =>
      have free : held.contains modifier = false := by simpa [asked] using different
      exact .inr ⟨modifier, ⟨known, asked, free⟩, rfl, by rw [repair, asked]; rfl⟩

/-- The last write to a modifier that needs a repair is that repair. -/
theorem lastWrite_reconcile {modifier : Modifiers} (known : modifier ∈ Modifiers.all) (held wanted : Modifiers)
    (initial : Action) :
    lastWrite modifier initial ((reconcile held wanted).map ModifierFix.write) =
      if held.contains modifier = wanted.contains modifier then initial
      else if wanted.contains modifier then .press else .release := by
  split
  · rename_i same
    refine lastWrite_of_absent fun write listed => ?_
    obtain ⟨fix, repaired, rfl⟩ := List.mem_map.mp listed
    rintro rfl
    exact (mem_reconcile.mp repaired).2.1 same
  · rename_i different
    let repair : ModifierFix := ⟨modifier, if wanted.contains modifier then .press else .release⟩
    have listed : repair ∈ reconcile held wanted := mem_reconcile.mpr ⟨known, different, rfl⟩
    refine lastWrite_of_agree (fun write listed same => ?_) ⟨_, List.mem_map_of_mem listed, rfl⟩
    obtain ⟨fix, repaired, rfl⟩ := List.mem_map.mp listed
    obtain rfl : fix.modifier = modifier := same
    exact (mem_reconcile.mp repaired).2.2

theorem contains_repaired {modifier : Modifiers} (known : modifier ∈ Modifiers.all) {fixes : List ModifierFix}
    (listed : ∀ fix ∈ fixes, fix.modifier ∈ Modifiers.all) (held : Modifiers) :
    (fixes.foldl (fun held fix => held.changed fix.modifier fix.action) held).contains modifier =
      decide (lastWrite modifier (if held.contains modifier then .press else .release)
        (fixes.map ModifierFix.write) = Action.press) := by
  induction fixes generalizing held with
  | nil =>
    rw [List.foldl_nil, List.map_nil, lastWrite_nil]
    cases held.contains modifier <;> rfl
  | cons fix rest ih =>
    rw [List.foldl_cons, ih fun fix later => listed fix (List.mem_cons_of_mem _ later), List.map_cons, lastWrite_cons,
      Modifiers.contains_changed held (listed fix List.mem_cons_self) known]
    rw [ModifierFix.write]
    split
    · cases fix.action <;> rfl
    · rfl

theorem strokes_repairs (fixes : List ModifierFix) :
    strokes (fixes.map fun fix => .key fix.modifier.virtualKeys.1 false fix.action) =
      (fixes.map ModifierFix.write).map fun write => (write.1.virtualKeys.1, write.2) := by
  rw [strokes, List.filterMap_map, List.map_map]
  change fixes.filterMap (some ∘ fun fix => (fix.modifier.virtualKeys.1, fix.action)) = _
  rw [List.filterMap_eq_map]
  rfl

theorem isDown_append (vk : UInt16) (sent later : List SystemCall) : isDown vk (sent ++ later) =
    decide (lastWrite vk (lastWrite vk .release (strokes sent)) (strokes later) = Action.press) := by
  rw [isDown, strokes, List.filterMap_append, lastWrite_append]
  rfl

theorem isDown_repaired {modifier : Modifiers} (known : modifier ∈ Modifiers.all) {fixes : List ModifierFix}
    (listed : ∀ fix ∈ fixes, fix.modifier ∈ Modifiers.all) (sent : List SystemCall) :
    isDown modifier.virtualKeys.1 (sent ++ fixes.map fun fix => .key fix.modifier.virtualKeys.1 false fix.action) =
      decide (lastWrite modifier (lastWrite modifier.virtualKeys.1 .release (strokes sent))
        (fixes.map ModifierFix.write) = Action.press) := by
  rw [isDown_append, strokes_repairs, lastWrite_map fun modifier : Modifiers => modifier.virtualKeys.1]
  intro write written same
  obtain ⟨fix, repaired, rfl⟩ := List.mem_map.mp written
  exact virtualKeys_injective _ (listed fix repaired) _ known same

theorem isDown_repaired_right {modifier : Modifiers} (known : modifier ∈ Modifiers.all) {fixes : List ModifierFix}
    (listed : ∀ fix ∈ fixes, fix.modifier ∈ Modifiers.all) (sent : List SystemCall) :
    isDown modifier.virtualKeys.2 (sent ++ fixes.map fun fix => .key fix.modifier.virtualKeys.1 false fix.action) =
      isDown modifier.virtualKeys.2 sent := by
  rw [isDown_append, strokes_repairs, lastWrite_of_absent]
  · rfl
  · intro stroke struck
    obtain ⟨write, written, rfl⟩ := List.mem_map.mp struck
    obtain ⟨fix, repaired, rfl⟩ := List.mem_map.mp written
    exact virtualKeys_apart _ (listed fix repaired) _ known

namespace WindowsSink
variable {sink : WindowsSink}

theorem send_ok (accepted : sink.answers = []) (call : SystemCall) :
    sink.send call = ({ sink with sent := sink.sent ++ [call] }, .ok ()) := by
  obtain ⟨scroll, held, sent, answers⟩ := sink
  obtain rfl : answers = [] := accepted
  rfl

theorem applyFixes_ok (accepted : sink.answers = []) {fixes : List ModifierFix}
    (listed : ∀ fix ∈ fixes, fix.modifier ∈ Modifiers.all) :
    sink.applyFixes fixes = ({ sink with
      held := fixes.foldl (fun held fix => held.changed fix.modifier fix.action) sink.held
      sent := sink.sent ++ fixes.map fun fix => .key fix.modifier.virtualKeys.1 false fix.action }, .ok ()) := by
  induction fixes generalizing sink with
  | nil => simp only [applyFixes, List.foldl_nil, List.map_nil, List.append_nil]
  | cons fix rest ih =>
    rw [applyFixes]
    rw [find_modifierKeys fix.modifier (listed fix List.mem_cons_self)]
    simp only [sendKey, send_ok accepted]
    refine (ih ?_ fun fix later => listed fix (List.mem_cons_of_mem _ later)).trans ?_
    · exact accepted
    · simp only [List.foldl_cons, List.map_cons, List.append_assoc, List.singleton_append]

/-- Each modifier is held as wanted; its left-hand key has gone where the sink took it for
other than wanted, and nothing else has. -/
structure Repaired (sink : WindowsSink) (wanted : Modifiers) (after : WindowsSink) : Prop where
  accepted : after.answers = []
  held : ∀ modifier ∈ Modifiers.all, after.held.contains modifier = wanted.contains modifier
  left : ∀ modifier ∈ Modifiers.all, isDown modifier.virtualKeys.1 after.sent =
    if sink.held.contains modifier = wanted.contains modifier then isDown modifier.virtualKeys.1 sink.sent
    else wanted.contains modifier
  right : ∀ modifier ∈ Modifiers.all,
    isDown modifier.virtualKeys.2 after.sent = isDown modifier.virtualKeys.2 sink.sent

theorem applyModifiers_repaired (accepted : sink.answers = []) (wanted : Modifiers) :
    (sink.applyModifiers wanted).2 = .ok () ∧ sink.Repaired wanted (sink.applyModifiers wanted).1 := by
  have listed : ∀ fix ∈ reconcile sink.held wanted, fix.modifier ∈ Modifiers.all := fun fix repaired =>
    (mem_reconcile.mp repaired).1
  rw [applyModifiers, applyFixes_ok accepted listed]
  refine ⟨rfl, accepted, fun modifier known => ?_, fun modifier known => ?_, fun modifier known => ?_⟩
  · rw [contains_repaired known listed, lastWrite_reconcile known]
    grind
  · rw [isDown_repaired known listed, lastWrite_reconcile known]
    rw [isDown]
    grind
  · exact isDown_repaired_right known listed sink.sent

theorem injectKey_repaired (accepted : sink.answers = []) {code : KeyCode} (ordinary : code.modifier = none)
    (action : Action) (modifiers : Modifiers) : sink.Repaired modifiers (sink.injectKey code action modifiers).1 := by
  obtain ⟨ok, repaired⟩ := applyModifiers_repaired accepted modifiers
  rw [injectKey, prepare]
  rw [ordinary]
  dsimp only
  generalize sink.applyModifiers modifiers = prepared at ok repaired ⊢
  obtain ⟨between, result⟩ := prepared
  obtain rfl : result = .ok () := ok
  dsimp only
  cases mapped : vkFromHid code with
  | none => exact repaired
  | some key =>
    have none := (modifierOfVk_vkFromHid mapped).trans ordinary
    have other : ∀ modifier, modifierOfVk key.vk ≠ some modifier := fun modifier same => nomatch none.symm.trans same
    simp only [sendKey, send_ok repaired.accepted]
    refine ⟨repaired.accepted, repaired.held, fun modifier known => ?_, fun modifier known => ?_⟩
    · rw [(isDown_apart known (other modifier) _ _ _).1]
      exact repaired.left modifier known
    · rw [(isDown_apart known (other modifier) _ _ _).2]
      exact repaired.right modifier known

/-- Every call succeeds, and a modifier taken for held has one of its keys down. -/
structure Settled (sink : WindowsSink) : Prop where
  accepted : sink.answers = []
  down : ∀ modifier ∈ Modifiers.all, sink.held.contains modifier = true → modifier.Down sink.sent

theorem Repaired.down (repaired : sink.Repaired wanted after) (settled : sink.Settled) {modifier : Modifiers}
    (known : modifier ∈ Modifiers.all) (asked : wanted.contains modifier = true) : modifier.Down after.sent := by
  have left := repaired.left modifier known
  rw [asked] at left
  split at left
  · rename_i held
    refine (settled.down modifier known held).imp (fun down => ?_) fun down => ?_
    · rw [left, down]
    · rw [repaired.right modifier known, down]
  · exact .inl left

theorem Repaired.settled (repaired : sink.Repaired wanted after) (settled : sink.Settled) : after.Settled :=
  ⟨repaired.accepted, fun modifier known held =>
    repaired.down settled known ((repaired.held modifier known).symm.trans held)⟩

theorem injectKey_struck (accepted : sink.answers = []) {code : KeyCode} (controls : code.modifier = some modifier)
    (action : Action) (modifiers : Modifiers) : ∃ key : VirtualKey, modifierOfVk key.vk = some modifier ∧
      (sink.injectKey code action modifiers).1 = { sink with
        held := sink.held.changed modifier action
        sent := sink.sent ++ [.key key.vk key.extended action] } := by
  obtain ⟨key, mapped⟩ := vkFromHid_modifier controls
  refine ⟨key, (modifierOfVk_vkFromHid mapped).trans controls, ?_⟩
  rw [injectKey, prepare]
  rw [controls]
  dsimp only
  rw [mapped]
  dsimp only
  have accepted' : { sink with held := sink.held.changed modifier action }.answers = [] := accepted
  rw [sendKey, send_ok accepted']

theorem Settled.struck (settled : sink.Settled) {code : KeyCode} (controls : code.modifier = some modifier)
    (action : Action) (modifiers : Modifiers) : (sink.injectKey code action modifiers).1.Settled := by
  obtain ⟨key, struck, after⟩ := injectKey_struck settled.accepted controls action modifiers
  rw [after]
  refine ⟨settled.accepted, fun other known held => ?_⟩
  change (sink.held.changed modifier action).contains other = true at held
  rw [Modifiers.contains_changed _ (modifier_mem_all controls) known] at held
  rw [Modifiers.Down]
  split at held
  · rename_i same
    subst same
    rw [isDown_key, isDown_key]
    rcases virtualKeys_modifierOfVk struck with left | right
    · rw [if_pos left]
      exact .inl held
    · rw [if_pos right]
      exact .inr held
  · -- The keys of one modifier are none of another's.
    rename_i different
    have apart : modifierOfVk key.vk ≠ some other := fun same => different (Option.some.inj (struck.symm.trans same))
    rw [(isDown_apart known apart _ _ _).1, (isDown_apart known apart _ _ _).2]
    exact settled.down other known held

theorem Untouched.settled (untouched : sink.Untouched after) (settled : sink.Settled) : after.Settled := by
  refine ⟨untouched.accepted settled.accepted, fun modifier known held => ?_⟩
  rw [untouched.held] at held
  unfold Modifiers.Down isDown
  rw [untouched.strokes]
  exact settled.down modifier known held

theorem Settled.delivered (settled : sink.Settled) (delivered : Delivered sink delivery after) : after.Settled := by
  obtain ⟨desktop, event⟩ := delivery
  subst delivered
  cases event with
  | key code action modifiers =>
    cases controls : code.modifier with
    | none => exact (injectKey_repaired settled.accepted controls action modifiers).settled settled
    | some modifier => exact settled.struck controls action modifiers
  | motion | pointer | button | scroll =>
    refine (sink.inject_untouched desktop fun code action modifiers same => ?_).settled settled
    cases same

theorem Settled.new : (new []).Settled := ⟨rfl, by decide⟩

/-- After an ordinary key, whatever was delivered before it, the modifiers down are
those the key carries exactly if none of the others was down by its right-hand key, nor
by its left-hand key while taken for released. -/
theorem modifiers_agree (reached : Reaches Delivered (new []) deliveries sink) {code : KeyCode}
    (ordinary : code.modifier = none) (desktop : WindowsDesktop) (action : Action) (modifiers : Modifiers) :
    (∀ modifier ∈ Modifiers.all,
      modifier.Down (sink.inject desktop (.key code action modifiers)).1.sent ↔ modifiers.contains modifier = true) ↔
    ∀ modifier ∈ Modifiers.all, modifiers.contains modifier = false →
      isDown modifier.virtualKeys.2 sink.sent = false ∧
        (sink.held.contains modifier = false → isDown modifier.virtualKeys.1 sink.sent = false) := by
  have settled : sink.Settled := reached.invariant (fun settled delivered => settled.delivered delivered) Settled.new
  have repaired : sink.Repaired modifiers (sink.inject desktop (.key code action modifiers)).1 :=
    injectKey_repaired settled.accepted ordinary action modifiers
  refine forall₂_congr fun modifier known => ?_
  cases asked : modifiers.contains modifier with
  | true =>
    have down := repaired.down settled known asked
    simp only [down, Bool.true_eq_false, false_implies]
  | false =>
    have left := repaired.left modifier known
    have right := repaired.right modifier known
    rw [asked] at left
    rw [Modifiers.Down]
    rw [left, right]
    cases sink.held.contains modifier <;> simp [and_comm]

/-- Shift was lost on the way, and goes down with the letter it was held for. -/
theorem modifiers_agree_shift :
    let event : InputEvent := .key ⟨0x04⟩ .press .shift
    ∀ modifier ∈ Modifiers.all, modifier.Down ((new []).inject ⟨none, 3, 3, true⟩ event).1.sent ↔
      Modifiers.shift.contains modifier = true :=
  (modifiers_agree (.refl _) (by decide) _ _ _).mpr (by decide)

/-- Right Shift is pressed and its release lost: what is released for the letter that
comes next is Left Shift. -/
theorem right_shift_stranded :
    let desktop : WindowsDesktop := ⟨none, 3, 3, true⟩
    let pressed := ((new []).inject desktop (.key ⟨0xE5⟩ .press .shift)).1
    let after := (pressed.inject desktop (.key ⟨0x04⟩ .press .none)).1
    (Modifiers.shift.Down after.sent ∧ after.held = .none) ∧
      ¬ ∀ deliveries sink, Reaches Delivered (new []) deliveries sink → ∀ code : KeyCode, code.modifier = none →
        vkFromHid code ≠ none → ∀ desktop action modifiers, ∀ modifier ∈ Modifiers.all,
          modifier.Down (sink.inject desktop (.key code action modifiers)).1.sent ↔
            modifiers.contains modifier = true := by
  intro desktop pressed after
  have down : Modifiers.shift.Down after.sent := by decide
  refine ⟨⟨down, by decide⟩, fun agree => ?_⟩
  have reached : Reaches Delivered (new []) [(desktop, .key ⟨0xE5⟩ .press .shift)] pressed := .single rfl
  have asked := (agree _ _ reached ⟨0x04⟩ (by decide) (by decide) desktop .press .none .shift (by decide)).mp down
  exact absurd asked (by decide)

end WindowsSink
end Omnipresent
