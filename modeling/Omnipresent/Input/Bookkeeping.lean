import Omnipresent.Input.WindowsSink

/-! The modifiers the sink takes for held, against those the OS was made to hold: they are
the same after every event exactly as long as no modifier key is refused that would
have changed them. -/
namespace Omnipresent
open Transition

def SystemCall.stroke : SystemCall → Option (UInt16 × Action)
  | key vk _ action => some (vk, action)
  | _ => none

def strokes (sent : List SystemCall) : List (UInt16 × Action) := sent.filterMap SystemCall.stroke

def strike (held : Modifiers) (stroke : UInt16 × Action) : Modifiers :=
  match modifierOfVk stroke.1 with
  | some modifier => held.changed modifier stroke.2
  | none => held

/-- The modifiers that what has reached the OS leaves held. -/
def replayed (sent : List SystemCall) : Modifiers := (strokes sent).foldl strike .none

theorem strokes_append (sent : List SystemCall) (call : SystemCall) :
    strokes (sent ++ [call]) = strokes sent ++ call.stroke.toList := by
  rw [strokes, List.filterMap_append]
  cases call <;> rfl

theorem replayed_key (sent : List SystemCall) (vk : UInt16) (extended : Bool) (action : Action) :
    replayed (sent ++ [.key vk extended action]) = strike (replayed sent) (vk, action) := by
  rw [replayed, strokes_append, List.foldl_append]
  rfl

theorem modifierOfVk_modifierKeys : ∀ entry ∈ modifierKeys, modifierOfVk entry.2 = some entry.1 := by decide

namespace WindowsSink
variable {sink : WindowsSink}

theorem send_cases (self : WindowsSink) (call : SystemCall) :
    (self.answers.head? ≠ some false ∧
      self.send call = ({ self with sent := self.sent ++ [call], answers := self.answers.tail }, .ok ())) ∨
    (self.answers.head? = some false ∧
      self.send call = ({ self with answers := self.answers.tail }, .error .injection)) := by
  unfold send
  split
  · rename_i answers refused
    exact .inr ⟨by rw [refused]; rfl, by rw [refused]; rfl⟩
  · rename_i answers accepted
    refine .inl ⟨fun refused => ?_, rfl⟩
    obtain ⟨rest, same⟩ := List.head?_eq_some_iff.mp refused
    exact accepted rest same

/-- The same modifiers held and the same keystrokes made, and where all calls succeed
they still do. -/
structure Untouched (sink after : WindowsSink) : Prop where
  held : after.held = sink.held
  strokes : strokes after.sent = strokes sink.sent
  accepted : sink.answers = [] → after.answers = []

theorem Untouched.refl (sink : WindowsSink) : sink.Untouched sink := ⟨rfl, rfl, id⟩

theorem Untouched.trans {between after : WindowsSink} (first : sink.Untouched between)
    (second : between.Untouched after) : sink.Untouched after :=
  ⟨second.held.trans first.held, second.strokes.trans first.strokes, second.accepted ∘ first.accepted⟩

theorem injectMouse_untouched (self : WindowsSink) (flag : MouseFlag) (data dx dy : Int32) :
    self.Untouched (self.injectMouse flag data dx dy).1 := by
  unfold injectMouse
  rcases self.send_cases (.mouse flag data dx dy) with ⟨_, sent⟩ | ⟨_, refused⟩
  · rw [sent]
    exact ⟨rfl, (strokes_append _ _).trans (List.append_nil _), congrArg List.tail⟩
  · rw [refused]
    exact ⟨rfl, rfl, congrArg List.tail⟩

theorem injectButton_untouched (self : WindowsSink) (button : MouseButton) (action : Action) :
    self.Untouched (self.injectButton button action).1 := by
  cases button with
  | other index => exact .refl self
  | left | right | middle | back | forward => cases action <;> exact self.injectMouse_untouched _ _ _ _

theorem injectScroll_untouched (self : WindowsSink) (desktop : WindowsDesktop) (delta : ScrollDelta) :
    self.Untouched (self.injectScroll desktop delta).1 := by
  unfold injectScroll
  generalize scrollMovement self.scroll delta desktop.charsPerNotch desktop.linesPerNotch = moved
  obtain ⟨⟨wheelX, wheelY⟩, scroll⟩ := moved
  have kept : self.Untouched { self with scroll } := ⟨rfl, rfl, id⟩
  have vertical : self.Untouched (if wheelY = 0 then ({ self with scroll }, .ok ())
      else WindowsSink.injectMouse { self with scroll } .wheel wheelY 0 0).1 := by
    split
    · exact kept
    · exact kept.trans (injectMouse_untouched _ _ _ _ _)
  dsimp only
  generalize (if wheelY = 0 then _ else _ : WindowsSink × Except WindowsInputError Unit) = turned at vertical ⊢
  obtain ⟨sink, _ | _⟩ := turned
  · exact vertical
  · dsimp only
    split
    · exact vertical
    · exact vertical.trans (injectMouse_untouched _ _ _ _ _)

theorem inject_untouched (self : WindowsSink) (desktop : WindowsDesktop) {event : InputEvent}
    (other : ∀ code action modifiers, event ≠ .key code action modifiers) :
    self.Untouched (self.inject desktop event).1 := by
  cases event with
  | key code action modifiers => exact absurd rfl (other code action modifiers)
  | motion delta => exact self.injectMouse_untouched _ _ _ _
  | pointer x y =>
    simp only [inject, warp]
    split
    · exact ⟨rfl, (strokes_append _ _).trans (List.append_nil _), id⟩
    · exact .refl self
  | button button action => exact self.injectButton_untouched button action
  | scroll delta => exact self.injectScroll_untouched desktop delta

/-- What the sink takes for held is what the OS was made to hold. -/
def Recorded (sink : WindowsSink) : Prop := sink.held = replayed sink.sent

theorem Untouched.recorded (untouched : sink.Untouched after) (recorded : sink.Recorded) : after.Recorded := by
  rw [Recorded, untouched.held, replayed, untouched.strokes]
  exact recorded

/-- A repair that does not reach the OS is not taken down, nor is any after it. -/
theorem Recorded.applyFixes (recorded : sink.Recorded) (fixes : List ModifierFix) :
    (sink.applyFixes fixes).1.Recorded := by
  induction fixes generalizing sink with
  | nil => exact recorded
  | cons fix rest ih =>
    unfold WindowsSink.applyFixes
    cases found : modifierKeys.find? (·.1 = fix.modifier) with
    | none => exact ih recorded
    | some entry =>
      obtain ⟨modifier, vk⟩ := entry
      have same := List.find?_some found
      obtain rfl : modifier = fix.modifier := by simpa using same
      have controls := modifierOfVk_modifierKeys _ (List.mem_of_find?_eq_some found)
      rcases sink.send_cases (.key vk false fix.action) with ⟨_, sent⟩ | ⟨_, refused⟩
      · simp only [sendKey, sent]
        refine ih ?_
        rw [Recorded, replayed_key, strike, controls, recorded]
      · simp only [sendKey, refused]
        exact recorded

theorem Recorded.sendKey (recorded : sink.Recorded) {vk : UInt16} (ordinary : modifierOfVk vk = none)
    (extended : Bool) (action : Action) : (sink.sendKey vk extended action).1.Recorded := by
  unfold WindowsSink.sendKey
  rcases sink.send_cases (.key vk extended action) with ⟨_, sent⟩ | ⟨_, refused⟩
  · rw [sent, Recorded, replayed_key, strike, ordinary]
    exact recorded
  · rw [refused]
    exact recorded

theorem Recorded.injectKey (recorded : sink.Recorded) {code : KeyCode} (ordinary : code.modifier = none)
    (action : Action) (modifiers : Modifiers) : (sink.injectKey code action modifiers).1.Recorded := by
  have repaired := recorded.applyFixes (reconcile sink.held modifiers)
  unfold WindowsSink.injectKey prepare
  rw [ordinary]
  dsimp only
  rw [applyModifiers]
  generalize sink.applyFixes _ = prepared at repaired ⊢
  obtain ⟨between, _ | _⟩ := prepared
  · exact repaired
  · dsimp only
    cases mapped : vkFromHid code with
    | none => exact repaired
    | some key => exact repaired.sendKey ((modifierOfVk_vkFromHid mapped).trans ordinary) key.extended action

/-- A modifier key is taken down before it is sent, which nothing takes back. -/
theorem injectKey_modifier (sink : WindowsSink) {code : KeyCode} (controls : code.modifier = some modifier)
    (action : Action)
    (modifiers : Modifiers) :
    (sink.answers.head? ≠ some false ∧ (sink.injectKey code action modifiers).2 = .ok () ∧
      (sink.injectKey code action modifiers).1.held = sink.held.changed modifier action ∧
      replayed (sink.injectKey code action modifiers).1.sent = (replayed sink.sent).changed modifier action) ∨
    (sink.answers.head? = some false ∧ (sink.injectKey code action modifiers).2 = .error .injection ∧
      (sink.injectKey code action modifiers).1.held = sink.held.changed modifier action ∧
      (sink.injectKey code action modifiers).1.sent = sink.sent) := by
  obtain ⟨key, mapped⟩ := vkFromHid_modifier controls
  have struck := (modifierOfVk_vkFromHid mapped).trans controls
  unfold injectKey prepare
  rw [controls]
  dsimp only
  rw [mapped]
  dsimp only
  unfold WindowsSink.sendKey
  rcases send_cases { sink with held := sink.held.changed modifier action } (.key key.vk key.extended action) with
    ⟨accepted, sent⟩ | ⟨denied, refused⟩
  · rw [sent]
    refine .inl ⟨accepted, rfl, rfl, ?_⟩
    rw [replayed_key, strike, struck]
  · rw [refused]
    exact .inr ⟨denied, rfl, rfl, rfl⟩

def Delivered (sink : WindowsSink) (delivery : WindowsDesktop × InputEvent) (after : WindowsSink) : Prop :=
  after = (sink.inject delivery.1 delivery.2).1

/-- The two agree afterwards, and a modifier key that was refused has changed nothing. -/
def Bookkept (sink : WindowsSink) (delivery : WindowsDesktop × InputEvent) (after : WindowsSink) : Prop :=
  after.Recorded ∧ ∀ code action modifiers, delivery.2 = .key code action modifiers → code.modifier ≠ none →
    (sink.inject delivery.1 delivery.2).2 = .error .injection → after.held = sink.held

/-- A modifier key that is refused asks for nothing new: it is held already, or is not. -/
def Answered (sink : WindowsSink) (delivery : WindowsDesktop × InputEvent) : Prop :=
  ∀ code action modifiers modifier, delivery.2 = .key code action modifiers → code.modifier = some modifier →
    sink.answers.head? = some false → sink.held.changed modifier action = sink.held

theorem Recorded.delivered (recorded : sink.Recorded) (delivered : Delivered sink delivery after) :
    (Bookkept sink delivery after ↔ sink.Answered delivery) ∧ (sink.Answered delivery → after.Recorded) := by
  obtain ⟨desktop, event⟩ := delivery
  subst delivered
  -- All but the keys of modifiers keep the two together.
  have settled : (sink.inject desktop event).1.Recorded →
      (∀ code action modifiers, event = .key code action modifiers → code.modifier = none) →
      (Bookkept sink (desktop, event) (sink.inject desktop event).1 ↔ sink.Answered (desktop, event)) ∧
        (sink.Answered (desktop, event) → (sink.inject desktop event).1.Recorded) := by
    intro after ordinary
    refine ⟨⟨fun _ code action modifiers modifier same controls => ?_, fun _ => ⟨after, ?_⟩⟩, fun _ => after⟩
    · cases (ordinary code action modifiers same).symm.trans controls
    · exact fun code action modifiers same control => absurd (ordinary code action modifiers same) control
  cases event with
  | key code action modifiers =>
    cases controls : code.modifier with
    | none =>
      refine settled (recorded.injectKey controls action modifiers) fun code' action' modifiers' same => ?_
      cases same
      exact controls
    | some modifier =>
      change (Bookkept sink _ (sink.injectKey code action modifiers).1 ↔ _) ∧
        (_ → (sink.injectKey code action modifiers).1.Recorded)
      rcases sink.injectKey_modifier controls action modifiers with
        ⟨accepted, ok, held, sent⟩ | ⟨denied, failed, held, sent⟩
      · have after : (sink.injectKey code action modifiers).1.Recorded := by rw [Recorded, held, sent, recorded]
        refine ⟨⟨fun _ _ _ _ _ _ _ refused => absurd refused accepted, fun _ => ⟨after, ?_⟩⟩, fun _ => after⟩
        intro code' action' modifiers' _ _ failed
        cases ok.symm.trans failed
      · have answered : sink.Answered (desktop, .key code action modifiers) ↔
            sink.held.changed modifier action = sink.held := by
          constructor
          · exact fun answered => answered code action modifiers modifier rfl controls denied
          · intro same code' action' modifiers' modifier' event controls' _
            cases event
            cases controls.symm.trans controls'
            exact same
        have after : sink.held.changed modifier action = sink.held →
            (sink.injectKey code action modifiers).1.Recorded := by
          intro same
          rw [Recorded, held, sent, same, recorded]
        refine ⟨⟨fun kept => answered.mpr ?_, fun same => ⟨after (answered.mp same), ?_⟩⟩, fun same =>
          after (answered.mp same)⟩
        · rw [← held, kept.1, sent, recorded]
        · intro _ _ _ _ _ _
          exact held.trans (answered.mp same)
  | motion | pointer | button | scroll =>
    refine settled ((sink.inject_untouched desktop fun code action modifiers same => ?_).recorded recorded)
      fun code action modifiers same => ?_
    · cases same
    · cases same

/-- Whatever the OS refuses, the modifiers taken for held are those it was made to hold
exactly as long as none of their own keys is refused while asking for a change. -/
theorem held_recorded (answers : List Bool) (deliveries : List (WindowsDesktop × InputEvent)) :
    Along Delivered (new answers) deliveries Bookkept ↔
      Along Delivered (new answers) deliveries fun sink delivery _ => sink.Answered delivery :=
  along_iff (show (new answers).Recorded from rfl) (fun recorded delivered => (recorded.delivered delivered).1)
    fun recorded answered delivered => (recorded.delivered delivered).2 answered

/-- Left Shift is refused, and taken for held all the same. -/
theorem shift_refused :
    let desktop : WindowsDesktop := ⟨none, 3, 3, true⟩
    let after := ((new [false]).inject desktop (.key ⟨0xE1⟩ .press .shift)).1
    (after.held = .shift ∧ replayed after.sent = .none) ∧
      ¬ ∀ answers deliveries, Along Delivered (new answers) deliveries Bookkept := by
  intro desktop after
  refine ⟨⟨by decide, by decide⟩, fun along => ?_⟩
  have kept := along [false] [(desktop, .key ⟨0xE1⟩ .press .shift)] [] _ _ _ (List.prefix_refl _) (.refl _) rfl
  exact absurd (show after.held = replayed after.sent from kept.1) (by decide)

end WindowsSink
end Omnipresent
