import Omnipresent.Input.MacosSink
import Omnipresent.Streak

/-! What the macOS sink says of the events it posts, against what it was asked for and what it
has posted before: a move is a drag exactly while a button is down there, and a click is of as
many as there were in quick succession. -/
namespace Omnipresent.Macos

inductive Call where
  | inject (event : InputEvent)
  | warp (x y : Int32)

/-- The button a posted event moves, and which way. -/
def Posted.stroke : Posted → Option (Nat × Bool)
  | .mouse event => match event.kind with
    | .leftMouseDown => some (0, true)
    | .leftMouseUp => some (0, false)
    | .rightMouseDown => some (1, true)
    | .rightMouseUp => some (1, false)
    | .otherMouseDown => some (event.number.getD 2, true)
    | .otherMouseUp => some (event.number.getD 2, false)
    | _ => none
  | _ => none

def strokes (posted : List Posted) : List (Nat × Bool) := posted.filterMap Posted.stroke

/-- What has been posted leaves the button down. -/
def down (posted : List Posted) (number : Nat) : Bool := lastWrite number false (strokes posted)

/-- There are 32 bits for the buttons. Those from 31 on share one. -/
def inSlot (stroke : Nat × Bool) : Nat × Bool := (min stroke.1 31, stroke.2)

/-- The same, with the buttons from 31 on as one. -/
def slotDown (posted : List Posted) (slot : Nat) : Bool := lastWrite slot false ((strokes posted).map inSlot)

theorem slotDown_eq {posted : List Posted} (few : ∀ stroke ∈ strokes posted, stroke.1 ≤ 31) (number : Nat) :
    slotDown posted number = down posted number := by
  have same : (strokes posted).map inSlot = (strokes posted).map id :=
    List.map_congr_left fun stroke member => Prod.ext (Nat.min_eq_left (few stroke member)) rfl
  rw [slotDown, same, List.map_id, down]

def pressed : MacosDesktop × Call → Option Click
  | (desktop, .inject (.button button .press)) =>
    desktop.cursor.map fun cursor => ⟨cgButtonNumber button, desktop.now, cursor.clampToDisplay desktop.bounds⟩
  | _ => none

def clicks (calls : List (MacosDesktop × Call)) : List Click := calls.filterMap pressed

/-- The modifiers a call brings: those of a key that is on this keyboard. -/
def keyed : MacosDesktop × Call → Option Modifiers
  | (_, .inject (.key code _ modifiers)) => (vkFromHid code).map fun _ => modifiers
  | _ => none

namespace MacosSink

def call (self : MacosSink) (desktop : MacosDesktop) : Call → MacosSink × Except MacosInputError Unit
  | .inject event => self.inject desktop event
  | .warp x y => self.warp desktop x y

/-- A sink after these calls, whatever became of each. -/
def after (calls : List (MacosDesktop × Call)) : MacosSink :=
  calls.foldl (fun sink entry => (sink.call entry.1 entry.2).1) new

variable {sink : MacosSink} {desktop : MacosDesktop}

theorem after_concat (calls : List (MacosDesktop × Call)) (entry : MacosDesktop × Call) :
    after (calls ++ [entry]) = ((after calls).call entry.1 entry.2).1 := by
  rw [after, List.foldl_append]
  rfl

theorem slotDown_append (posted events : List Posted) (slot : Nat) :
    slotDown (posted ++ events) slot = lastWrite slot (slotDown posted slot) ((strokes events).map inSlot) := by
  rw [slotDown, strokes, List.filterMap_append, List.map_append, lastWrite_append]
  rfl

/-- The bits are those of the buttons that are down. -/
def Holds (sink : MacosSink) : Prop := ∀ slot, sink.heldButtons.getLsbD slot = slotDown sink.posted slot

theorem Holds.post (holds : sink.Holds) (events : List Posted) (still : strokes events = []) :
    (sink.post desktop events).1.Holds := by
  rw [MacosSink.post]
  split
  · intro slot
    rw [slotDown_append, still]
    exact holds slot
  · exact holds

theorem moveKind_still (heldButtons : BitVec 32) (position : CGPoint) (number clickState : Option Nat)
    (flags : Option CGEventFlags) :
    (Posted.mouse ⟨(moveKind heldButtons).1, position, (moveKind heldButtons).2, number, clickState, flags⟩).stroke =
      none := by
  rw [moveKind]
  split
  · rfl
  · split
    · rfl
    · split <;> rfl

theorem moveTo_eq (sink : MacosSink) (desktop : MacosDesktop) (position : CGPoint) :
    sink.moveTo desktop position = sink.post desktop
      [.mouse ⟨(moveKind sink.heldButtons).1, position, (moveKind sink.heldButtons).2, none, none,
        some (flagsFromModifiers sink.modifiers)⟩, .cursor position] := rfl

theorem Holds.moveTo (holds : sink.Holds) (position : CGPoint) : (sink.moveTo desktop position).1.Holds := by
  rw [moveTo_eq]
  refine holds.post _ ?_
  rw [strokes, List.filterMap_cons_none (moveKind_still _ _ _ _ _)]
  rfl

theorem buttonEvent_stroke (number : Nat) (action : Action) (position : CGPoint) (count : Option Nat)
    (flags : Option CGEventFlags) :
    (Posted.mouse ⟨(buttonEvent number action).1, position, (buttonEvent number action).2,
      if 2 ≤ number then some number else none, count, flags⟩).stroke =
        some (number, decide (action = .press)) := by
  match number, action with
  | 0, .press => rfl
  | 0, .release => rfl
  | 1, .press => rfl
  | 1, .release => rfl
  | n + 2, .press => rfl
  | n + 2, .release => rfl

theorem clickState_held (action : Action) (click : Click) :
    (sink.clickState action click).2.heldButtons = sink.heldButtons ∧
      (sink.clickState action click).2.posted = sink.posted ∧
        (sink.clickState action click).2.modifiers = sink.modifiers := by
  cases action with
  | press => exact ⟨rfl, rfl, rfl⟩
  | release =>
    rw [clickState.eq_def]
    dsimp only
    split <;> exact ⟨rfl, rfl, rfl⟩

/-- A button event: nothing where the cursor is not known, a click counted and no more where
no event can be created, and else an event and its bit. -/
theorem injectButton_cases (sink : MacosSink) (desktop : MacosDesktop) (button : MouseButton) (action : Action) :
    (desktop.cursor = none ∧ sink.injectButton desktop button action = (sink, .error .eventCreation)) ∨
    ∃ cursor, desktop.cursor = some cursor ∧
      let number := cgButtonNumber button
      let position := cursor.clampToDisplay desktop.bounds
      let clicked := sink.clickState action ⟨number, desktop.now, position⟩
      (desktop.creates = false ∧ sink.injectButton desktop button action = (clicked.2, .error .eventCreation)) ∨
      (desktop.creates = true ∧ sink.injectButton desktop button action =
        ({ clicked.2 with
            posted := sink.posted ++ [.mouse ⟨(buttonEvent number action).1, position, (buttonEvent number action).2,
              if 2 ≤ number then some number else none, some clicked.1, some (flagsFromModifiers sink.modifiers)⟩]
            heldButtons := match action with
              | .press => sink.heldButtons ||| BitVec.twoPow 32 (min number 31)
              | .release => sink.heldButtons &&& ~~~BitVec.twoPow 32 (min number 31) }, .ok ())) := by
  obtain ⟨held, posted, modifiers⟩ := @clickState_held sink action
    ⟨cgButtonNumber button, desktop.now, (desktop.cursor.getD ⟨0, 0⟩).clampToDisplay desktop.bounds⟩
  rw [injectButton]
  cases known : desktop.cursor with
  | none => exact .inl ⟨rfl, rfl⟩
  | some cursor =>
    rw [known, Option.getD_some] at held posted modifiers
    refine .inr ⟨cursor, rfl, ?_⟩
    dsimp only
    rw [post]
    cases creates : desktop.creates with
    | false => exact .inl ⟨rfl, rfl⟩
    | true =>
      refine .inr ⟨rfl, ?_⟩
      rw [if_pos rfl]
      cases action with
      | press =>
        dsimp only
        rw [held, posted, modifiers]
        rfl
      | release =>
        dsimp only
        rw [held, posted, modifiers]
        rfl

/-- What moves the cursor or scrolls leaves all of these as they are. -/
structure Steady (sink after : MacosSink) : Prop where
  modifiers : after.modifiers = sink.modifiers
  lastClick : after.lastClick = sink.lastClick
  holds : sink.Holds → after.Holds

theorem Steady.refl (sink : MacosSink) : sink.Steady sink := ⟨rfl, rfl, id⟩

theorem Steady.post {events : List Posted} (still : strokes events = []) :
    sink.Steady (sink.post desktop events).1 := by
  refine ⟨?_, ?_, fun holds => holds.post events still⟩ <;> rw [MacosSink.post] <;> split <;> rfl

theorem Steady.moveTo (position : CGPoint) : sink.Steady (sink.moveTo desktop position).1 := by
  rw [moveTo_eq]
  refine .post ?_
  rw [strokes, List.filterMap_cons_none (moveKind_still _ _ _ _ _)]
  rfl

theorem Steady.injectMotion (delta : MouseDelta) : sink.Steady (sink.injectMotion desktop delta).1 := by
  rw [MacosSink.injectMotion]
  split
  · exact .refl sink
  · exact .moveTo _

theorem Steady.injectScroll (delta : ScrollDelta) : sink.Steady (sink.injectScroll desktop delta).1 := by
  have scrolled (scroll : ScrollAccumulator) : sink.Steady { sink with scroll } := ⟨rfl, rfl, id⟩
  rw [MacosSink.injectScroll]
  dsimp only
  split
  · exact scrolled _
  · obtain ⟨modifiers, lastClick, holds⟩ := @Steady.post
      { sink with scroll := (sink.scroll.takeScaled delta 1 millilinesPerLine millilinesPerLine).2 } desktop
      [.scroll (sink.scroll.takeScaled delta 1 millilinesPerLine millilinesPerLine).1.2
        (sink.scroll.takeScaled delta 1 millilinesPerLine millilinesPerLine).1.1] rfl
    exact ⟨modifiers, lastClick, holds⟩

/-- What the sink keeps, after these calls: the buttons that are down, the modifiers of the
last key it has, and the last press with its place in its streak. -/
structure Tracked (calls : List (MacosDesktop × Call)) (sink : MacosSink) : Prop where
  holds : sink.Holds
  keys : sink.modifiers = lastEffect keyed .none calls
  last : sink.lastClick.map LastClick.toClick = (clicks calls).getLast?
  count : ∀ last, sink.lastClick = some last → Streak Click.Follows (clicks calls) last.count

theorem clicks_concat (calls : List (MacosDesktop × Call)) (entry : MacosDesktop × Call) :
    clicks (calls ++ [entry]) = clicks calls ++ (pressed entry).toList := by
  rw [clicks, List.filterMap_append, List.filterMap_cons, clicks]
  cases pressed entry <;> rfl

variable {calls : List (MacosDesktop × Call)} {entry : MacosDesktop × Call} {later : MacosSink}

theorem Tracked.steady (tracked : Tracked calls sink) (steady : sink.Steady later) (noPress : pressed entry = none)
    (noKey : keyed entry = none) : Tracked (calls ++ [entry]) later := by
  have same : clicks (calls ++ [entry]) = clicks calls := by
    rw [clicks_concat, noPress]
    exact List.append_nil _
  refine ⟨steady.holds tracked.holds, ?_, ?_, ?_⟩
  · rw [lastEffect_append, noKey, steady.modifiers]
    exact tracked.keys
  · rw [steady.lastClick, same]
    exact tracked.last
  · rw [steady.lastClick, same]
    exact tracked.count

theorem Tracked.injectKey (tracked : Tracked calls sink) (code : KeyCode) (action : Action) (modifiers : Modifiers) :
    Tracked (calls ++ [(desktop, .inject (.key code action modifiers))])
      (sink.injectKey desktop code action modifiers).1 := by
  rw [MacosSink.injectKey]
  cases mapped : vkFromHid code with
  | none =>
    refine tracked.steady (.refl sink) rfl ?_
    rw [keyed, mapped]
    rfl
  | some vk =>
    have steady := @Steady.post { sink with modifiers } desktop
      [.key vk (decide (action = .press)) (flagsFromModifiers modifiers)] rfl
    refine ⟨steady.holds tracked.holds, ?_, ?_, ?_⟩
    · rw [lastEffect_append, keyed, mapped]
      exact steady.modifiers
    · rw [clicks_concat]
      refine (congrArg _ steady.lastClick).trans (tracked.last.trans ?_)
      exact congrArg _ (List.append_nil _).symm
    · rw [clicks_concat]
      intro last isLast
      rw [steady.lastClick] at isLast
      exact (List.append_nil (clicks calls)).symm ▸ tracked.count last isLast

theorem Tracked.press (tracked : Tracked calls sink) (click : Click) :
    Streak Click.Follows (clicks calls ++ [click]) (sink.clickState .press click).1 := by
  have ended := tracked.last
  rw [clickState]
  dsimp only
  cases before : sink.lastClick with
  | none =>
    rw [before] at ended
    rw [List.getLast?_eq_none_iff.mp ended.symm]
    exact .first click
  | some last =>
    have streak := tracked.count last before
    rw [before] at ended
    dsimp only
    rw [nextClickCount]
    split
    · rename_i follows
      exact streak.goOn ended.symm follows
    · rename_i apart
      exact .anew ended.symm apart

/-- No button event is without a count. -/
theorem Tracked.counted (tracked : Tracked calls sink) (action : Action) (click : Click) :
    (sink.clickState action click).1 ≠ 0 := by
  cases action with
  | press => exact (tracked.press click).ne_zero
  | release =>
    rw [clickState.eq_def]
    dsimp only
    cases kept : sink.lastClick with
    | none => exact Nat.one_ne_zero
    | some last =>
      dsimp only
      split
      · exact (tracked.count last kept).ne_zero
      · exact Nat.one_ne_zero

theorem getLsbD_pressed (heldButtons : BitVec 32) (action : Action) (number slot : Nat) :
    (match action with
      | .press => heldButtons ||| BitVec.twoPow 32 (min number 31)
      | .release => heldButtons &&& ~~~BitVec.twoPow 32 (min number 31)).getLsbD slot =
      if min number 31 = slot then decide (action = .press) else heldButtons.getLsbD slot := by
  have inside : min number 31 < 32 := by omega
  cases action with
  | press =>
    rw [Bits.getLsbD_or_twoPow inside]
    by_cases same : min number 31 = slot <;> simp [same]
  | release =>
    rw [Bits.getLsbD_and_not_twoPow inside]
    by_cases same : min number 31 = slot <;> simp [same]

theorem Tracked.injectButton (tracked : Tracked calls sink) (button : MouseButton) (action : Action) :
    Tracked (calls ++ [(desktop, .inject (.button button action))]) (sink.injectButton desktop button action).1 := by
  have keys : sink.modifiers =
      lastEffect keyed .none (calls ++ [(desktop, Call.inject (.button button action))]) := by
    rw [lastEffect_append]
    exact tracked.keys
  rcases sink.injectButton_cases desktop button action with ⟨unknown, same⟩ | ⟨cursor, known, outcome⟩
  · rw [same]
    refine tracked.steady (.refl sink) ?_ rfl
    cases action with
    | press => rw [pressed, unknown]; rfl
    | release => rfl
  · -- Either way the press has been counted.
    have clicked : ∀ later : MacosSink,
        later.lastClick = (sink.clickState action
          ⟨cgButtonNumber button, desktop.now, cursor.clampToDisplay desktop.bounds⟩).2.lastClick →
        later.modifiers = sink.modifiers → later.Holds →
        Tracked (calls ++ [(desktop, .inject (.button button action))]) later := by
      intro later lastClick modifiers holds
      cases action with
      | press =>
        have listed : clicks (calls ++ [(desktop, .inject (.button button .press))]) = clicks calls ++
            [⟨cgButtonNumber button, desktop.now, cursor.clampToDisplay desktop.bounds⟩] := by
          rw [clicks_concat, pressed, known]
          rfl
        refine ⟨holds, modifiers.trans keys, ?_, ?_⟩
        · rw [lastClick, listed, List.getLast?_concat]
          rfl
        · rw [lastClick, listed]
          rintro last ⟨⟩
          exact tracked.press _
      | release =>
        have unchanged : later.lastClick = sink.lastClick := by
          rw [lastClick, clickState.eq_def]
          dsimp only
          split <;> rfl
        exact tracked.steady ⟨modifiers, unchanged, fun _ => holds⟩ rfl rfl
    obtain ⟨held, posted, modifiers⟩ := @clickState_held sink action
      ⟨cgButtonNumber button, desktop.now, cursor.clampToDisplay desktop.bounds⟩
    rcases outcome with ⟨_, same⟩ | ⟨_, same⟩
    · rw [same]
      refine clicked _ rfl modifiers fun slot => ?_
      rw [held, posted]
      exact tracked.holds slot
    · rw [same]
      refine clicked _ rfl modifiers fun slot => ?_
      dsimp only
      rw [getLsbD_pressed, slotDown_append, strokes, List.filterMap_cons_some (buttonEvent_stroke _ _ _ _ _),
        tracked.holds slot]
      rfl

theorem Tracked.call (tracked : Tracked calls sink) (entry : MacosDesktop × Call) :
    Tracked (calls ++ [entry]) (sink.call entry.1 entry.2).1 := by
  obtain ⟨desktop, call⟩ := entry
  cases call with
  | warp x y => exact tracked.steady (.post rfl) rfl rfl
  | inject event =>
    cases event with
    | key code action modifiers => exact tracked.injectKey code action modifiers
    | motion delta => exact tracked.steady (.injectMotion delta) rfl rfl
    | pointer x y => exact tracked.steady (.moveTo _) rfl rfl
    | button button action => exact tracked.injectButton button action
    | scroll delta => exact tracked.steady (.injectScroll delta) rfl rfl

theorem tracked_after (calls : List (MacosDesktop × Call)) : Tracked calls (MacosSink.after calls) := by
  induction calls using List.reverseRecOn with
  | nil =>
    refine ⟨fun slot => ?_, rfl, rfl, nofun⟩
    exact BitVec.getLsbD_zero
  | append_singleton calls entry ih =>
    rw [after_concat]
    exact ih.call entry

theorem Holds.eq_zero_iff (holds : sink.Holds) : sink.heldButtons = 0 ↔ ∀ slot, slotDown sink.posted slot = false := by
  constructor
  · intro none slot
    rw [← holds slot, none]
    exact BitVec.getLsbD_zero
  · intro up
    refine BitVec.eq_of_getLsbD_eq fun slot _ => ?_
    rw [holds slot, up slot]
    exact BitVec.getLsbD_zero.symm

theorem Holds.and_ne_zero_iff (holds : sink.Holds) {slot : Nat} (inside : slot < 32) :
    sink.heldButtons &&& BitVec.twoPow 32 slot ≠ 0 ↔ slotDown sink.posted slot = true := by
  rw [← holds slot]
  exact (Bits.and_twoPow_iff inside sink.heldButtons).2

theorem Holds.moveKind (holds : sink.Holds) :
    ((moveKind sink.heldButtons).1 = .leftMouseDragged ↔ slotDown sink.posted 0 = true) ∧
    ((moveKind sink.heldButtons).1 = .rightMouseDragged ↔
      slotDown sink.posted 0 = false ∧ slotDown sink.posted 1 = true) ∧
    ((moveKind sink.heldButtons).1 = .otherMouseDragged ↔
      slotDown sink.posted 0 = false ∧ slotDown sink.posted 1 = false ∧ ∃ slot, slotDown sink.posted slot = true) ∧
    ((moveKind sink.heldButtons).1 = .mouseMoved ↔ ∀ slot, slotDown sink.posted slot = false) := by
  have left : sink.heldButtons &&& 1 ≠ 0 ↔ _ := @and_ne_zero_iff sink holds 0 (by decide)
  have right : sink.heldButtons &&& 2 ≠ 0 ↔ _ := @and_ne_zero_iff sink holds 1 (by decide)
  rw [MacosSink.moveKind]
  split
  · rename_i held
    have first := left.mp held
    refine ⟨iff_of_true rfl first, iff_of_false nofun fun up => ?_, iff_of_false nofun fun up => ?_,
      iff_of_false nofun fun up => ?_⟩
    · cases first.symm.trans up.1
    · cases first.symm.trans up.1
    · cases first.symm.trans (up 0)
  · rename_i free
    have first := Bool.eq_false_iff.mpr (mt left.mpr free)
    have notFirst : ¬ slotDown sink.posted 0 = true := mt left.mpr free
    split
    · rename_i held
      have second := right.mp held
      refine ⟨iff_of_false nofun notFirst, iff_of_true rfl ⟨first, second⟩, iff_of_false nofun fun up => ?_,
        iff_of_false nofun fun up => ?_⟩
      · cases second.symm.trans up.2.1
      · cases second.symm.trans (up 1)
    · rename_i free'
      have second := Bool.eq_false_iff.mpr (mt right.mpr free')
      have notSecond : ¬ (slotDown sink.posted 0 = false ∧ slotDown sink.posted 1 = true) := fun up =>
        mt right.mpr free' up.2
      split
      · rename_i held
        have some : ∃ slot, slotDown sink.posted slot = true := by
          by_contra none
          refine held (holds.eq_zero_iff.mpr fun slot => Bool.eq_false_iff.mpr fun set => none ⟨slot, set⟩)
        refine ⟨iff_of_false nofun notFirst, iff_of_false nofun notSecond, iff_of_true rfl ⟨first, second, some⟩,
          iff_of_false nofun fun up => ?_⟩
        obtain ⟨slot, set⟩ := some
        cases set.symm.trans (up slot)
      · rename_i none
        have up := holds.eq_zero_iff.mp (not_not.mp none)
        refine ⟨iff_of_false nofun notFirst, iff_of_false nofun notSecond, iff_of_false nofun ?_, iff_of_true rfl up⟩
        rintro ⟨_, _, slot, set⟩
        cases set.symm.trans (up slot)

theorem post_ok {events : List Posted} (done : (sink.post desktop events).2 = .ok ()) :
    (sink.post desktop events).1.posted = sink.posted ++ events := by
  rw [post] at done ⊢
  split at done
  · rename_i creates
    rw [if_pos creates]
  · cases done

/-- Where a move event puts the cursor. -/
inductive Moves (desktop : MacosDesktop) : InputEvent → CGPoint → Prop where
  | motion (known : desktop.cursor = some cursor) :
    Moves desktop (.motion delta) ((cursor.offset delta).clampToDisplay desktop.bounds)
  | pointer : Moves desktop (.pointer x y)
    ((CGPoint.of (fromDesktop desktop.bounds x y)).clampToDisplay desktop.bounds)

/-- Whatever has been asked of the sink before, and whatever became of it: a move injected is
posted as a drag exactly while a button is down by what has been posted, of the left one before
the right one before any other, and with the modifiers of the last key this keyboard has. The
buttons from 31 on count as one. -/
theorem moves_drag (calls : List (MacosDesktop × Call)) (moves : Moves desktop event position)
    (done : ((after calls).inject desktop event).2 = .ok ()) :
    let before := (after calls).posted
    (∃ move : MouseEvent, move.position = position ∧
      ((after calls).inject desktop event).1.posted = before ++ [.mouse move, .cursor position] ∧
      (move.kind = .leftMouseDragged ↔ slotDown before 0 = true) ∧
      (move.kind = .rightMouseDragged ↔ slotDown before 0 = false ∧ slotDown before 1 = true) ∧
      (move.kind = .otherMouseDragged ↔ slotDown before 0 = false ∧ slotDown before 1 = false ∧
        ∃ slot, slotDown before slot = true) ∧
      (move.kind = .mouseMoved ↔ ∀ slot, slotDown before slot = false) ∧
      move.flags = some (flagsFromModifiers (lastEffect keyed .none calls))) ∧
    ((∀ stroke ∈ strokes before, stroke.1 ≤ 31) → ∀ number, slotDown before number = down before number) := by
  have tracked := tracked_after calls
  obtain ⟨left, right, other, none'⟩ := tracked.holds.moveKind
  have moved : (after calls).inject desktop event = (after calls).moveTo desktop position := by
    cases moves with
    | motion known =>
      rw [inject, MacosSink.injectMotion, known]
    | pointer => rfl
  rw [moved, moveTo_eq] at done ⊢
  refine ⟨⟨_, rfl, post_ok done, left, right, other, none', ?_⟩, fun few => slotDown_eq few⟩
  rw [tracked.keys]

theorem moves_drag_left : ∃ move : MouseEvent, move.position = ⟨7, 9⟩ ∧ move.kind = .leftMouseDragged := by
  obtain ⟨⟨move, position, _, left, _⟩, _⟩ := @moves_drag ⟨none, some ⟨5, 5⟩, true, 0⟩ (.pointer 7 9) _
    [(⟨none, some ⟨5, 5⟩, true, 0⟩, .inject (.button .left .press))] .pointer rfl
  exact ⟨move, position, left.mpr rfl⟩

/-- A button that reaches the OS is there with a count: for a press, that of the streak it is
the last of; for a release, that of the last press where that was of the same button, and else
one. -/
theorem clicks_count (calls : List (MacosDesktop × Call)) (button : MouseButton) (action : Action)
    (done : ((after calls).inject desktop (.button button action)).2 = .ok ()) :
    ∃ (event : MouseEvent) (count : Nat), ((after calls).inject desktop (.button button action)).1.posted =
        (after calls).posted ++ [.mouse event] ∧
      (Posted.mouse event).stroke = some (cgButtonNumber button, decide (action = .press)) ∧
      event.clickState = some count ∧ count ≠ 0 ∧
      (action = .press → Streak Click.Follows
        (clicks (calls ++ [(desktop, .inject (.button button action))])) count) ∧
      (action = .release → (∃ last ∈ (clicks calls).getLast?, last.button = cgButtonNumber button) →
        Streak Click.Follows (clicks calls) count) ∧
      (action = .release → (∀ last ∈ (clicks calls).getLast?, last.button ≠ cgButtonNumber button) → count = 1) := by
  have tracked := tracked_after calls
  have injected : (after calls).inject desktop (.button button action) =
      (after calls).injectButton desktop button action := rfl
  rw [injected] at done ⊢
  rcases (after calls).injectButton_cases desktop button action with ⟨_, same⟩ | ⟨cursor, known, ⟨_, same⟩ | ⟨_, same⟩⟩
  · rw [same] at done
    cases done
  · rw [same] at done
    cases done
  · rw [same]
    refine ⟨_, _, rfl, buttonEvent_stroke _ _ _ _ _, rfl, tracked.counted _ _, ?_, ?_, ?_⟩
    · rintro rfl
      rw [clicks_concat, pressed, known]
      exact tracked.press _
    · rintro rfl ⟨last, isLast, sameButton⟩
      have ended := tracked.last.trans isLast
      obtain ⟨kept, isKept, rfl⟩ := Option.map_eq_some_iff.mp ended
      rw [clickState.eq_def]
      simp only [isKept, if_pos sameButton]
      exact tracked.count kept isKept
    · rintro rfl other
      have ended := tracked.last
      rw [clickState.eq_def]
      dsimp only
      cases isKept : (after calls).lastClick with
      | none => rfl
      | some kept =>
        rw [isKept] at ended
        exact if_neg (other _ ended.symm)

theorem clicks_count_double : ∃ (event : MouseEvent) (count : Nat), event.clickState = some count ∧ count ≠ 0 ∧
    Streak Click.Follows [⟨0, 0, ⟨5, 5⟩⟩, ⟨0, 200000000, ⟨5, 6⟩⟩] count := by
  obtain ⟨event, count, _, _, counted, some, streak, _⟩ := @clicks_count ⟨none, some ⟨5, 6⟩, true, 200000000⟩
    [(⟨none, some ⟨5, 5⟩, true, 0⟩, .inject (.button .left .press)),
      (⟨none, some ⟨5, 5⟩, true, 100000000⟩, .inject (.button .left .release))] .left .press rfl
  exact ⟨event, count, counted, some, streak rfl⟩

end MacosSink

end Omnipresent.Macos
