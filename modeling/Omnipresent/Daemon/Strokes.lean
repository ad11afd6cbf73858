import Omnipresent.Daemon.Reachable

/-! Keys and buttons going down and up: every stroke is routed by itself, by the
target and the relabelling of that instant, and nothing remembers where a press went. -/
namespace Omnipresent
open Transition

inductive KeyOrButton where
  | key (code : KeyCode)
  | button (button : MouseButton)
deriving DecidableEq

def InputEvent.stroke : InputEvent → Option (KeyOrButton × Action)
  | .key code action _ => some (.key code, action)
  | .button which action => some (.button which, action)
  | _ => none

def ModifierSwap.relabel (self : ModifierSwap) : KeyOrButton → KeyOrButton
  | .key code => .key (if self = none then code else swapKey code)
  | .button which => .button which

theorem ModifierSwap.apply_stroke (swap : ModifierSwap) (event : InputEvent) :
    (swap.apply event).stroke = event.stroke.map fun stroke => (swap.relabel stroke.1, stroke.2) := by
  cases swap <;> cases event <;> rfl

/-- One stroke captured, with the target and the relabelling it found, and what was queued then for
each peer. -/
structure Stroke where
  held : KeyOrButton
  action : Action
  target : ActiveTarget
  swap : ModifierSwap
  queued : MachineId → List PeerCommand

/-- It was forwarded to this peer, under this code. -/
def Stroke.Sent (self : Stroke) (peer : MachineId) (code : KeyOrButton) (action : Action) : Prop :=
  ∃ event, .input event ∈ self.queued peer ∧ event.stroke = some (code, action)

namespace Shared

def targetSwap (self : Shared) : ModifierSwap :=
  match self.state.sessions.active with
  | .here => .none
  | .remote peer => ((self.state.links.lookup peer).map PeerLink.modifierSwap).getD .none

/-- What has been queued for a peer that was linked before and still is. -/
def queuedSince (self before : Shared) (peer : MachineId) : List PeerCommand :=
  match before.state.links.lookup peer, self.state.links.lookup peer with
  | some earlier, some link => link.commands.drop earlier.commands.length
  | _, _ => []

/-- The stroke an operation captured, if it was one, by what the operation left behind. -/
def strokes (self after : Shared) : Op → List Stroke
  | .captured event _ => (event.stroke.map fun (held, action) =>
      ⟨held, action, self.state.sessions.active, self.targetSwap, after.queuedSince self⟩).toList
  | _ => []

end Shared

/-- A daemon with every stroke it ever captured, oldest first. -/
structure Typing where
  shared : Shared
  strokes : List Stroke

namespace Typing

def execute (self : Typing) (op : Op) : Option Typing :=
  (self.shared.execute op).map fun shared => ⟨shared, self.strokes ++ self.shared.strokes shared op⟩

end Typing

def TypingStep (s : Typing) (op : Op) (t : Typing) : Prop :=
  Step s.shared op t.shared ∧ t.strokes = s.strokes ++ s.shared.strokes t.shared op

theorem TypingStep.of_execute {s t : Typing} (executed : s.execute op = some t) : TypingStep s op t := by
  obtain ⟨shared, ran, rfl⟩ := Option.map_eq_some_iff.mp executed
  exact ⟨.of_execute ran, rfl⟩

def Holds (strokes : List Stroke) (held : KeyOrButton) : Prop :=
  ∃ stroke, strokes.reverse.find? (·.held = held) = some stroke ∧ stroke.action = .press

namespace Typing
variable {s t : Typing}

/-- Presses and releases come in pairs. -/
def Paired (s : Typing) : Op → Prop
  | .captured event _ => ∀ held action, event.stroke = some (held, action) →
      (action = .release ↔ Holds s.strokes held)
  | _ => True

/-- Every press forwarded to the peer has been followed there by a matching release. -/
def Released (s : Typing) (peer : MachineId) : Prop :=
  ∀ before press after code, s.strokes = before ++ press :: after → press.Sent peer code .press →
    ∃ release ∈ after, release.Sent peer code .release

/-- The same, but for what is held down still, and for what was let go while the peer
was not the target or while its keys were relabelled in another way. -/
def Accounted (s : Typing) (peer : MachineId) : Prop :=
  ∀ before press after code, s.strokes = before ++ press :: after → press.Sent peer code .press →
    (∃ release ∈ after, release.Sent peer code .release) ∨
    (∀ stroke ∈ after, stroke.held ≠ press.held) ∨
    ∃ between release rest, after = between ++ release :: rest ∧ (∀ stroke ∈ between, stroke.held ≠ press.held) ∧
      release.held = press.held ∧ release.action = .release ∧
      (release.target ≠ .remote peer ∨ release.swap ≠ press.swap)

end Typing

namespace Shared
variable {s t : Shared}

/-- Anything but a movement goes to the active peer, and nothing else changes. -/
theorem routeCaptured_forwards (still : ∀ delta, event ≠ .motion delta)
    (routed : s.routeCaptured event os = some t) :
    t.state.links = match s.state.sessions.active with
      | .here => s.state.links
      | .remote peer => s.state.links.modify peer fun link => link.send (.input (link.modifierSwap.apply event)) := by
  unfold routeCaptured at routed
  cases event with
  | motion delta => exact absurd rfl (still delta)
  | key | pointer | button | scroll =>
    cases active : s.state.sessions.active with
    | here | remote peer =>
      rw [active] at routed
      cases routed
      rfl

theorem queuedSince_same (links : t.state.links = s.state.links) (peer : MachineId) : t.queuedSince s peer = [] := by
  rw [queuedSince, links]
  cases s.state.links.lookup peer with
  | none => rfl
  | some link => exact List.drop_length

/-- The target always has a link, so a stroke is queued for it, and for no other. -/
theorem Sound.queuedSince (sound : s.Sound) (still : ∀ delta, event ≠ .motion delta)
    (routed : s.routeCaptured event os = some t) (peer : MachineId) : t.queuedSince s peer =
      if s.state.sessions.active = .remote peer then [.input (s.targetSwap.apply event)] else [] := by
  have links := routeCaptured_forwards still routed
  cases active : s.state.sessions.active with
  | here =>
    rw [active] at links
    rw [if_neg nofun]
    exact queuedSince_same links peer
  | remote target =>
    rw [active] at links
    obtain ⟨link, linked⟩ := Finmap.mem_iff.mp (sound.remote_linked active)
    rw [Shared.queuedSince, links, HashMap.lookup_modify, targetSwap, active]
    by_cases own : peer = target
    · subst own
      rw [if_pos rfl, if_pos rfl]
      simp only [linked, Option.map_some, Option.getD_some, PeerLink.send_commands, List.drop_left]
    · rw [if_neg own, if_neg fun same => own (ActiveTarget.remote.inj same).symm]
      cases s.state.links.lookup peer with
      | none => rfl
      | some link => exact List.drop_length

theorem strokes_cases (s t : Shared) (op : Op) : s.strokes t op = [] ∨
    ∃ event os stroke, op = .captured event os ∧ s.strokes t op = [stroke] ∧
      event.stroke = some (stroke.held, stroke.action) ∧ stroke.target = s.state.sessions.active ∧
      stroke.swap = s.targetSwap ∧ stroke.queued = t.queuedSince s := by
  cases op with
  | captured event os =>
    cases struck : event.stroke with
    | none => exact .inl (by rw [strokes, struck, Option.map_none, Option.toList_none])
    | some pair =>
      refine .inr ⟨event, os, ⟨pair.1, pair.2, _, _, _⟩, rfl, ?_, struck, rfl, rfl, rfl⟩
      rw [strokes, struck, Option.map_some, Option.toList_some]
      rfl
  | _ => exact .inl rfl

theorem Sound.stroke_sent {stroke : Stroke} (sound : s.Sound) (routed : s.routeCaptured event os = some t)
    (struck : event.stroke = some (stroke.held, stroke.action)) (target : stroke.target = s.state.sessions.active)
    (swap : stroke.swap = s.targetSwap) (queued : stroke.queued = t.queuedSince s) (peer : MachineId)
    (code : KeyOrButton) (action : Action) : stroke.Sent peer code action ↔
      stroke.target = .remote peer ∧ code = stroke.swap.relabel stroke.held ∧ action = stroke.action := by
  have still : ∀ delta, event ≠ .motion delta := by
    rintro delta rfl
    cases struck
  have relabelled : (s.targetSwap.apply event).stroke = some (stroke.swap.relabel stroke.held, stroke.action) := by
    rw [ModifierSwap.apply_stroke, struck, swap, Option.map_some]
  rw [Stroke.Sent, queued, sound.queuedSince still routed, target]
  split
  · rename_i active
    simp only [List.mem_singleton, PeerCommand.input.injEq, exists_eq_left, relabelled, Option.some.injEq,
      Prod.mk.injEq, active, true_and, eq_comm]
  · rename_i elsewhere
    simp only [List.not_mem_nil, false_and, exists_false, elsewhere]

end Shared

/-- How the strokes so far were routed, and that they come in pairs. -/
structure Typing.Tracked (s : Typing) : Prop where
  sound : s.shared.Sound
  routed : ∀ stroke ∈ s.strokes, ∀ peer code action, stroke.Sent peer code action ↔
    stroke.target = .remote peer ∧ code = stroke.swap.relabel stroke.held ∧ action = stroke.action
  paired : ∀ before stroke after, s.strokes = before ++ stroke :: after →
    (stroke.action = .release ↔ Holds before stroke.held)

namespace Typing.Tracked
variable {s t : Typing}

theorem start (shared : Shared) (sound : shared.Sound) : Tracked ⟨shared, []⟩ where
  sound := sound
  routed _ absent := by simp at absent
  paired _ _ _ split := by simp at split

theorem step (tracked : s.Tracked) (paired : s.Paired op) (step : TypingStep s op t) : t.Tracked := by
  obtain ⟨stepped, recorded⟩ := step
  have sound := stepped.sound tracked.sound
  rcases s.shared.strokes_cases t.shared op with quiet | ⟨event, os, stroke, rfl, only, struck, target, swap, queued⟩
  · rw [quiet, List.append_nil] at recorded
    exact ⟨sound, recorded ▸ tracked.routed, recorded ▸ tracked.paired⟩
  · rw [only] at recorded
    refine ⟨sound, ?_, ?_⟩
    · intro stroke' member
      rw [recorded, List.mem_append, List.mem_singleton] at member
      rcases member with earlier | rfl
      · exact tracked.routed stroke' earlier
      · exact tracked.sound.stroke_sent stepped.1 struck target swap queued
    · intro before stroke' after split
      rw [recorded] at split
      -- The new stroke is the last one, so it comes after the split or is the stroke split at.
      rcases List.eq_nil_or_concat' after with rfl | ⟨rest, last, rfl⟩
      · obtain ⟨rfl, last⟩ := List.append_inj' split rfl
        cases last
        exact paired _ _ struck
      · rw [← List.cons_append, ← List.append_assoc] at split
        exact tracked.paired before stroke' rest (List.append_inj' split rfl).1

theorem holds_of_last {before between : List Stroke} {press : Stroke} (down : press.action = .press)
    (apart : ∀ stroke ∈ between, stroke.held ≠ press.held) : Holds (before ++ press :: between) press.held := by
  refine ⟨press, ?_, down⟩
  have none : between.reverse.find? (·.held = press.held) = none := by
    simpa [List.find?_eq_none] using apart
  simp [List.reverse_append, List.find?_append, none]

/-- A press and the release of the same key, both while the peer is the target and
under one relabelling, go out under one code. -/
theorem accounted (tracked : s.Tracked) (peer : MachineId) : s.Accounted peer := by
  intro before press after code split sent
  have member : press ∈ s.strokes := split ▸ List.mem_append_right _ (.head _)
  obtain ⟨aimed, relabelled, down⟩ := (tracked.routed press member peer code .press).mp sent
  cases found : after.find? (·.held = press.held) with
  | none =>
    right; left
    simpa [List.find?_eq_none] using found
  | some release =>
    obtain ⟨same, between, rest, rfl, apart⟩ := List.find?_eq_some_iff_append.mp found
    have same : release.held = press.held := of_decide_eq_true same
    have apart : ∀ stroke ∈ between, stroke.held ≠ press.held := by simpa using apart
    have up : release.action = .release := by
      refine (tracked.paired (before ++ press :: between) release rest ?_).mpr ?_
      · rw [split, List.append_assoc, List.cons_append]
      · exact same ▸ holds_of_last down.symm apart
    by_cases there : release.target = .remote peer ∧ release.swap = press.swap
    · left
      refine ⟨release, List.mem_append_right _ (.head _), ?_⟩
      have member : release ∈ s.strokes := by
        rw [split]
        exact List.mem_append_right _ (.tail _ (List.mem_append_right _ (.head _)))
      apply (tracked.routed release member peer code .release).mpr
      exact ⟨there.1, by rw [there.2, same, relabelled], up.symm⟩
    · exact .inr (.inr ⟨between, release, rest, rfl, apart, same, up, not_and_or.mp there⟩)

end Typing.Tracked

/-- Whoever is the target by now, every press forwarded to a peer is accounted for. -/
theorem presses_accounted (run : Reaches (guarded TypingStep Typing.Paired)
    ⟨.start localMachine localScreen trust sink placements modifierSwaps, []⟩ ops s) (peer : MachineId) :
    s.Accounted peer := by
  refine Typing.Tracked.accounted (run.invariant (P := Typing.Tracked) ?_ ?_) peer
  · exact fun tracked ⟨paired, step⟩ => tracked.step paired step
  · exact .start _ (Shared.start_sound _ _ _ _ _ _)

theorem Typing.paired_first {s : Typing} (none : s.strokes = []) :
    s.Paired (.captured (.key code .press modifiers) os) := by
  rintro held action struck
  cases struck
  simp [Holds, none]

/-- The cursor taken over the right edge, onto the desk. -/
def ontoDesk : List Op :=
  [.dialled "desk" (.filled 2) ⟨7⟩ ⟨1920, 1080⟩ .done [machineIdOf (.filled 2)],
    .captured (.motion ⟨100, 0⟩) (some (1919, 500))]

theorem ontoDesk_paired (run : Reaches TypingStep s ontoDesk t) :
    Reaches (guarded TypingStep Typing.Paired) s ontoDesk t := by
  have paired := run.guard (fun op => ∀ s : Typing, s.Paired op)
    (by simp [ontoDesk, Typing.Paired, InputEvent.stroke])
  exact paired.mono fun ⟨paired, step⟩ => ⟨paired _, step⟩

theorem presses_accounted_typed : ∃ s : Typing, s.strokes.length = 2 ∧ ∀ peer, s.Accounted peer := by
  let press : Op := .captured (.key ⟨4⟩ .press ⟨0⟩) none
  let release : Op := .captured (.key ⟨4⟩ .release ⟨0⟩) none
  obtain ⟨s, run, tested⟩ := Reaches.of_any TypingStep.of_execute
    (show (ontoDesk.foldlM Typing.execute ⟨.start ⟨1⟩ ⟨1920, 1080⟩ ⟨.missing, []⟩ none ∅ ∅, []⟩).any
      (fun s => s.strokes.length = 0 ∧ (s.execute press).any fun t => (t.execute release).isSome) = true by
        decide +kernel)
  obtain ⟨none, pressed⟩ := of_decide_eq_true tested
  obtain ⟨t, pressed, released⟩ := (Option.any_eq_true _ _).mp pressed
  obtain ⟨u, released⟩ := Option.isSome_iff_exists.mp released
  have none : s.strokes = [] := List.length_eq_zero_iff.mp none
  have first := TypingStep.of_execute pressed
  have second := TypingStep.of_execute released
  have down : t.strokes = s.shared.strokes t.shared press := by rw [first.2, none, List.nil_append]
  have paired : t.Paired release := by
    rintro held action struck
    cases struck
    rw [down]
    exact iff_of_true rfl ⟨_, rfl, rfl⟩
  have typed := ((ontoDesk_paired run).next ⟨Typing.paired_first none, first⟩).next ⟨paired, second⟩
  refine ⟨u, ?_, presses_accounted typed⟩
  rw [second.2, down]
  rfl

/-- A key pressed on the desk, and the cursor taken home with it held down. -/
theorem key_left_down : ¬ ∀ (localMachine : MachineId) (localScreen : Screen) (ops : List Op) (s t : Typing)
    (op : Op) (peer : MachineId), Reaches (guarded TypingStep Typing.Paired)
      ⟨.start localMachine localScreen ⟨.missing, []⟩ none ∅ ∅, []⟩ ops s →
        guarded TypingStep Typing.Paired s op t →
    s.shared.state.sessions.active = .remote peer → t.shared.state.sessions.active ≠ .remote peer →
    peer ∈ t.shared.state.links → t.Released peer := by
  intro released
  let press : Op := .captured (.key ⟨4⟩ .press ⟨0⟩) none
  let home : Op := .captured (.motion ⟨-100, 0⟩) none
  let desk := machineIdOf (.filled 2)
  obtain ⟨s, run, tested⟩ := Reaches.of_any TypingStep.of_execute
    (show (ontoDesk.foldlM Typing.execute ⟨.start ⟨1⟩ ⟨1920, 1080⟩ ⟨.missing, []⟩ none ∅ ∅, []⟩).any
      (fun s => s.strokes.length = 0 ∧
        (s.execute press).any fun t => t.shared.state.sessions.active = .remote desk ∧
          .input (.key ⟨4⟩ .press ⟨0⟩) ∈ t.shared.queuedSince s.shared desk ∧
          (t.execute home).any fun u => u.shared.state.sessions.active ≠ .remote desk ∧
            desk ∈ u.shared.state.links) = true by decide +kernel)
  obtain ⟨none, pressed⟩ := of_decide_eq_true tested
  obtain ⟨t, pressed, away⟩ := (Option.any_eq_true _ _).mp pressed
  obtain ⟨target, out, crossed⟩ := of_decide_eq_true away
  obtain ⟨u, crossed, left⟩ := (Option.any_eq_true _ _).mp crossed
  obtain ⟨left, linked⟩ := of_decide_eq_true left
  have none : s.strokes = [] := List.length_eq_zero_iff.mp none
  have first := TypingStep.of_execute pressed
  have last := TypingStep.of_execute crossed
  have typed := (ontoDesk_paired run).next ⟨Typing.paired_first none, first⟩
  have down : u.strokes = s.shared.strokes t.shared press := by
    rw [last.2, first.2, none, List.nil_append]
    exact List.append_nil _
  have moved : guarded TypingStep Typing.Paired t home u := ⟨(fun _ _ struck => nomatch struck), last⟩
  obtain ⟨_, absent, _⟩ := released _ _ _ _ _ home desk typed moved target left linked [] _ [] (.key ⟨4⟩) down
    ⟨_, out, rfl⟩
  cases absent

end Omnipresent
