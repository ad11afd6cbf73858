import Omnipresent.Daemon.Strokes
import Omnipresent.Input.LinuxSource

/-! The capture thread: it tells the source whether local input is withheld, and routes what the
source has queued. On Windows and macOS a hook withholds an event or not as it captures it; on
Linux each device has a reader, which grabs the device after it has looked. So what the daemon
decides reaches the desktop some steps later, with other tasks at work in between. -/
namespace Omnipresent
open Transition

/-- A device's own event, and whether the desktop was kept from it. -/
structure Report where
  raw : EventSummary
  withheld : Bool
deriving DecidableEq, Repr

inductive Phase where
  | looking
  | fetching
  | sending (batch : List Report)
deriving DecidableEq, Repr

structure Reader where
  grabbed : Bool
  /-- Relative motion accumulated within one hardware report frame. -/
  pending : MouseDelta
  phase : Phase
  /-- Not fetched yet, oldest first. -/
  unread : List Report
deriving DecidableEq, Repr

/-- What the source has queued, which device's reader it is from if from one, and whether the
desktop was kept from it. -/
structure Captured (Device : Type) where
  origin : Option Device
  event : InputEvent
  withheld : Bool
deriving DecidableEq, Repr

structure Capturing (Device : Type) where
  daemon : Shared
  /-- Past its look at what the daemon wants, and not yet past its poll. -/
  polling : Bool
  /-- What the thread has told the source. -/
  suppressed : Bool
  /-- What the source has been told. -/
  flag : Bool
  readers : Device → Reader
  modifiers : UInt8
  queue : List (Captured Device)

def Op.isCapture : Op → Bool
  | .captured .. => true
  | _ => false

namespace Capturing
variable {Device : Type} [DecidableEq Device]

inductive Label (Device : Type) where
  /-- Another task of the daemon has the lock. -/
  | elsewhere (op : Op)
  | apply
  | poll (os : Option (Int32 × Int32))
  /-- A poll that finds nothing. -/
  | idle
  | hooked (event : InputEvent)
  | report (device : Device) (raw : EventSummary)
  /-- The top of a reader's loop; the device is grabbed or let go, if that is done. -/
  | look (device : Device) (done : Bool)
  | fetch (device : Device)
  | interrupted (device : Device)
  | send (device : Device)

def start (daemon : Shared) : Capturing Device :=
  ⟨daemon, false, false, false, fun _ => ⟨false, ⟨0, 0⟩, .looking, []⟩, 0, []⟩

def withReader (self : Capturing Device) (device : Device) (reader : Reader) : Capturing Device :=
  { self with readers := Function.update self.readers device reader }

def step (self : Capturing Device) : Label Device → Option (Capturing Device)
  | .elsewhere op =>
    if op.isCapture then none else (self.daemon.execute op).map fun daemon => { self with daemon }
  | .apply =>
    let wanted := self.daemon.suppress
    if self.polling then none
    else some { self with
      polling := true, suppressed := wanted, flag := if wanted ≠ self.suppressed then wanted else self.flag }
  | .poll os =>
    match self.polling, self.queue with
    | true, first :: rest => (self.daemon.routeCaptured first.event os).map fun daemon =>
        { self with daemon, polling := false, queue := rest }
    | _, _ => none
  | .idle =>
    match self.polling, self.queue with
    | true, [] => some { self with polling := false }
    | _, _ => none
  | .hooked event => some { self with queue := self.queue ++ [⟨none, event, self.flag⟩] }
  | .report device raw =>
    let reader := self.readers device
    some (self.withReader device { reader with unread := reader.unread ++ [⟨raw, reader.grabbed⟩] })
  | .look device done =>
    let reader := self.readers device
    match reader.phase with
    | .looking =>
      let grabbed := if self.flag ≠ reader.grabbed ∧ done then self.flag else reader.grabbed
      some (self.withReader device { reader with grabbed, phase := .fetching })
    | _ => none
  | .fetch device =>
    let reader := self.readers device
    match reader.phase, reader.unread with
    -- It waits for something to fetch.
    | .fetching, first :: rest =>
      some (self.withReader device { reader with phase := .sending (first :: rest), unread := [] })
    | _, _ => none
  | .interrupted device =>
    let reader := self.readers device
    match reader.phase with
    | .fetching => some (self.withReader device { reader with phase := .looking })
    | _ => none
  | .send device =>
    let reader := self.readers device
    match reader.phase with
    | .sending [] => some (self.withReader device { reader with phase := .looking })
    | .sending (first :: rest) =>
      let (event, pending, modifiers) := convertEvent first.raw reader.pending self.modifiers
      let sent := event.map fun event => ⟨some device, event, first.withheld⟩
      some { self.withReader device { reader with phase := .sending rest, pending } with
        modifiers, queue := self.queue ++ sent.toList }
    | _ => none

def Step (s : Capturing Device) (label : Label Device) (t : Capturing Device) : Prop := s.step label = some t

/-- The daemon wants local input withheld, or not, as it did. -/
def Steady (wanted : Bool) (s : Capturing Device) (_ : Label Device) : Prop := s.daemon.suppress = wanted

/-- By when what the thread has been told of has come to what a reader captures, or a hook. -/
def rungs : Option Device → List (Label Device)
  | none => [.apply, .idle]
  | some device => [.apply, .look device true, .fetch device, .look device true, .idle]

section Steps
variable {s t : Capturing Device} {device : Device}

@[simp] theorem withReader_self (s : Capturing Device) (device : Device) (reader : Reader) :
    (s.withReader device reader).readers device = reader :=
  Function.update_self ..

theorem step_elsewhere : s.step (.elsewhere op) = some t ↔
    op.isCapture = false ∧ ∃ daemon, s.daemon.execute op = some daemon ∧ { s with daemon } = t := by
  simp only [step, Option.ite_none_left_eq_some, Option.map_eq_some_iff, Bool.not_eq_true]

theorem step_apply : s.step .apply = some t ↔ s.polling = false ∧ { s with
    polling := true, suppressed := s.daemon.suppress
    flag := if s.daemon.suppress ≠ s.suppressed then s.daemon.suppress else s.flag } = t := by
  simp only [step, Option.ite_none_left_eq_some, Bool.not_eq_true, Option.some.injEq]

theorem step_poll : s.step (.poll os) = some t ↔ s.polling = true ∧ ∃ first rest daemon, s.queue = first :: rest ∧
    s.daemon.routeCaptured first.event os = some daemon ∧ { s with daemon, polling := false, queue := rest } = t := by
  unfold step
  cases s.polling with
  | false => simp
  | true =>
    cases s.queue with
    | nil => simp
    | cons first rest => simp

theorem step_idle : s.step .idle = some t ↔ s.polling = true ∧ s.queue = [] ∧ { s with polling := false } = t := by
  unfold step
  cases s.polling with
  | false => simp
  | true => cases s.queue <;> simp

theorem step_look : s.step (.look device done) = some t ↔ (s.readers device).phase = .looking ∧
    s.withReader device { s.readers device with
      grabbed := if s.flag ≠ (s.readers device).grabbed ∧ done = true then s.flag else (s.readers device).grabbed
      phase := .fetching } = t := by
  unfold step
  cases phase : (s.readers device).phase <;> simp [phase]

theorem step_fetch : s.step (.fetch device) = some t ↔
    (s.readers device).phase = .fetching ∧ (s.readers device).unread ≠ [] ∧
    s.withReader device { s.readers device with phase := .sending (s.readers device).unread, unread := [] } = t := by
  unfold step
  cases phase : (s.readers device).phase with
  | fetching => cases unread : (s.readers device).unread <;> simp [phase, unread]
  | looking => simp [phase]
  | sending batch => simp [phase]

theorem step_interrupted : s.step (.interrupted device) = some t ↔ (s.readers device).phase = .fetching ∧
    s.withReader device { s.readers device with phase := .looking } = t := by
  unfold step
  cases phase : (s.readers device).phase <;> simp [phase]

theorem step_send : s.step (.send device) = some t ↔
    ((s.readers device).phase = .sending [] ∧ s.withReader device { s.readers device with phase := .looking } = t) ∨
    ∃ first rest, (s.readers device).phase = .sending (first :: rest) ∧
      (let converted := convertEvent first.raw (s.readers device).pending s.modifiers
       { s.withReader device { s.readers device with phase := .sending rest, pending := converted.2.1 } with
         modifiers := converted.2.2
         queue := s.queue ++ (converted.1.map fun event => ⟨some device, event, first.withheld⟩).toList }) = t := by
  unfold step
  cases phase : (s.readers device).phase with
  | sending batch => cases batch <;> simp [phase]
  | looking => simp [phase]
  | fetching => simp [phase]

/-- What one step can make of a reader. -/
inductive Moves (flag : Bool) (reader : Reader) : Reader → Prop where
  | rests : Moves flag reader reader
  | reports (raw : EventSummary) :
      Moves flag reader { reader with unread := reader.unread ++ [⟨raw, reader.grabbed⟩] }
  | looks (done : Bool) : Moves flag reader { reader with
      grabbed := if flag ≠ reader.grabbed ∧ done = true then flag else reader.grabbed, phase := .fetching }
  | fetches : Moves flag reader { reader with phase := .sending reader.unread, unread := [] }
  | looksAgain : Moves flag reader { reader with phase := .looking }
  | sends (first : Report) (rest : List Report) (pending : MouseDelta)
      (batch : reader.phase = .sending (first :: rest)) :
      Moves flag reader { reader with phase := .sending rest, pending }

/-- What one step does: to what the thread and the source have been told, to each reader, and to
the queue. -/
structure Effect (s t : Capturing Device) : Prop where
  daemon : t.daemon = s.daemon ∨ ∃ op, Omnipresent.Step s.daemon op t.daemon
  told : (t.suppressed = s.suppressed ∧ t.flag = s.flag) ∨ (t.suppressed = s.daemon.suppress ∧
    t.flag = if s.daemon.suppress ≠ s.suppressed then s.daemon.suppress else s.flag)
  reader : ∀ device, Moves s.flag (s.readers device) (t.readers device)
  queued : ∀ captured ∈ t.queue, captured ∈ s.queue ∨ (captured.origin = none ∧ captured.withheld = s.flag) ∨
    ∃ device first rest, captured.origin = some device ∧ (s.readers device).phase = .sending (first :: rest) ∧
      captured.withheld = first.withheld

theorem moves_update {reader : Reader} (moves : Moves s.flag (s.readers device) reader) (other : Device) :
    Moves s.flag (s.readers other) (Function.update s.readers device reader other) := by
  by_cases same : other = device
  · subst same
    rwa [Function.update_self]
  · rw [Function.update_of_ne same]
    exact .rests

theorem Effect.withReader {reader : Reader} (moves : Moves s.flag (s.readers device) reader) :
    Effect s (s.withReader device reader) :=
  ⟨.inl rfl, .inl ⟨rfl, rfl⟩, moves_update moves, fun _ member => .inl member⟩

theorem step_effect {label : Label Device} (stepped : s.step label = some t) : Effect s t := by
  have rests (device : Device) : Moves s.flag (s.readers device) (s.readers device) := .rests
  cases label with
  | elsewhere op =>
    obtain ⟨-, daemon, executed, rfl⟩ := step_elsewhere.mp stepped
    exact ⟨.inr ⟨op, Step.of_execute executed⟩, .inl ⟨rfl, rfl⟩, rests, fun _ member => .inl member⟩
  | apply =>
    obtain ⟨-, rfl⟩ := step_apply.mp stepped
    exact ⟨.inl rfl, .inr ⟨rfl, rfl⟩, rests, fun _ member => .inl member⟩
  | poll os =>
    obtain ⟨-, first, rest, daemon, queue, routed, rfl⟩ := step_poll.mp stepped
    refine ⟨.inr ⟨.captured first.event os, routed, nofun⟩, .inl ⟨rfl, rfl⟩, rests, fun _ member => .inl ?_⟩
    exact queue ▸ List.mem_cons_of_mem first member
  | idle =>
    obtain ⟨-, -, rfl⟩ := step_idle.mp stepped
    exact ⟨.inl rfl, .inl ⟨rfl, rfl⟩, rests, fun _ member => .inl member⟩
  | hooked event =>
    cases stepped
    refine ⟨.inl rfl, .inl ⟨rfl, rfl⟩, rests, fun captured member => ?_⟩
    obtain earlier | new := List.mem_append.mp member
    · exact .inl earlier
    · obtain rfl := List.mem_singleton.mp new
      exact .inr (.inl ⟨rfl, rfl⟩)
  | report device raw =>
    cases stepped
    exact .withReader (.reports raw)
  | look device done =>
    obtain ⟨-, rfl⟩ := step_look.mp stepped
    exact .withReader (.looks done)
  | fetch device =>
    obtain ⟨-, -, rfl⟩ := step_fetch.mp stepped
    exact .withReader .fetches
  | interrupted device =>
    obtain ⟨-, rfl⟩ := step_interrupted.mp stepped
    exact .withReader .looksAgain
  | send device =>
    obtain ⟨-, rfl⟩ | ⟨first, rest, batch, rfl⟩ := step_send.mp stepped
    · exact .withReader .looksAgain
    · refine ⟨.inl rfl, .inl ⟨rfl, rfl⟩, moves_update (.sends first rest _ batch), fun captured member => ?_⟩
      obtain earlier | new := List.mem_append.mp member
      · exact .inl earlier
      · obtain ⟨event, -, rfl⟩ := Option.map_eq_some_iff.mp (Option.mem_toList.mp new)
        exact .inr (.inr ⟨device, first, rest, rfl, batch, rfl⟩)

end Steps

section Settling
variable {wanted : Bool} {reader reader' : Reader} {s t : Capturing Device} {label : Label Device} {device : Device}
  {origin : Option Device}

def Grabs (wanted : Bool) (reader : Reader) : Prop := reader.grabbed = wanted

theorem Grabs.moves (grabs : Grabs wanted reader) (moves : Moves wanted reader reader') : Grabs wanted reader' := by
  cases moves with
  | looks done => exact (if_neg fun other => other.1 grabs.symm).trans grabs
  | rests | reports | fetches | looksAgain | sends => exact grabs

/-- And has since what it has not fetched yet. -/
structure Reads (wanted : Bool) (reader : Reader) : Prop where
  grabs : Grabs wanted reader
  unread : ∀ report ∈ reader.unread, report.withheld = wanted

theorem Reads.moves (reads : Reads wanted reader) (moves : Moves wanted reader reader') : Reads wanted reader' := by
  refine ⟨reads.grabs.moves moves, ?_⟩
  cases moves with
  | reports raw =>
    intro report member
    obtain earlier | new := List.mem_append.mp member
    · exact reads.unread report earlier
    · obtain rfl := List.mem_singleton.mp new
      exact reads.grabs
  | fetches => exact nofun
  | rests | looks | looksAgain | sends => exact reads.unread

/-- And since what it is still sending. -/
structure Sends (wanted : Bool) (reader : Reader) : Prop extends Reads wanted reader where
  batch : ∀ batch, reader.phase = .sending batch → ∀ report ∈ batch, report.withheld = wanted

theorem Sends.moves (sends : Sends wanted reader) (moves : Moves wanted reader reader') : Sends wanted reader' := by
  refine ⟨sends.toReads.moves moves, ?_⟩
  cases moves with
  | fetches =>
    intro batch sending
    cases sending
    exact sends.unread
  | looks done | looksAgain => exact nofun
  | sends first rest pending batch =>
    intro batch' sending
    cases sending
    exact fun report member => sends.batch _ batch report (List.mem_cons_of_mem first member)
  | rests | reports => exact sends.batch

structure Told (wanted : Bool) (s : Capturing Device) : Prop where
  suppressed : s.suppressed = wanted
  flag : s.flag = wanted

omit [DecidableEq Device] in
theorem Told.step (told : Told wanted s) (steady : s.daemon.suppress = wanted) (effect : Effect s t) :
    Told wanted t := by
  obtain ⟨suppressed, flag⟩ := told
  rcases effect.told with ⟨same, same'⟩ | ⟨looked, looked'⟩
  · exact ⟨same.trans suppressed, same'.trans flag⟩
  · refine ⟨looked.trans steady, looked'.trans ?_⟩
    rw [if_neg (not_not.mpr (steady.trans suppressed.symm))]
    exact flag

/-- Told, and this of a reader, which it then keeps to. -/
def Stage (wanted : Bool) (device : Device) (P : Bool → Reader → Prop) (s : Capturing Device) : Prop :=
  Told wanted s ∧ P wanted (s.readers device)

theorem Stage.step {P : Bool → Reader → Prop} (stage : Stage wanted device P s)
    (keeps : ∀ {reader reader'}, P wanted reader → Moves wanted reader reader' → P wanted reader')
    (stepped : guarded Step (Steady wanted) s label t) : Stage wanted device P t := by
  have effect := step_effect stepped.2
  have moves := effect.reader device
  rw [stage.1.flag] at moves
  exact ⟨stage.1.step stepped.1 effect, keeps stage.2 moves⟩

/-- Nothing of this origin is captured or queued in any other way than the daemon wants it. -/
structure Settled (wanted : Bool) (origin : Option Device) (s : Capturing Device) : Prop where
  told : Told wanted s
  reader : ∀ device, origin = some device → Sends wanted (s.readers device)
  queue : ∀ captured ∈ s.queue, captured.origin = origin → captured.withheld = wanted

theorem Settled.step (settled : Settled wanted origin s) (stepped : guarded Step (Steady wanted) s label t) :
    Settled wanted origin t := by
  have effect := step_effect stepped.2
  refine ⟨settled.told.step stepped.1 effect, fun device same => ?_, fun captured member same => ?_⟩
  · have moves := effect.reader device
    rw [settled.told.flag] at moves
    exact (settled.reader device same).moves moves
  · obtain earlier | ⟨-, withheld⟩ | ⟨device, first, rest, from', batch, withheld⟩ := effect.queued captured member
    · exact settled.queue captured earlier same
    · exact withheld.trans settled.told.flag
    · have sends := settled.reader device (same.symm.trans from')
      exact withheld.trans (sends.batch _ batch first (List.mem_cons_self ..))

/-- What every state has of a run from the start: the source was told what the thread thinks it was. -/
structure Ready (s : Capturing Device) : Prop where
  inStep : s.flag = s.suppressed
  sound : s.daemon.Sound

theorem Ready.step (ready : Ready s) (stepped : Step s label t) : Ready t := by
  have effect := step_effect stepped
  constructor
  · rcases effect.told with ⟨same, same'⟩ | ⟨looked, looked'⟩
    · rw [same, same', ready.inStep]
    · rw [looked, looked', ready.inStep]
      split
      · rfl
      · rename_i same
        exact (not_not.mp same).symm
  · rcases effect.daemon with same | ⟨op, step⟩
    · rw [same]
      exact ready.sound
    · exact step.sound ready.sound

theorem told_of_apply (ready : Ready s) (stepped : guarded Step (Steady wanted) s .apply t) : Told wanted t := by
  obtain ⟨steady, applied⟩ := stepped
  obtain ⟨-, rfl⟩ := step_apply.mp applied
  refine ⟨steady, ?_⟩
  dsimp only
  split
  · exact steady
  · rename_i same
    rw [ready.inStep, ← not_not.mp same]
    exact steady

theorem settled_of_idle (told : Told wanted s)
    (reader : ∀ device, origin = some device → Sends wanted (s.readers device))
    (stepped : guarded Step (Steady wanted) s .idle t) : Settled wanted origin t := by
  obtain ⟨-, empty, rfl⟩ := step_idle.mp stepped.2
  refine ⟨⟨told.suppressed, told.flag⟩, reader, fun captured member => ?_⟩
  rw [show (_ : List _) = [] from empty] at member
  exact absurd member (List.not_mem_nil)

theorem looks (told : Told wanted s) (stepped : guarded Step (Steady wanted) s (.look device true) t) :
    Stage wanted device Grabs t := by
  obtain ⟨-, rfl⟩ := step_look.mp stepped.2
  refine ⟨⟨told.suppressed, told.flag⟩, ?_⟩
  rw [withReader_self, Grabs, told.flag]
  dsimp only
  split
  · rfl
  · rename_i same
    simpa [eq_comm] using same

theorem fetches (grabs : Stage wanted device Grabs s)
    (stepped : guarded Step (Steady wanted) s (.fetch device) t) : Stage wanted device Reads t := by
  obtain ⟨-, -, rfl⟩ := step_fetch.mp stepped.2
  refine ⟨⟨grabs.1.suppressed, grabs.1.flag⟩, ?_⟩
  rw [withReader_self]
  exact ⟨grabs.2, nofun⟩

theorem looksAgain (reads : Stage wanted device Reads s)
    (stepped : guarded Step (Steady wanted) s (.look device done) t) : Stage wanted device Sends t := by
  obtain ⟨told, kept⟩ := reads.step Reads.moves stepped
  obtain ⟨-, rfl⟩ := step_look.mp stepped.2
  rw [withReader_self] at kept
  refine ⟨told, ?_⟩
  rw [withReader_self]
  exact ⟨kept, nofun⟩

/-- Once the thread has applied what the daemon wants, the reader has looked, fetched and looked again,
and the thread has found the queue empty, what the reader captures is withheld as the daemon wants. -/
theorem settles (ready : Ready s) (run : Reaches (guarded Step (Steady wanted)) s labels t)
    (ladder : List.Sublist (rungs origin) labels) : Settled wanted origin t := by
  have lasts {s t : Capturing Device} {label} (told : Told wanted s)
      (stepped : guarded Step (Steady wanted) s label t) : Told wanted t :=
    told.step stepped.1 (step_effect stepped.2)
  cases origin with
  | none =>
    obtain ⟨u, later, told, ladder, run⟩ := run.climb (Q := Told wanted) ladder ready
      (fun ready stepped => ready.step stepped.2) lasts told_of_apply
    obtain ⟨v, later, settled, -, run⟩ := run.climb (Q := Settled wanted none) ladder told lasts Settled.step
      (fun told stepped => settled_of_idle told nofun stepped)
    exact run.invariant Settled.step settled
  | some device =>
    obtain ⟨u, later, told, ladder, run⟩ := run.climb (Q := Told wanted) ladder ready
      (fun ready stepped => ready.step stepped.2) lasts told_of_apply
    obtain ⟨v, later, grabs, ladder, run⟩ := run.climb (Q := Stage wanted device Grabs)
      ladder told lasts (fun stage => stage.step Grabs.moves) looks
    obtain ⟨w, later, reads, ladder, run⟩ := run.climb (Q := Stage wanted device Reads) ladder grabs
      (fun stage => stage.step Grabs.moves) (fun stage => stage.step Reads.moves) fetches
    obtain ⟨x, later, sends, ladder, run⟩ := run.climb (Q := Stage wanted device Sends) ladder reads
      (fun stage => stage.step Reads.moves) (fun stage => stage.step Sends.moves) looksAgain
    obtain ⟨y, later, settled, -, run⟩ := run.climb (Q := Settled wanted (some device)) ladder sends
      (fun stage => stage.step Sends.moves) Settled.step
      (fun sends stepped => settled_of_idle sends.1 (by rintro _ ⟨⟩; exact sends.2) stepped)
    exact run.invariant Settled.step settled

end Settling
end Capturing

namespace Capturing
variable {Device : Type} [DecidableEq Device]

/-- One mouse and keyboard, which runs off the right edge onto a peer. -/
def crossing : List (Label Unit) :=
  [.elsewhere (.dialled "desk" (.filled 2) ⟨7⟩ ⟨200, 100⟩ .done [machineIdOf (.filled 2)]),
    .look () true, .report () (.relativeAxis .relX 150), .report () .synchronization, .fetch (), .send (), .send (),
    .send (), .apply, .poll none]

def execute (wanted : Bool) (s : Capturing Device) (label : Label Device) : Option (Capturing Device) :=
  if s.daemon.suppress = wanted then s.step label else none

def released : Captured Unit := ⟨some (), .key ⟨4⟩ .release ⟨0⟩, true⟩

end Capturing
end Omnipresent
