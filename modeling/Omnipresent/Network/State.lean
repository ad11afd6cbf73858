import Omnipresent.Daemon.Messages
import Mathlib.Logic.Function.Basic

/-! Daemons that hold sessions with each other: each with its own state, and
between two of them a control stream in each direction, reliable and in order. -/
namespace Omnipresent
open Transition

structure Network where
  daemon : MachineId → Shared
  /-- Written to the stream from the first to the second and not read yet, oldest
  first. -/
  wire : MachineId → MachineId → List ControlMessage

inductive NetworkOp where
  | captured (machine : MachineId) (event : InputEvent) (os : Option (Int32 × Int32))
  /-- The task serving a peer takes what is queued and writes it to the stream. -/
  | written (sender receiver : MachineId) (count : Nat)
  | heartbeat (sender receiver : MachineId)
  | delivered (sender receiver : MachineId)
deriving DecidableEq

namespace Network

def withDaemon (n : Network) (machine : MachineId) (shared : Shared) : Network :=
  { n with daemon := Function.update n.daemon machine shared }

def withWire (n : Network) (sender receiver : MachineId) (messages : List ControlMessage) : Network :=
  { n with wire := Function.update n.wire sender (Function.update (n.wire sender) receiver messages) }

def link (n : Network) (machine peer : MachineId) : Option PeerLink :=
  (n.daemon machine).state.links.lookup peer

/-- What an operation leaves behind while the sessions last: a batch or a message
that would end one is not taken. -/
def run (n : Network) : NetworkOp → Option Network
  | .captured machine event os => do
    let shared ← (n.daemon machine).run (.captured event os)
    some (n.withDaemon machine shared)
  | .written sender receiver count => do
    let link ← n.link sender receiver
    let batch := coalesceMotion (link.commands.take count)
    let shared ← (n.daemon sender).run (.taken receiver count)
    if .disconnect ∈ batch then none
    else
      let messages := batch.filterMap (·.message link.session)
      some ((n.withDaemon sender shared).withWire sender receiver (n.wire sender receiver ++ messages))
  | .heartbeat sender receiver => do
    let link ← n.link sender receiver
    some (n.withWire sender receiver (n.wire sender receiver ++ [.heartbeat link.session]))
  | .delivered sender receiver =>
    match n.wire sender receiver with
    | [] | .disconnect _ :: _ => none
    | message :: rest => do
      let link ← n.link receiver sender
      let shared ← (n.daemon receiver).run (.signalled sender link.session message)
      some ((n.withDaemon receiver shared).withWire sender receiver rest)

def Step (n : Network) (op : NetworkOp) (m : Network) : Prop := n.run op = some m

theorem Step.of_run {n m : Network} (ran : n.run op = some m) : Step n op m := ran

/-- The hand-over words on their way from one machine to another: on the stream,
then still queued for it. -/
def flight (n : Network) (sender receiver : MachineId) : List Word :=
  (n.wire sender receiver).filterMap ControlMessage.word ++ (n.daemon sender).words receiver

def Quiet (n : Network) : Prop := ∀ a b, n.flight a b = []

def active (n : Network) (machine : MachineId) : ActiveTarget :=
  (n.daemon machine).state.sessions.active

/-- Where each machine's input goes and what is in flight between them. -/
def room (n : Network) : Room MachineId := ⟨fun machine => (n.active machine).peer, n.flight⟩

/-- The captured event takes its machine's cursor onto this machine's screen. -/
def Crosses (n : Network) (op : NetworkOp) (peer : MachineId) : Prop :=
  ∃ machine event os, op = .captured machine event os ∧ (n.daemon machine).Crosses event os peer

/-- A hand-over message is delivered, rather than a heartbeat. -/
def HandsOver (n : Network) (op : NetworkOp) : Prop :=
  ∃ sender receiver message rest, op = .delivered sender receiver ∧
    n.wire sender receiver = message :: rest ∧ message.word ≠ none

theorem HandsOver.of_head {n : Network} (head : ((n.wire a b).head?.bind ControlMessage.word).isSome = true) :
    n.HandsOver (.delivered a b) := by
  cases wire : n.wire a b with
  | nil => simp [wire] at head
  | cons message rest =>
    refine ⟨a, b, message, rest, rfl, wire, fun silent => ?_⟩
    simp [wire, silent] at head

/-- Daemons whose sessions are those of `linked`, both ends under one id, none of
them about to end. -/
structure Wired (linked : MachineId → MachineId → Prop) (n : Network) : Prop where
  reachable : ∀ a, Reachable (n.daemon a)
  own : ∀ a, (n.daemon a).localMachine = a
  linked : ∀ a b, b ∈ (n.daemon a).state.links ↔ linked a b
  session : ∀ a b, (n.link a b).map (·.session) = (n.link b a).map (·.session)
  wire : ∀ {a b message}, message ∈ n.wire a b →
    ∃ link, n.link a b = some link ∧ message.Within link.session
  endless : ∀ a b, .disconnect ∉ (n.daemon a).queued b

/-- Input is home everywhere, and no hand-over message is on its way. -/
structure Ready (linked : MachineId → MachineId → Prop) (n : Network) : Prop extends n.Wired linked where
  active : ∀ a, n.active a = .here
  quiet : n.Quiet

def desk : MachineId := machineIdOf (.filled 1)
def laptop : MachineId := machineIdOf (.filled 2)
def tablet : MachineId := machineIdOf (.filled 3)

theorem desk_ne_laptop : desk ≠ laptop := by decide

def seat (machine : MachineId) (history : List Op) : Shared :=
  let alone := Shared.start machine ⟨100, 100⟩ ⟨.missing, []⟩ none ∅ ∅
  (history.foldlM Shared.execute alone).getD alone

def assembled (history : MachineId → List Op) : Network := ⟨fun a => seat a (history a), fun _ _ => []⟩

theorem seat_reachable (machine : MachineId) (history : List Op) : Reachable (seat machine history) := by
  refine ⟨machine, ⟨100, 100⟩, ⟨.missing, []⟩, none, ∅, ∅, ?_⟩
  simp only [seat]
  generalize Shared.start machine ⟨100, 100⟩ ⟨.missing, []⟩ none ∅ ∅ = alone
  cases ran : history.foldlM Shared.execute alone with
  | none => exact ⟨[], .refl alone⟩
  | some s => exact ⟨history, .of_foldlM Step.of_execute ran⟩

/-- Linked to these machines under these sessions, with input home and nothing
queued. -/
def Seated (machine : MachineId) (peers : Finset MachineId) (session : MachineId → SessionId) (s : Shared) :
    Prop :=
  s.localMachine = machine ∧ s.state.sessions.active = .here ∧ s.state.links.keys = peers ∧
    ∀ p ∈ peers, (s.state.links.lookup p).map (fun link => (link.session, link.commands)) =
      some (session p, [])

instance (machine : MachineId) (peers : Finset MachineId) (session : MachineId → SessionId) (s : Shared) :
    Decidable (Seated machine peers session s) := inferInstanceAs (Decidable (_ ∧ _))

section
variable {machine : MachineId} {peers : Finset MachineId} {session : MachineId → SessionId} {s : Shared}

theorem Seated.entry (seated : Seated machine peers session s) (p : MachineId) :
    (s.state.links.lookup p).map (fun link => (link.session, link.commands)) =
      if p ∈ peers then some (session p, []) else none := by
  obtain ⟨_, _, keys, sessions⟩ := seated
  split
  · exact sessions p ‹_›
  · rename_i absent
    rw [← keys, Finmap.mem_keys] at absent
    rw [Finmap.lookup_eq_none.mpr absent, Option.map_none]

theorem Seated.entry_session (seated : Seated machine peers session s) (p : MachineId) :
    (s.state.links.lookup p).map (·.session) = if p ∈ peers then some (session p) else none := by
  have same := congrArg (Option.map Prod.fst) (seated.entry p)
  rw [Option.map_map] at same
  refine same.trans ?_
  split <;> rfl

theorem Seated.entry_queued (seated : Seated machine peers session s) (p : MachineId) : s.queued p = [] := by
  have same := congrArg (fun entry => (Option.map Prod.snd entry).getD []) (seated.entry p)
  simp only [Option.map_map] at same
  refine same.trans ?_
  split <;> rfl

end

/-- Daemons that came up linked in pairs are ready to hand the cursor over. -/
theorem assembled_ready {history : MachineId → List Op} {peers : MachineId → Finset MachineId}
    {session : MachineId → MachineId → SessionId} {linked : MachineId → MachineId → Prop}
    (seated : ∀ a, Seated a (peers a) (session a) (seat a (history a)))
    (peered : ∀ a b, b ∈ peers a ↔ linked a b) (symmetric : ∀ {a b}, linked a b → linked b a)
    (agreed : ∀ a b, session a b = session b a) : (assembled history).Ready linked := by
  constructor
  · constructor
    · exact fun a => seat_reachable a _
    · exact fun a => (seated a).1
    · intro a b
      rw [← peered, ← (seated a).2.2.1, Finmap.mem_keys]
      rfl
    · intro a b
      have both : b ∈ peers a ↔ a ∈ peers b := by
        rw [peered, peered]
        exact ⟨symmetric, symmetric⟩
      refine ((seated a).entry_session b).trans (Eq.trans ?_ ((seated b).entry_session a).symm)
      simp only [both, agreed a b]
    · intro a b message member
      exact absurd member List.not_mem_nil
    · intro a b member
      refine List.not_mem_nil (?_ : PeerCommand.disconnect ∈ [])
      rwa [← (seated a).entry_queued b]
  · exact fun a => (seated a).2.1
  · intro a b
    rw [flight, Shared.words, show ((assembled history).daemon a).queued b = [] from (seated a).entry_queued b]
    rfl

end Network
end Omnipresent
