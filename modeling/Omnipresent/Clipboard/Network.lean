import Omnipresent.Clipboard.Echo

/-! Any number of machines sharing their clipboards, along sessions that come and go:
polls and remote updates run on their own, and payloads arrive in any order. -/
namespace Omnipresent
open Transition

/-- The machines, who has a session with whom, and the payloads on their way. -/
structure ClipboardNetwork (ι : Type) where
  managers : ι → ClipboardManager
  links : ι → List ι
  inFlight : List (ι × ClipboardData)
  /-- How often each machine's polls have returned a copy to send. -/
  broadcasts : ι → Nat
  copies : ι → Nat

inductive NetworkClipboardOp (ι : Type) where
  | copy (machine : ι) (content : Option ClipboardData)
  | poll (machine : ι) (os : ClipboardManager.OsAnswer)
  | deliver (payload : Nat) (os : ClipboardManager.OsAnswer)
  | lose (payload : Nat)
  /-- Sessions come and go. -/
  | relink (links : ι → List ι)

namespace ClipboardNetwork
variable {ι : Type} [DecidableEq ι] {s t : ClipboardNetwork ι}

def start (initial : ι → Option ClipboardData) (links : ι → List ι) (inFlight : List (ι × ClipboardData)) :
    ClipboardNetwork ι where
  managers machine := .new (.holding (initial machine)) true
  links
  inFlight
  broadcasts _ := 0
  copies _ := 0

def withManager (self : ClipboardNetwork ι) (machine : ι) (manager : ClipboardManager) : ClipboardNetwork ι :=
  { self with managers := Function.update self.managers machine manager }

def broadcastLocalClipboard (self : ClipboardNetwork ι) (machine : ι) (os : ClipboardManager.OsAnswer) :
    ClipboardNetwork ι :=
  let (manager, answer) := (self.managers machine).pollLocalChange os
  let polled := self.withManager machine manager
  match answer with
  | .ok (some data) =>
    { polled with
      inFlight := self.inFlight ++ (self.links machine).map fun peer => (peer, data)
      broadcasts := Function.update self.broadcasts machine (self.broadcasts machine + 1) }
  | _ => polled

def run (self : ClipboardNetwork ι) : NetworkClipboardOp ι → Option (ClipboardNetwork ι)
  | .copy machine content =>
    some { self.withManager machine ((self.managers machine).userCopy content) with
      copies := Function.update self.copies machine (self.copies machine + 1) }
  | .poll machine os => some (self.broadcastLocalClipboard machine os)
  | .deliver payload os => self.inFlight[payload]?.map fun (machine, data) =>
    { self.withManager machine ((self.managers machine).handleRemoteUpdate data os).1 with
      inFlight := self.inFlight.eraseIdx payload }
  | .lose payload => some { self with inFlight := self.inFlight.eraseIdx payload }
  | .relink links => some { self with links }

end ClipboardNetwork

def NetworkClipboardStep {ι : Type} [DecidableEq ι] (s : ClipboardNetwork ι) (op : NetworkClipboardOp ι)
    (t : ClipboardNetwork ι) : Prop :=
  s.run op = some t

theorem NetworkClipboardStep.of_run {ι : Type} [DecidableEq ι] {s t : ClipboardNetwork ι}
    {op : NetworkClipboardOp ι} (ran : s.run op = some t) : NetworkClipboardStep s op t := ran

namespace ClipboardManager
variable {manager : ClipboardManager}

/-- The next poll has nothing to announce. -/
def Caught (self : ClipboardManager) : Prop :=
  self.port.read = none ∨ self.lastSynced = self.port.read

/-- Sharing is on, received content was recorded, and every broadcast is paid for by a
copy or by what was there at first; when none is left, there is nothing to announce. -/
structure Paid (manager : ClipboardManager) (broadcasts copies : Nat) : Prop where
  on : manager.enabled = true
  received : ∀ {content}, manager.port.puts.getLast? = some ⟨content, false⟩ → manager.lastSynced = content
  budget : broadcasts ≤ copies ∨ broadcasts = 1 + copies ∧ manager.Caught

theorem Paid.copy (paid : manager.Paid broadcasts copies) (content : Option ClipboardData) :
    (manager.userCopy content).Paid broadcasts (copies + 1) where
  on := paid.on
  received last := by simp [userCopy, OsClipboard.copy] at last
  budget := .inl (by rcases paid.budget with within | ⟨spent, _⟩ <;> omega)

theorem Paid.caught (on : manager.enabled = true) (caught : manager.Caught)
    (received : ∀ {content}, manager.port.puts.getLast? = some ⟨content, false⟩ → manager.lastSynced = content)
    (within : broadcasts ≤ 1 + copies) : manager.Paid broadcasts copies where
  on := on
  received := received
  budget := by
    rcases Nat.lt_or_eq_of_le within with less | spent
    · exact .inl (by omega)
    · exact .inr ⟨spent, caught⟩

theorem Paid.within (paid : manager.Paid broadcasts copies) : broadcasts ≤ 1 + copies := by
  rcases paid.budget with within | ⟨spent, _⟩ <;> omega

theorem compare_caught (manager : ClipboardManager) : (manager.compare manager.port.read).1.Caught := by
  rw [Caught]
  rw [compare_port]
  cases manager.port.read with
  | none => exact .inl rfl
  | some data => exact .inr (compare_lastSynced manager data)

theorem Paid.compare (paid : manager.Paid broadcasts copies) (within : broadcasts' ≤ 1 + copies) :
    (manager.compare manager.port.read).1.Paid broadcasts' copies := by
  refine .caught ((compare_enabled _ _).trans paid.on) (compare_caught manager) ?_ within
  intro content last
  rw [compare_port] at last
  have read : manager.port.read = content := by rw [OsClipboard.read, last, Option.bind_some]
  rw [read]
  cases content with
  | none => exact paid.received last
  | some data => exact compare_lastSynced manager data

theorem Paid.poll (paid : manager.Paid broadcasts copies) (os : OsAnswer) :
    (∃ data, (manager.pollLocalChange os).2 = .ok (some data) ∧
      manager.port.puts.getLast? = some ⟨some data, true⟩ ∧
      (manager.pollLocalChange os).1.Paid (broadcasts + 1) copies) ∨
    (∀ data, (manager.pollLocalChange os).2 ≠ .ok (some data)) ∧
      (manager.pollLocalChange os).1.Paid broadcasts copies := by
  unfold pollLocalChange
  rw [if_neg (by rw [paid.on]; decide)]
  cases os with
  | some message => exact .inr ⟨(fun _ wrong => by cases wrong), paid⟩
  | none =>
    dsimp only
    cases answer : (manager.compare manager.port.read).2 with
    | none => exact .inr ⟨(fun _ wrong => by cases wrong), paid.compare paid.within⟩
    | some data =>
      obtain ⟨read, distinct, _⟩ := compare_answer.mp answer
      left
      obtain ⟨⟨_, byUser⟩, last, rfl⟩ := Option.bind_eq_some_iff.mp read
      refine ⟨data, rfl, ?_, paid.compare ?_⟩
      · cases byUser with
        | true => exact last
        | false => exact absurd (paid.received last) distinct
      · rcases paid.budget with within | ⟨_, nothing | same⟩
        · omega
        · cases nothing.symm.trans read
        · exact absurd (same.trans read) distinct

theorem Paid.update (paid : manager.Paid broadcasts copies) (data : ClipboardData) (os : OsAnswer) :
    (manager.handleRemoteUpdate data os).1.Paid broadcasts copies := by
  unfold handleRemoteUpdate
  rw [if_neg (by rw [paid.on]; decide)]
  cases data.validate with
  | error e => exact paid
  | ok =>
    cases os with
    | some message => exact paid
    | none =>
      refine .caught paid.on (.inr (OsClipboard.read_write _ _).symm) ?_ paid.within
      intro content last
      simpa [writePort, record, OsClipboard.write] using last

end ClipboardManager

namespace ClipboardNetwork
variable {ι : Type} [DecidableEq ι] {s t : ClipboardNetwork ι}

def Paid (s : ClipboardNetwork ι) : Prop := ∀ m, (s.managers m).Paid (s.broadcasts m) (s.copies m)

omit [DecidableEq ι] in
theorem start_paid (initial : ι → Option ClipboardData) (links : ι → List ι) (inFlight : List (ι × ClipboardData)) :
    (start initial links inFlight).Paid := by
  intro m
  refine ⟨rfl, fun last => ?_, .inl (Nat.zero_le _)⟩
  cases last

theorem Paid.change (paid : s.Paid) (kept : manager.Paid sendings makings)
    (managers : t.managers = Function.update s.managers machine manager)
    (sent : t.broadcasts = Function.update s.broadcasts machine sendings)
    (copied : t.copies = Function.update s.copies machine makings) : t.Paid := by
  intro m
  rcases eq_or_ne m machine with rfl | other
  · simpa only [managers, sent, copied, Function.update_self] using kept
  · simpa only [managers, sent, copied, Function.update_of_ne other] using paid m

theorem Paid.withManager (paid : s.Paid) (kept : manager.Paid (s.broadcasts machine) (s.copies machine)) :
    (s.withManager machine manager).Paid :=
  paid.change kept rfl (Function.update_eq_self ..).symm (Function.update_eq_self ..).symm

/-- A step that sends nothing, or what one machine's user copied last. -/
def Announces (s t : ClipboardNetwork ι) : Prop :=
  t.broadcasts = s.broadcasts ∧ t.inFlight.Sublist s.inFlight ∨ ∃ machine data,
    (s.managers machine).port.puts.getLast? = some ⟨some data, true⟩ ∧
      t.broadcasts = Function.update s.broadcasts machine (s.broadcasts machine + 1) ∧
      t.inFlight = s.inFlight ++ (s.links machine).map fun peer => (peer, data)

theorem Paid.broadcastLocalClipboard (paid : s.Paid) (machine : ι) (os : ClipboardManager.OsAnswer) :
    (s.broadcastLocalClipboard machine os).Paid ∧ s.Announces (s.broadcastLocalClipboard machine os) := by
  rw [ClipboardNetwork.broadcastLocalClipboard]
  rcases (paid machine).poll os with ⟨data, answer, newest, kept⟩ | ⟨none, kept⟩
  · simp only [answer]
    exact ⟨paid.change kept rfl rfl (Function.update_eq_self ..).symm, .inr ⟨machine, data, newest, rfl, rfl⟩⟩
  · dsimp only
    split
    · exact absurd ‹_› (none _)
    · exact ⟨paid.withManager kept, .inl ⟨rfl, .refl _⟩⟩

theorem Paid.step (paid : s.Paid) (step : NetworkClipboardStep s op t) : t.Paid ∧ s.Announces t := by
  cases op with
  | copy machine content =>
    cases step
    have kept := (paid machine).copy content
    exact ⟨paid.change kept rfl (Function.update_eq_self ..).symm rfl, .inl ⟨rfl, .refl _⟩⟩
  | poll machine os =>
    cases step
    exact paid.broadcastLocalClipboard machine os
  | deliver payload os =>
    obtain ⟨⟨machine, data⟩, _, rfl⟩ := Option.map_eq_some_iff.mp step
    exact ⟨paid.withManager ((paid machine).update data os), .inl ⟨rfl, List.eraseIdx_sublist _ _⟩⟩
  | lose payload =>
    cases step
    exact ⟨paid, .inl ⟨rfl, List.eraseIdx_sublist _ _⟩⟩
  | relink links =>
    cases step
    exact ⟨paid, .inl ⟨rfl, .refl _⟩⟩

end ClipboardNetwork

/-- No machine announces more than what it held at first and what its user copied
since, and nothing it received. -/
theorem broadcasts_paid {ι : Type} [DecidableEq ι] {initial : ι → Option ClipboardData} {links : ι → List ι}
    {inFlight : List (ι × ClipboardData)} {ops : List (NetworkClipboardOp ι)} {s : ClipboardNetwork ι}
    (run : Reaches NetworkClipboardStep (.start initial links inFlight) ops s) :
    (∀ machine, s.broadcasts machine ≤ 1 + s.copies machine) ∧
      ∀ {op t}, NetworkClipboardStep s op t → s.Announces t := by
  have paid : s.Paid :=
    run.invariant (fun paid step => (paid.step step).1) (ClipboardNetwork.start_paid initial links inFlight)
  exact ⟨fun machine => (paid machine).within, fun step => (paid.step step).2⟩

/-- Two machines pass one copy on, and it stays where it arrived. -/
theorem broadcasts_paid_passed_on : ∃ s : ClipboardNetwork Bool,
    s.broadcasts true = 1 ∧ s.copies true = 1 ∧ (s.managers false).lastSynced = some (.text "copied") ∧
      (∀ machine, s.broadcasts machine ≤ 1 + s.copies machine) ∧
      ∀ {op t}, NetworkClipboardStep s op t → s.Announces t := by
  obtain ⟨s, run, tested⟩ := Reaches.of_any NetworkClipboardStep.of_run
    (show ([.copy true (some (.text "copied")), .poll true none, .deliver 0 none, .poll false none].foldlM
        ClipboardNetwork.run (.start (fun _ => none) (fun machine => [!machine]) [])).any
      (fun s => s.broadcasts true = 1 ∧ s.copies true = 1 ∧
        (s.managers false).lastSynced = some (.text "copied")) = true by decide +kernel)
  obtain ⟨broadcast, copied, arrived⟩ := of_decide_eq_true tested
  exact ⟨s, broadcast, copied, arrived, broadcasts_paid run⟩

end Omnipresent
