import Omnipresent.Daemon.Reachable
import Omnipresent.Trust.Records

/-! Removing a peer's trust against dropping its session: the trust store forgets
every record the selector names, the daemon disconnects the first link it names,
and the two are not the same machines. -/
namespace Omnipresent
open Transition

def LosesTrust (peers : List PeerRecord) (selector : String) (fingerprint : Fingerprint) : Prop :=
  isTrusted peers fingerprint = true ∧ isTrusted (removeRecords peers selector) fingerprint = false

namespace Shared
variable {s : Shared}

theorem send_lookup (s : Shared) (machine : MachineId) (command : PeerCommand) (m : MachineId) :
    (s.send machine command).state.links.lookup m =
      if m = machine then (s.state.links.lookup m).map (·.send command) else s.state.links.lookup m :=
  HashMap.lookup_modify ..

theorem removePeer_trust (s : Shared) (selector : String) (order : List MachineId) (write : Write) :
    (s.removePeer selector order write).1.trust.peers = removeRecords s.trust.peers selector := by
  unfold removePeer
  split <;> exact TrustState.remove_peers _ write selector

theorem removePeer_lookup (s : Shared) (selector : String) (order : List MachineId) (write : Write)
    (m : MachineId) : (s.removePeer selector order write).1.state.links.lookup m =
      if s.findLink selector order = some m then (s.state.links.lookup m).map (·.send .disconnect)
      else s.state.links.lookup m := by
  rw [removePeer]
  cases found : s.findLink selector order with
  | none => rfl
  | some machine =>
    refine (send_lookup s machine .disconnect m).trans ?_
    simp only [Option.some.injEq, eq_comm]

theorem findLink_selected (ordered : HashMap.Order order s.state.links)
    (found : s.findLink selector order = some machine) :
    ∃ link, s.state.links.lookup machine = some link ∧ link.selected selector = true := by
  obtain ⟨⟨m, link⟩, entry, rfl⟩ := Option.map_eq_some_iff.mp found
  exact ⟨link, ordered.mem_iter.mp (List.mem_of_find?_eq_some entry), by simpa using List.find?_some entry⟩

theorem findLink_isSome (ordered : HashMap.Order order s.state.links)
    (stored : s.state.links.lookup machine = some link) (selected : link.selected selector = true) :
    ∃ m, s.findLink selector order = some m := by
  have present : ((s.state.links.iter order).find? fun entry => entry.2.selected selector).isSome := by
    rw [List.find?_isSome]
    exact ⟨(machine, link), ordered.mem_iter.mpr stored, selected⟩
  obtain ⟨entry, found⟩ := Option.isSome_iff_exists.mp present
  exact ⟨entry.1, Option.map_eq_some_iff.mpr ⟨entry, found, rfl⟩⟩

/-- Any link the selector names may be the first one of a pass. -/
theorem exists_findLink (stored : s.state.links.lookup machine = some link)
    (selected : link.selected selector = true) :
    ∃ order, HashMap.Order order s.state.links ∧ s.findLink selector order = some machine := by
  obtain ⟨rest, ordered⟩ := HashMap.exists_order_cons (Finmap.mem_of_lookup_eq_some stored)
  refine ⟨machine :: rest, ordered, ?_⟩
  have first : s.state.links.iter (machine :: rest) = (machine, link) :: s.state.links.iter rest := by
    simp [HashMap.iter, stored]
  simp [findLink, first, selected]

/-- Every live link that was trusted and no longer is has been told to close. -/
def Dropped (s t : Shared) : Prop :=
  ∀ machine link, s.state.links.lookup machine = some link →
    s.trust.isTrusted link.fingerprint = true → t.trust.isTrusted link.fingerprint = false →
    ∃ link', t.state.links.lookup machine = some link' ∧ .disconnect ∈ link'.commands

/-- In whatever order the links are visited, no session survives the removal
exactly when each link that loses trust, and is not closing already, is the one
link the selector names. -/
theorem removePeer_dropped (s : Shared) (selector : String) (write : Write) :
    (∀ order, HashMap.Order order s.state.links → s.Dropped (s.removePeer selector order write).1) ↔
    ∀ machine link, s.state.links.lookup machine = some link →
      LosesTrust s.trust.peers selector link.fingerprint → .disconnect ∉ link.commands →
      link.selected selector = true ∧ ∀ other link', s.state.links.lookup other = some link' →
        link'.selected selector = true → other = machine := by
  have trust : ∀ order fingerprint, (s.removePeer selector order write).1.trust.isTrusted fingerprint =
      isTrusted (removeRecords s.trust.peers selector) fingerprint := by
    intro order fingerprint
    rw [TrustState.isTrusted, removePeer_trust]
  constructor
  · intro dropped machine link stored ⟨before, after⟩ open'
    -- Told to close only where the pass finds this link first.
    have first : ∀ order, HashMap.Order order s.state.links →
        s.findLink selector order = some machine := by
      intro order ordered
      obtain ⟨link', kept, closing⟩ := dropped order ordered machine link stored before (by rwa [trust])
      rw [removePeer_lookup, stored] at kept
      split at kept
      · assumption
      · cases kept
        exact absurd closing open'
    obtain ⟨rest, ordered⟩ := HashMap.exists_order_cons (Finmap.mem_of_lookup_eq_some stored)
    obtain ⟨link', found, selected⟩ := findLink_selected ordered (first _ ordered)
    obtain rfl : link = link' := Option.some.inj (stored.symm.trans found)
    refine ⟨selected, fun other link' present named => ?_⟩
    obtain ⟨order, ordered, found⟩ := exists_findLink present named
    exact Option.some.inj (found.symm.trans (first order ordered))
  · intro only order ordered machine link stored before after
    rw [trust] at after
    rw [removePeer_lookup, stored]
    by_cases closing : .disconnect ∈ link.commands
    · split
      · exact ⟨_, rfl, List.mem_append_left _ closing⟩
      · exact ⟨link, rfl, closing⟩
    · obtain ⟨selected, unique⟩ := only machine link stored ⟨before, after⟩ closing
      obtain ⟨m, found⟩ := findLink_isSome ordered stored selected
      obtain ⟨link', present, named⟩ := findLink_selected ordered found
      obtain rfl := unique m link' present named
      rw [if_pos found]
      exact ⟨_, rfl, List.mem_append_right _ (List.mem_singleton_self _)⟩

/-- A peer dialled as "desk" before has dialled in, so its link is under its
address. Removing "desk" forgets its fingerprint and leaves the session. -/
theorem removePeer_survives : ¬ ∀ (s : Shared) (selector : String) (order : List MachineId) (write : Write),
    Reachable s → HashMap.Order order s.state.links → s.Dropped (s.removePeer selector order write).1 := by
  intro claimed
  obtain ⟨s, run, tested⟩ := Reaches.of_any Step.of_execute
    (show ([.incoming "10.0.0.5" (.filled 2) ⟨7⟩ ⟨200, 100⟩ [machineIdOf (.filled 2)]].foldlM execute
        (start ⟨1⟩ ⟨100, 100⟩ ⟨.missing, [⟨some "desk", fingerprintHex (.filled 2)⟩]⟩ none ∅ ∅)).any
      (fun s => HashMap.Order [machineIdOf (.filled 2)] s.state.links ∧
        s.trust.isTrusted (.filled 2) = true ∧
        (s.removePeer "desk" [machineIdOf (.filled 2)] .done).1.trust.isTrusted (.filled 2) = false ∧
        (s.state.links.lookup (machineIdOf (.filled 2))).map (·.fingerprint) = some (.filled 2) ∧
        ((s.removePeer "desk" [machineIdOf (.filled 2)] .done).1.state.links.lookup
          (machineIdOf (.filled 2))).map (·.commands) = some []) = true by decide +kernel)
  obtain ⟨ordered, before, after, live, quiet⟩ := of_decide_eq_true tested
  obtain ⟨link, stored, same⟩ := Option.map_eq_some_iff.mp live
  obtain ⟨link', kept, closing⟩ := claimed s "desk" _ .done ⟨_, _, _, _, _, _, _, run⟩ ordered _ link stored
    ((congrArg _ same).trans before) ((congrArg _ same).trans after)
  rw [kept, Option.map_some, Option.some.injEq] at quiet
  simp [quiet] at closing

end Shared
end Omnipresent
