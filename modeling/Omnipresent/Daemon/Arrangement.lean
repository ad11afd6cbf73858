import Omnipresent.Daemon.Desktop
import Omnipresent.Topology.Symmetry

/-! Where the peers are on the desktop: every one past its own edge, whichever order the
links were visited in, exactly as long as no two of them are put past one edge. -/
namespace Omnipresent
open Transition

theorem VirtualLayout.link_neighbor_cases {self : VirtualLayout}
    (found : (self.link a edge b).1.neighbor m e = some n) :
    (m = b ∧ e = edge.opposite ∧ n = a) ∨ (m = a ∧ e = edge ∧ n = b) ∨ self.neighbor m e = some n := by
  by_cases known : a ∈ self.screens ∧ b ∈ self.screens
  · rw [link_neighbor_eq known.1 known.2] at found
    split at found
    · exact .inl ⟨And.left ‹_›, And.right ‹_›, (Option.some.inj found).symm⟩
    · split at found
      · exact .inr (.inl ⟨And.left ‹_›, And.right ‹_›, (Option.some.inj found).symm⟩)
      · exact .inr (.inr found)
  · rw [link_eq_self known] at found
    exact .inr (.inr found)

namespace Shared
variable {s : Shared} {links : List (MachineId × PeerLink)}

/-- A link that goes by this machine's own name takes the opposite edge as well. -/
def Clear (s : Shared) (p : MachineId) (l : PeerLink) (m : PeerLink) : Prop :=
  l.edge ≠ m.edge ∧ (p = s.localMachine → m.edge ≠ l.edge.opposite)

/-- No two links want one edge of this machine. -/
def Apart (s : Shared) : Prop :=
  ∀ p q l m, s.state.links.lookup p = some l → s.state.links.lookup q = some m → p ≠ q → s.Clear p l m

/-- What a pass over the links puts on the desktop, starting from this machine alone. -/
def laidOut (s : Shared) (links : List (MachineId × PeerLink)) : VirtualLayout :=
  s.addLinks (VirtualLayout.new.addMachine ⟨s.localMachine, s.localScreen⟩).1 links

theorem laidOut_append (s : Shared) (links : List (MachineId × PeerLink)) (entry : MachineId × PeerLink) :
    s.laidOut (links ++ [entry]) =
      (((s.laidOut links).addMachine ⟨entry.1, entry.2.screen⟩).1.link s.localMachine entry.2.edge entry.1).1 := by
  rw [laidOut, addLinks, List.foldl_append]
  rfl

theorem laidOut_neighbor (found : (s.laidOut links).neighbor m e = some n) :
    ∃ entry ∈ links, (m = s.localMachine ∧ e = entry.2.edge ∧ n = entry.1) ∨
      (m = entry.1 ∧ e = entry.2.edge.opposite ∧ n = s.localMachine) := by
  induction links using List.reverseRecOn with
  | nil => simp [laidOut, addLinks] at found
  | append_singleton earlier entry ih =>
    rw [laidOut_append] at found
    rcases VirtualLayout.link_neighbor_cases found with back | across | old
    · exact ⟨entry, List.mem_append_right _ (List.mem_singleton_self _), .inr back⟩
    · exact ⟨entry, List.mem_append_right _ (List.mem_singleton_self _), .inl across⟩
    · rw [VirtualLayout.addMachine_neighbor] at old
      obtain ⟨before, listed, place⟩ := ih old
      exact ⟨before, List.mem_append_left _ listed, place⟩

theorem laidOut_reachable (unique : (links.map Prod.fst).Nodup)
    (clear : ∀ first ∈ links, ∀ second ∈ links, first.1 ≠ second.1 → s.Clear first.1 first.2 second.2)
    (listed : entry ∈ links) :
    (s.laidOut links).neighbor s.localMachine entry.2.edge = some entry.1 ∧
      (s.laidOut links).neighbor entry.1 entry.2.edge.opposite = some s.localMachine := by
  induction links using List.reverseRecOn with
  | nil => exact absurd listed List.not_mem_nil
  | append_singleton earlier last ih =>
    simp only [List.map_append, List.map_cons, List.map_nil] at unique
    obtain ⟨before, _, distinct⟩ := List.nodup_append.mp unique
    have lastListed : last ∈ earlier ++ [last] := List.mem_append_right _ (List.mem_singleton_self _)
    have own := (Covers.addLinks s before).own
    rw [← laidOut] at own
    rw [laidOut_append]
    have known : s.localMachine ∈ ((s.laidOut earlier).addMachine ⟨last.1, last.2.screen⟩).1.screens := by
      refine Finmap.mem_of_lookup_eq_some (?_ : _ = some s.localScreen)
      have shown := VirtualLayout.addMachine_screen (s.laidOut earlier) ⟨last.1, last.2.screen⟩ s.localMachine
      rw [own] at shown
      exact shown.trans (ite_self _)
    have known' : last.1 ∈ ((s.laidOut earlier).addMachine ⟨last.1, last.2.screen⟩).1.screens := by
      refine Finmap.mem_of_lookup_eq_some (?_ : _ = some (((s.laidOut earlier).screen last.1).getD last.2.screen))
      exact (VirtualLayout.addMachine_screen _ _ _).trans (if_pos rfl)
    simp only [VirtualLayout.link_neighbor_eq known known', VirtualLayout.addMachine_neighbor]
    simp only [List.mem_append, List.mem_singleton] at listed
    rcases listed with old | rfl
    · have apart : entry.1 ≠ last.1 := distinct _ (List.mem_map_of_mem old) _ (List.mem_singleton_self _)
      have mine := clear entry (List.mem_append_left _ old) last lastListed apart
      have theirs := clear last lastListed entry (List.mem_append_left _ old) apart.symm
      obtain ⟨across, back⟩ := ih before
        (fun first member second member' => clear first (List.mem_append_left _ member) second
          (List.mem_append_left _ member')) old
      have notBack : ¬ (s.localMachine = last.1 ∧ entry.2.edge = last.2.edge.opposite) :=
        fun ⟨same, edge⟩ => theirs.2 same.symm edge
      have notAcross : ¬ (True ∧ entry.2.edge = last.2.edge) := fun ⟨_, edge⟩ => mine.1 edge
      have notBack' : ¬ (entry.1 = last.1 ∧ entry.2.edge.opposite = last.2.edge.opposite) :=
        fun ⟨same, _⟩ => apart same
      have notAcross' : ¬ (entry.1 = s.localMachine ∧ entry.2.edge.opposite = last.2.edge) :=
        fun ⟨same, edge⟩ => mine.2 same edge.symm
      rw [if_neg notBack, if_neg notAcross, if_neg notBack', if_neg notAcross']
      exact ⟨across, back⟩
    · simp

theorem rebuildLayout_layout (s : Shared) (order : List MachineId) :
    (s.rebuildLayout order).state.layout = s.laidOut (s.state.links.iter order) := rfl

theorem layout_ext {one other : VirtualLayout} (screens : ∀ m, one.screen m = other.screen m)
    (neighbors : ∀ m e n, one.neighbor m e = some n ↔ other.neighbor m e = some n) : one = other := by
  obtain ⟨screens₁, links₁⟩ := one
  obtain ⟨screens₂, links₂⟩ := other
  obtain rfl : screens₁ = screens₂ := Finmap.ext_lookup screens
  obtain rfl : links₁ = links₂ := Finmap.ext_lookup fun (m, e) => Option.ext (neighbors m e)
  rfl

theorem Apart.reachable (apart : s.Apart) (ordered : HashMap.Order order s.state.links)
    (linked : s.state.links.lookup peer = some link) :
    (s.rebuildLayout order).state.layout.neighbor s.localMachine link.edge = some peer ∧
      (s.rebuildLayout order).state.layout.neighbor peer link.edge.opposite = some s.localMachine := by
  have clear : ∀ first ∈ s.state.links.iter order, ∀ second ∈ s.state.links.iter order,
      first.1 ≠ second.1 → s.Clear first.1 first.2 second.2 := fun first listed second listed' =>
    apart _ _ _ _ (ordered.mem_iter.mp listed) (ordered.mem_iter.mp listed')
  rw [rebuildLayout_layout]
  exact laidOut_reachable ordered.nodup_iter clear (ordered.mem_iter.mpr linked)

theorem Apart.neighbor (apart : s.Apart) (ordered : HashMap.Order order s.state.links)
    (ordered' : HashMap.Order order' s.state.links)
    (found : (s.rebuildLayout order).state.layout.neighbor m e = some n) :
    (s.rebuildLayout order').state.layout.neighbor m e = some n := by
  rw [rebuildLayout_layout] at found
  obtain ⟨⟨peer, link⟩, listed, ⟨rfl, rfl, rfl⟩ | ⟨rfl, rfl, rfl⟩⟩ := laidOut_neighbor found
  · exact (apart.reachable ordered' (ordered.mem_iter.mp listed)).1
  · exact (apart.reachable ordered' (ordered.mem_iter.mp listed)).2

/-- The desktop is the same whatever order the links are visited in, and every peer is
past its edge with this machine past the opposite one, exactly where no two links
want one edge. -/
theorem peers_reachable (s : Shared) :
    (∀ order, HashMap.Order order s.state.links →
      (∀ order', HashMap.Order order' s.state.links →
        (s.rebuildLayout order).state.layout = (s.rebuildLayout order').state.layout) ∧
      ∀ peer link, s.state.links.lookup peer = some link →
        (s.rebuildLayout order).state.layout.neighbor s.localMachine link.edge = some peer ∧
          (s.rebuildLayout order).state.layout.neighbor peer link.edge.opposite = some s.localMachine) ↔
      s.Apart := by
  constructor
  · intro settled p q l m linked linked' different
    obtain ⟨order, ordered⟩ : ∃ order, HashMap.Order order s.state.links :=
      ⟨_, (HashMap.exists_order_cons (Finmap.mem_of_lookup_eq_some linked)).choose_spec⟩
    obtain ⟨across, back⟩ := (settled _ ordered).2 p l linked
    obtain ⟨across', _⟩ := (settled _ ordered).2 q m linked'
    constructor
    · intro same
      rw [same] at across
      exact different (Option.some.inj (across.symm.trans across'))
    · intro own same
      rw [own, ← same] at back
      exact different (own.trans (Option.some.inj (back.symm.trans across')))
  · intro apart order ordered
    refine ⟨fun order' ordered' => layout_ext (fun m => ?_) fun m e n => ⟨?_, ?_⟩, fun peer link =>
      apart.reachable ordered⟩
    · exact ((rebuildLayout_laidOut ordered).screens m).trans ((rebuildLayout_laidOut ordered').screens m).symm
    · exact apart.neighbor ordered ordered'
    · exact apart.neighbor ordered' ordered

/-- Two machines dialled one after the other are both put past the right edge; which of
them is there is a matter of the order, and the other is nowhere past it. -/
theorem dialled_crowded : ∃ s : Shared,
    (∃ ops, Reaches Step (.start ⟨1⟩ ⟨1920, 1080⟩ ⟨.missing, []⟩ none ∅ ∅) ops s) ∧
    ∃ order order' peer link, HashMap.Order order s.state.links ∧ HashMap.Order order' s.state.links ∧
      s.state.links.lookup peer = some link ∧
      (s.rebuildLayout order).state.layout ≠ (s.rebuildLayout order').state.layout ∧
      (s.rebuildLayout order).state.layout.neighbor s.localMachine link.edge ≠ some peer := by
  let desk := machineIdOf (.filled 2)
  let sofa := machineIdOf (.filled 3)
  obtain ⟨s, run, tested⟩ := Reaches.of_any Step.of_execute
    (show ([.dialled "desk" (.filled 2) ⟨7⟩ ⟨3840, 2160⟩ .done [desk],
        .dialled "sofa" (.filled 3) ⟨8⟩ ⟨1280, 800⟩ .done [desk, sofa]].foldlM
          Shared.execute (.start ⟨1⟩ ⟨1920, 1080⟩ ⟨.missing, []⟩ none ∅ ∅)).any
      (fun s => HashMap.Order [desk, sofa] s.state.links ∧ HashMap.Order [sofa, desk] s.state.links ∧
        (s.state.links.lookup desk).map (·.edge) = some .right ∧
        (s.rebuildLayout [desk, sofa]).state.layout.neighbor s.localMachine .right = some sofa ∧
        (s.rebuildLayout [sofa, desk]).state.layout.neighbor s.localMachine .right = some desk) = true by
          decide +kernel)
  obtain ⟨ordered, ordered', edge, first, second⟩ := of_decide_eq_true tested
  obtain ⟨link, linked, right⟩ := Option.map_eq_some_iff.mp edge
  have other : (some sofa : Option MachineId) ≠ some desk := by decide
  refine ⟨s, ⟨_, run⟩, _, _, desk, link, ordered, ordered', linked, fun same => ?_, ?_⟩
  · rw [same, second] at first
    exact other first.symm
  · rw [right, first]
    exact other

end Shared
end Omnipresent
