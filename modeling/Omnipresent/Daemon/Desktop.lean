import Omnipresent.Daemon.Step

/-! The virtual desktop a daemon rebuilds is the one its links describe, and most
operations leave desktop, cursor, sessions and suppression alone. -/
namespace Omnipresent

/-- What the rest of the daemon knows a link by. -/
def PeerLink.identity (self : PeerLink) : SessionId × Screen := (self.session, self.screen)

namespace Shared

/-- The screen of a machine: this one's own, a peer's as it announced it. -/
def screenOf (self : Shared) (machine : MachineId) : Option Screen :=
  if machine = self.localMachine then some self.localScreen
  else (self.state.links.lookup machine).map (·.screen)

/-- The desktop shows this machine and the linked ones; every edge of a peer leads
back here, and every edge of this machine to a linked one. -/
structure LaidOut (s : Shared) : Prop where
  screens : ∀ machine, s.state.layout.screen machine = s.screenOf machine
  homeward : ∀ {machine edge peer}, s.state.layout.neighbor machine edge = some peer →
    machine ≠ s.localMachine → peer = s.localMachine
  outward : ∀ {edge peer}, s.state.layout.neighbor s.localMachine edge = some peer →
    peer ∈ s.state.links

structure Covers (s : Shared) (links : List (MachineId × PeerLink)) (layout : VirtualLayout) : Prop where
  own : layout.screen s.localMachine = some s.localScreen
  peers : ∀ {machine screen}, machine ≠ s.localMachine →
    (layout.screen machine = some screen ↔ ∃ link, (machine, link) ∈ links ∧ link.screen = screen)
  homeward : ∀ {machine edge peer}, layout.neighbor machine edge = some peer →
    machine ≠ s.localMachine → peer = s.localMachine
  outward : ∀ {edge peer}, layout.neighbor s.localMachine edge = some peer →
    peer ∈ links.map Prod.fst

variable {s t : Shared}

theorem screenOf_of_insert (shown : t.screenOf m = screen) (localMachine : t.localMachine = s.localMachine)
    (localScreen : t.localScreen = s.localScreen) (links : t.state.links = s.state.links.insert machine link)
    (apart : m = s.localMachine ∨ m ≠ machine) : s.screenOf m = screen := by
  rw [← shown]
  simp only [screenOf, localMachine, localScreen, links, HashMap.lookup_insert_eq]
  split
  · rfl
  · rw [if_neg (apart.resolve_left ‹_›)]

theorem screenOf_of_erase (shown : t.screenOf m = some screen) (localMachine : t.localMachine = s.localMachine)
    (localScreen : t.localScreen = s.localScreen) (links : t.state.links = s.state.links.erase machine) :
    s.screenOf m = some screen := by
  simp only [screenOf, localMachine, localScreen, links, HashMap.lookup_erase_eq] at shown ⊢
  split at shown
  · rwa [if_pos ‹_›]
  · rw [if_neg ‹_›]
    split at shown
    · cases shown
    · exact shown

theorem screenOf_map (localMachine : t.localMachine = s.localMachine) (localScreen : t.localScreen = s.localScreen)
    (links : t.state.links = s.state.links.map f) (same : ∀ p link, (f p link).screen = link.screen)
    (m : MachineId) :
    t.screenOf m = s.screenOf m := by
  simp only [screenOf, localMachine, localScreen, links, HashMap.lookup_map, Option.map_map]
  split
  · rfl
  · exact congrArg (Option.map · _) (funext fun link => same m link)

theorem Covers.nil (s : Shared) :
    s.Covers [] (VirtualLayout.new.addMachine ⟨s.localMachine, s.localScreen⟩).1 where
  own := by simp [VirtualLayout.addMachine_screen]
  peers distinct := by simp [VirtualLayout.addMachine_screen, distinct]
  homeward found := by simp at found
  outward found := by simp at found

theorem Covers.next (covers : s.Covers links layout) (fresh : machine ∉ links.map Prod.fst)
    (link : PeerLink) :
    s.Covers (links ++ [(machine, link)])
      ((layout.addMachine ⟨machine, link.screen⟩).1.link s.localMachine link.edge machine).1 where
  own := by
    rw [VirtualLayout.link_screen, VirtualLayout.addMachine_screen, covers.own]
    split <;> rfl
  peers := by
    intro m screen distinct
    rw [VirtualLayout.link_screen, VirtualLayout.addMachine_screen]
    simp only [List.mem_append, List.mem_singleton, Prod.mk.injEq]
    split
    · rename_i same
      subst m
      have unseen : layout.screen machine = none := by
        rw [Option.eq_none_iff_forall_ne_some]
        intro shown found
        obtain ⟨old, listed, _⟩ := (covers.peers distinct).mp found
        exact fresh (List.mem_map_of_mem listed)
      rw [unseen, Option.getD_none, Option.some.injEq]
      constructor
      · exact fun same => ⟨link, .inr ⟨rfl, rfl⟩, same⟩
      · rintro ⟨old, listed | ⟨_, rfl⟩, same⟩
        · exact absurd (List.mem_map_of_mem listed) fresh
        · exact same
    · rename_i other
      rw [covers.peers distinct]
      simp only [other, false_and, or_false]
  homeward := by
    intro m edge peer found distinct
    rcases VirtualLayout.link_neighbor found with ⟨_, same⟩ | ⟨same, _⟩ | old
    · exact same
    · exact absurd same distinct
    · exact covers.homeward (by simpa only [VirtualLayout.addMachine_neighbor] using old) distinct
  outward := by
    intro edge peer found
    simp only [List.map_append, List.map_cons, List.map_nil, List.mem_append, List.mem_singleton]
    rcases VirtualLayout.link_neighbor found with ⟨same, rfl⟩ | ⟨_, rfl⟩ | old
    · exact .inr same
    · exact .inr rfl
    · exact .inl (covers.outward (by simpa only [VirtualLayout.addMachine_neighbor] using old))

theorem Covers.addLinks (s : Shared) (unique : (links.map Prod.fst).Nodup) :
    s.Covers links
      (s.addLinks (VirtualLayout.new.addMachine ⟨s.localMachine, s.localScreen⟩).1 links) := by
  induction links using List.reverseRecOn with
  | nil => exact .nil s
  | append_singleton earlier entry ih =>
    simp only [List.map_append, List.map_cons, List.map_nil] at unique
    obtain ⟨before, _, apart⟩ := List.nodup_append.mp unique
    have fresh : entry.1 ∉ earlier.map Prod.fst := fun member =>
      apart _ member _ (List.mem_singleton_self _) rfl
    simpa only [Shared.addLinks, List.foldl_append, List.foldl_cons, List.foldl_nil] using
      (ih before).next fresh entry.2

section Rebuild
variable (s) (order : List MachineId)

@[simp] theorem rebuildLayout_sessions :
    (s.rebuildLayout order).state.sessions = s.state.sessions := rfl

@[simp] theorem rebuildLayout_links : (s.rebuildLayout order).state.links = s.state.links := rfl

@[simp] theorem rebuildLayout_suppress : (s.rebuildLayout order).suppress = s.suppress := rfl

@[simp] theorem rebuildLayout_localMachine : (s.rebuildLayout order).localMachine = s.localMachine := rfl

@[simp] theorem rebuildLayout_localScreen : (s.rebuildLayout order).localScreen = s.localScreen := rfl

end Rebuild

/-- Whatever order the links are visited in, and whatever was on the desktop. -/
theorem rebuildLayout_laidOut (ordered : HashMap.Order order s.state.links) :
    (s.rebuildLayout order).LaidOut := by
  have covers := Covers.addLinks s ordered.nodup_iter
  refine ⟨fun machine => ?_, covers.homeward, fun found => ?_⟩
  · rw [screenOf, rebuildLayout_localMachine, rebuildLayout_localScreen, rebuildLayout_links]
    split
    · subst machine
      exact covers.own
    · rename_i distinct
      apply Option.ext
      intro screen
      refine (covers.peers distinct).trans ?_
      simp only [ordered.mem_iter, Option.map_eq_some_iff]
  · have listed := covers.outward found
    rw [HashMap.map_fst_iter, List.mem_filter, decide_eq_true_eq] at listed
    exact listed.2

/-- The cursor stays where it is unless its machine is gone. -/
theorem rebuildLayout_cursor (ordered : HashMap.Order order s.state.links) :
    (s.rebuildLayout order).state.cursor =
      if s.screenOf s.state.cursor.machine = none then ⟨s.localMachine, ⟨0, 0⟩⟩ else s.state.cursor := by
  have screens : (s.rebuildLayout order).state.layout.screen s.state.cursor.machine =
      s.screenOf s.state.cursor.machine := (rebuildLayout_laidOut ordered).screens _
  rw [← screens]
  rfl

/-- Nothing about the desktop, the cursor, the sessions or the suppression has
changed, and the same links are there. -/
structure Unmoved (s t : Shared) : Prop where
  sessions : t.state.sessions = s.state.sessions
  layout : t.state.layout = s.state.layout
  cursor : t.state.cursor = s.state.cursor
  suppress : t.suppress = s.suppress
  localMachine : t.localMachine = s.localMachine
  localScreen : t.localScreen = s.localScreen
  links : ∀ p, (t.state.links.lookup p).map PeerLink.identity =
    (s.state.links.lookup p).map PeerLink.identity

namespace Unmoved

theorem refl (s : Shared) : s.Unmoved s := ⟨rfl, rfl, rfl, rfl, rfl, rfl, fun _ => rfl⟩

theorem trans (first : s.Unmoved t) (second : t.Unmoved u) : s.Unmoved u where
  sessions := second.sessions.trans first.sessions
  layout := second.layout.trans first.layout
  cursor := second.cursor.trans first.cursor
  suppress := second.suppress.trans first.suppress
  localMachine := second.localMachine.trans first.localMachine
  localScreen := second.localScreen.trans first.localScreen
  links p := (second.links p).trans (first.links p)

theorem mem_links (unmoved : s.Unmoved t) (p : MachineId) : p ∈ t.state.links ↔ p ∈ s.state.links := by
  have same := congrArg Option.isSome (unmoved.links p)
  simpa only [Option.isSome_map, Finmap.lookup_isSome, Bool.coe_iff_coe] using Bool.coe_iff_coe.mpr same

theorem session (unmoved : s.Unmoved t) (p : MachineId) :
    (t.state.links.lookup p).map (·.session) = (s.state.links.lookup p).map (·.session) := by
  have same := congrArg (Option.map Prod.fst) (unmoved.links p)
  simp only [Option.map_map] at same
  exact same

theorem screenOf (unmoved : s.Unmoved t) (p : MachineId) : t.screenOf p = s.screenOf p := by
  have same := congrArg (Option.map Prod.snd) (unmoved.links p)
  simp only [Option.map_map] at same
  simp only [Shared.screenOf, unmoved.localMachine, unmoved.localScreen]
  split
  · rfl
  · exact same

theorem laidOut (unmoved : s.Unmoved t) (laidOut : s.LaidOut) : t.LaidOut where
  screens machine := by rw [unmoved.layout, unmoved.screenOf, laidOut.screens]
  homeward := by
    rw [unmoved.layout, unmoved.localMachine]
    exact laidOut.homeward
  outward found := by
    rw [unmoved.layout, unmoved.localMachine] at found
    exact (unmoved.mem_links _).mpr (laidOut.outward found)

theorem map (s : Shared) (f : MachineId → PeerLink → PeerLink)
    (same : ∀ p link, (f p link).identity = link.identity) :
    s.Unmoved { s with state.links := s.state.links.map f } := by
  refine ⟨rfl, rfl, rfl, rfl, rfl, rfl, fun p => ?_⟩
  simp only [HashMap.lookup_map, Option.map_map]
  congr 1
  exact funext fun link => same p link

theorem modify (s : Shared) (p : MachineId) (f : PeerLink → PeerLink)
    (same : ∀ link, (f link).identity = link.identity) :
    s.Unmoved { s with state.links := s.state.links.modify p f } := by
  refine map s _ fun p link => ?_
  split
  · exact same link
  · rfl

theorem send (s : Shared) (machine : MachineId) (command : PeerCommand) :
    s.Unmoved (s.send machine command) :=
  modify s machine _ fun _ => rfl

theorem broadcast (s : Shared) (command : PeerCommand) : s.Unmoved (s.broadcast command) :=
  map s _ fun _ _ => rfl

theorem warp (s : Shared) (x y : Int32) : s.Unmoved (s.warp x y) :=
  ⟨rfl, rfl, rfl, rfl, rfl, rfl, fun _ => rfl⟩

theorem notifyChange (s : Shared) : s.Unmoved s.notifyChange :=
  ⟨rfl, rfl, rfl, rfl, rfl, rfl, fun _ => rfl⟩

theorem forwardTo (s : Shared) (peer : MachineId) (event : InputEvent) :
    s.Unmoved (s.forwardTo peer event) :=
  modify s peer _ fun _ => rfl

theorem takeCommands (s : Shared) (machine : MachineId) (count : Nat) :
    s.Unmoved (s.takeCommands machine count) :=
  modify s machine _ fun _ => rfl

theorem placeCursorAfterCrossing (s : Shared) (crossing : Crossing) :
    s.Unmoved (s.placeCursorAfterCrossing crossing) := by
  unfold Shared.placeCursorAfterCrossing
  dsimp only
  split
  · exact (warp s _ _).trans (broadcast _ _)
  · exact send s _ _

theorem setModifierSwap (s : Shared) (host swap : String) (config : ConfigWrite) :
    s.Unmoved (s.setModifierSwap host swap config).1 := by
  unfold Shared.setModifierSwap
  split
  · exact refl s
  · refine Unmoved.trans ?_ (notifyChange _)
    have links := map s (fun _ link => if link.host = host then { link with modifierSwap := ‹_› } else link)
      fun _ link => by split <;> rfl
    exact ⟨rfl, rfl, rfl, rfl, rfl, rfl, links.links⟩

theorem disconnect (s : Shared) (host : String) (order : List MachineId) :
    s.Unmoved (s.disconnect host order).1 := by
  rw [Shared.disconnect]
  split
  · exact send s _ _
  · exact refl s

theorem removePeer (s : Shared) (selector : String) (order : List MachineId) (write : Write) :
    s.Unmoved (s.removePeer selector order write).1 := by
  unfold Shared.removePeer
  split
  · exact (send s _ _).trans ⟨rfl, rfl, rfl, rfl, rfl, rfl, fun _ => rfl⟩
  · exact ⟨rfl, rfl, rfl, rfl, rfl, rfl, fun _ => rfl⟩

theorem decidePending (s : Shared) (selector : String) : s.Unmoved (s.decidePending selector).1 := by
  rw [Shared.decidePending]
  split <;> exact ⟨rfl, rfl, rfl, rfl, rfl, rfl, fun _ => rfl⟩

end Unmoved
end Shared
end Omnipresent
