import Omnipresent.Topology.Layout

/-! Links both ways: whoever sits past an edge has the machine it is the edge of past its
own opposite one. Linking keeps it so exactly where neither edge led elsewhere before. -/
namespace Omnipresent

@[simp] theorem Edge.opposite_opposite (edge : Edge) : edge.opposite.opposite = edge := by
  cases edge <;> rfl

@[simp] theorem Edge.opposite_ne (edge : Edge) : edge.opposite ≠ edge := by
  cases edge <;> decide

@[simp] theorem Edge.ne_opposite (edge : Edge) : edge ≠ edge.opposite := (opposite_ne edge).symm

inductive LayoutCall where
  | addMachine (machine : Machine)
  | link (a : MachineId) (edge : Edge) (b : MachineId)
deriving DecidableEq, Repr

namespace VirtualLayout
variable {self : VirtualLayout}

def perform (self : VirtualLayout) : LayoutCall → VirtualLayout × Except LayoutError Unit
  | .addMachine machine => self.addMachine machine
  | .link a edge b => self.link a edge b

def performAll (self : VirtualLayout) (calls : List LayoutCall) : VirtualLayout :=
  calls.foldl (fun layout call => (layout.perform call).1) self

theorem performAll_append (self : VirtualLayout) (calls : List LayoutCall) (call : LayoutCall) :
    self.performAll (calls ++ [call]) = ((self.performAll calls).perform call).1 := by
  rw [performAll, List.foldl_append]
  rfl

theorem link_neighbor_eq (known : a ∈ self.screens) (known' : b ∈ self.screens) (edge : Edge) (m : MachineId)
    (e : Edge) :
    (self.link a edge b).1.neighbor m e =
      if m = b ∧ e = edge.opposite then some a else if m = a ∧ e = edge then some b else self.neighbor m e := by
  rw [link, if_neg (not_not.mpr known), if_neg (not_not.mpr known')]
  simp only [neighbor, HashMap.lookup_insert_eq, Prod.mk.injEq]

theorem link_eq_self (unknown : ¬ (a ∈ self.screens ∧ b ∈ self.screens)) (edge : Edge) :
    (self.link a edge b).1 = self := by
  rw [link]
  split
  · rfl
  · split
    · rfl
    · exact absurd ⟨not_not.mp ‹_›, not_not.mp ‹_›⟩ unknown

def Symmetric (self : VirtualLayout) : Prop :=
  ∀ a b e, self.neighbor a e = some b ↔ self.neighbor b e.opposite = some a

/-- Neither of the two edges a call links leads anywhere else yet. -/
def Fits (self : VirtualLayout) : LayoutCall → Prop
  | .addMachine _ => True
  | .link a edge b => a ∈ self.screens → b ∈ self.screens →
      (∀ c, self.neighbor a edge = some c → c = b) ∧ ∀ c, self.neighbor b edge.opposite = some c → c = a

theorem new_symmetric : new.Symmetric := by
  intro a b e
  simp only [new_neighbor, reduceCtorEq]

theorem Symmetric.addMachine (symmetric : self.Symmetric) (machine : Machine) :
    (self.addMachine machine).1.Symmetric := by
  intro a b e
  simpa only [addMachine_neighbor] using symmetric a b e

theorem Symmetric.link (symmetric : self.Symmetric) (known : a ∈ self.screens) (known' : b ∈ self.screens)
    (away : ∀ c, self.neighbor a edge = some c → c = b)
    (back : ∀ c, self.neighbor b edge.opposite = some c → c = a) : (self.link a edge b).1.Symmetric := by
  -- One direction is enough, for the other is the same about the opposite edge.
  suffices half : ∀ m n e, (self.link a edge b).1.neighbor m e = some n →
      (self.link a edge b).1.neighbor n e.opposite = some m by
    intro m n e
    refine ⟨half m n e, fun found => ?_⟩
    simpa only [Edge.opposite_opposite] using half n m e.opposite found
  intro m n e found
  rw [link_neighbor_eq known known'] at found ⊢
  split at found
  · obtain ⟨rfl, rfl⟩ := ‹_ ∧ _›
    cases found
    simp
  · split at found
    · obtain ⟨rfl, rfl⟩ := ‹_ ∧ _›
      cases found
      simp
    · rename_i notBack notAway
      have before := (symmetric m n e).mp found
      -- An edge that has just been given another neighbor had this one before.
      have free : ¬ (n = b ∧ e.opposite = edge.opposite) := by
        rintro ⟨rfl, same⟩
        obtain rfl : e = edge := by simpa using congrArg Edge.opposite same
        exact notAway ⟨back m before, rfl⟩
      have free' : ¬ (n = a ∧ e.opposite = edge) := by
        rintro ⟨rfl, same⟩
        subst same
        exact notBack ⟨away m before, (Edge.opposite_opposite e).symm⟩
      rw [if_neg free, if_neg free', before]

/-- A link across an edge that led elsewhere leaves the old neighbor pointing back. -/
theorem Symmetric.of_link (symmetric : self.Symmetric) (known : a ∈ self.screens) (known' : b ∈ self.screens)
    (linked : (self.link a edge b).1.Symmetric) :
    (∀ c, self.neighbor a edge = some c → c = b) ∧ ∀ c, self.neighbor b edge.opposite = some c → c = a := by
  have across : (self.link a edge b).1.neighbor a edge = some b := by
    rw [link_neighbor_eq known known']
    simp
  have home : (self.link a edge b).1.neighbor b edge.opposite = some a := (linked a b edge).mp across
  constructor
  · intro c found
    by_contra other
    have back := (symmetric a c edge).mp found
    have kept : (self.link a edge b).1.neighbor c edge.opposite = some a := by
      rw [link_neighbor_eq known known', if_neg (fun same => other same.1), back]
      simp
    have again := (linked a c edge).mpr kept
    exact other (Option.some.inj (again.symm.trans across))
  · intro c found
    by_contra other
    have back := (symmetric c b edge).mpr found
    have kept : (self.link a edge b).1.neighbor c edge = some b := by
      rw [link_neighbor_eq known known', back]
      simp [other]
    have again := (linked c b edge).mp kept
    exact other (Option.some.inj (again.symm.trans home))

/-- From a symmetric layout, a call keeps it so exactly where it fits. -/
theorem Symmetric.perform_iff (symmetric : self.Symmetric) (call : LayoutCall) :
    (self.perform call).1.Symmetric ↔ self.Fits call := by
  cases call with
  | addMachine machine => exact ⟨fun _ => trivial, fun _ => symmetric.addMachine machine⟩
  | link a edge b =>
    by_cases known : a ∈ self.screens ∧ b ∈ self.screens
    · exact ⟨fun linked _ _ => symmetric.of_link known.1 known.2 linked,
        fun fits => symmetric.link known.1 known.2 (fits known.1 known.2).1 (fits known.1 known.2).2⟩
    · simp only [perform, link_eq_self known]
      exact ⟨fun _ here there => absurd ⟨here, there⟩ known, fun _ => symmetric⟩

/-- Links are symmetric all along a sequence of calls exactly where none of them links an
edge that leads elsewhere. -/
theorem links_symmetric (calls : List LayoutCall) :
    (∀ before, before <+: calls → (new.performAll before).Symmetric) ↔
      ∀ before call, before ++ [call] <+: calls → (new.performAll before).Fits call := by
  constructor
  · intro symmetric before call start
    have earlier := symmetric before ((List.prefix_append before [call]).trans start)
    have later := symmetric (before ++ [call]) start
    rw [performAll_append] at later
    exact (earlier.perform_iff call).mp later
  · intro fits before start
    induction before using List.reverseRecOn with
    | nil => exact new_symmetric
    | append_singleton earlier call ih =>
      rw [performAll_append]
      have symmetric := ih ((List.prefix_append earlier [call]).trans start)
      exact (symmetric.perform_iff call).mpr (fits earlier call start)

/-- Three machines, the second of which is put past an edge the third then takes. -/
def relinked : List LayoutCall :=
  [.addMachine ⟨⟨1⟩, ⟨100, 100⟩⟩, .addMachine ⟨⟨2⟩, ⟨100, 100⟩⟩, .addMachine ⟨⟨3⟩, ⟨100, 100⟩⟩,
    .link ⟨1⟩ .right ⟨2⟩, .link ⟨1⟩ .right ⟨3⟩]

/-- The second still leads to the first, which leads to the third. -/
theorem relinked_asymmetric :
    (new.performAll relinked).neighbor ⟨2⟩ .left = some ⟨1⟩ ∧
      (new.performAll relinked).neighbor ⟨1⟩ .right = some ⟨3⟩ ∧
      ¬ ∀ calls, (new.performAll calls).Symmetric := by
  have back : (new.performAll relinked).neighbor ⟨2⟩ .left = some ⟨1⟩ := by decide
  have across : (new.performAll relinked).neighbor ⟨1⟩ .right = some ⟨3⟩ := by decide
  refine ⟨back, across, fun symmetric => ?_⟩
  have again := (symmetric relinked ⟨1⟩ ⟨2⟩ .right).mpr back
  rw [across] at again
  exact absurd again (by decide)

end VirtualLayout
end Omnipresent
