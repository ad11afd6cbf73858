import Omnipresent.HashMap
import Omnipresent.Protocol.Ids
import Omnipresent.Topology.Geometry

/-! The virtual desktop: which machines exist, how they are arranged, and where
the cursor goes when it is moved. A result of `none` is a panic. -/
namespace Omnipresent

structure Machine where
  id : MachineId
  screen : Screen
deriving DecidableEq, Repr

inductive LayoutError where
  | unknownMachine (id : MachineId)
  | duplicateMachine (id : MachineId)
deriving DecidableEq, Repr

structure CursorState where
  machine : MachineId
  position : Point
deriving DecidableEq, Repr

structure Crossing where
  peer : MachineId
  entry : Point
deriving DecidableEq, Repr

structure Advance where
  cursor : CursorState
  crossing : Option Crossing
deriving DecidableEq, Repr

structure VirtualLayout where
  screens : HashMap MachineId Screen
  links : HashMap (MachineId × Edge) MachineId
deriving DecidableEq

/-- `Iterator::max_by_key`: of several equal maxima, the last. -/
def maxByKey (key : α → Int) : List α → Option α
  | [] => none
  | a :: rest => match maxByKey key rest with
    | none => some a
    | some b => if key b < key a then some a else some b

theorem maxByKey_eq_none : maxByKey key l = none ↔ l = [] := by
  cases l with
  | nil => simp [maxByKey]
  | cons a rest =>
    simp only [maxByKey, reduceCtorEq, iff_false]
    cases maxByKey key rest with
    | none => simp
    | some b =>
      dsimp only
      split <;> simp

theorem maxByKey_mem (found : maxByKey key l = some a) : a ∈ l := by
  induction l with
  | nil => simp [maxByKey] at found
  | cons b rest ih =>
    simp only [maxByKey] at found
    cases later : maxByKey key rest with
    | none =>
      simp only [later, Option.some.injEq] at found
      exact found ▸ List.mem_cons_self
    | some c =>
      simp only [later] at found
      split at found
      · exact Option.some.inj found ▸ List.mem_cons_self
      · exact List.mem_cons_of_mem _ (ih (later.trans found))

/-- Which edge a candidate coordinate ran past and by how much, or `none` if it
stayed within `0..length`. -/
def edgeOvershoot (coord length : Int) (low high : Edge) : Option (Option (Edge × Int)) :=
  if coord < 0 then do
    let overshoot ← Checked.i64 (-coord)
    some (some (low, overshoot))
  else if coord ≥ length then do
    let last ← Checked.i64 (length - 1)
    let overshoot ← Checked.i64 (coord - last)
    some (some (high, overshoot))
  else some none

/-- Maps a coordinate from a span of length `src` onto a span of length `dst`,
keeping the same relative position. -/
def project (coord : Int) (src dst : UInt32) : Option UInt32 :=
  if src.toNat ≤ 1 ∨ dst = 0 then some 0
  else do
    let maxSrc ← Checked.sub src.toNat 1
    let clamped ← Checked.clamp coord 0 maxSrc
    let dstSpan ← Checked.sub dst.toNat 1
    let product ← Checked.mulU64 clamped.toNat dstSpan
    let srcSpan ← Checked.sub src.toNat 1
    let quotient ← Checked.div product srcSpan
    some (UInt32.ofNat quotient)

/-- Where the cursor lands on the neighbor after crossing `edge`. The two inner
`none` branches are the source's `unreachable!`. -/
def entryPoint (edge : Edge) (peer src : Screen) (candX candY : Int) : Option Point :=
  if edge.isHorizontal then do
    let y ← project candY src.height peer.height
    let x ← match edge with
      | .right => some 0
      | .left => some (lastOf peer.width)
      | _ => none
    some ⟨x, y⟩
  else do
    let x ← project candX src.width peer.width
    let y ← match edge with
      | .bottom => some 0
      | .top => some (lastOf peer.height)
      | _ => none
    some ⟨x, y⟩

namespace VirtualLayout

def new : VirtualLayout := ⟨∅, ∅⟩

def addMachine (self : VirtualLayout) (machine : Machine) : VirtualLayout × Except LayoutError Unit :=
  if machine.id ∈ self.screens then (self, .error (.duplicateMachine machine.id))
  else ({ self with screens := self.screens.insert machine.id machine.screen }, .ok ())

def screen (self : VirtualLayout) (machine : MachineId) : Option Screen := self.screens.lookup machine

/-- Both directions are recorded at once. -/
def link (self : VirtualLayout) (a : MachineId) (edge : Edge) (b : MachineId) :
    VirtualLayout × Except LayoutError Unit :=
  if a ∉ self.screens then (self, .error (.unknownMachine a))
  else if b ∉ self.screens then (self, .error (.unknownMachine b))
  else
    ({ self with links := (self.links.insert (a, edge) b).insert (b, edge.opposite) a }, .ok ())

def neighbor (self : VirtualLayout) (machine : MachineId) (edge : Edge) : Option MachineId :=
  self.links.lookup (machine, edge)

/-- Of the edges run past that have a neighbor, the one overshot most. -/
def chosen (self : VirtualLayout) (machine : MachineId) (horizontal vertical : Option (Edge × Int)) :
    Option (Edge × Int × MachineId) :=
  maxByKey (fun candidate => candidate.2.1) <|
    [horizontal, vertical].reduceOption.filterMap fun (edge, overshoot) =>
      (self.neighbor machine edge).map fun peer => (edge, overshoot, peer)

def advance (self : VirtualLayout) (cursor : CursorState) (delta : MouseDelta) :
    Option (Except LayoutError Advance) :=
  match self.screen cursor.machine with
  | none => some (.error (.unknownMachine cursor.machine))
  | some screen => do
    let candX ← Checked.i64 (cursor.position.x.toNat + delta.dx.toInt)
    let candY ← Checked.i64 (cursor.position.y.toNat + delta.dy.toInt)
    let w : Int := screen.width.toNat
    let h : Int := screen.height.toNat
    let horizontal ← edgeOvershoot candX w .left .right
    let vertical ← edgeOvershoot candY h .top .bottom
    match self.chosen cursor.machine horizontal vertical with
    | some (edge, _, peer) =>
      match self.screen peer with
      | none => some (.error (.unknownMachine peer))
      | some peerScreen => do
        let entry ← entryPoint edge peerScreen screen candX candY
        some (.ok ⟨⟨peer, entry⟩, some ⟨peer, entry⟩⟩)
    | none => do
      let lastX ← Checked.i64 (w - 1)
      let lastY ← Checked.i64 (h - 1)
      let x ← Checked.clamp candX 0 lastX
      let y ← Checked.clamp candY 0 lastY
      some (.ok ⟨⟨cursor.machine, ⟨UInt32.ofInt x, UInt32.ofInt y⟩⟩, none⟩)

@[simp] theorem new_screen (machine : MachineId) : new.screen machine = none := Finmap.lookup_empty _

@[simp] theorem new_neighbor (machine : MachineId) (edge : Edge) : new.neighbor machine edge = none :=
  Finmap.lookup_empty _

theorem addMachine_screen (self : VirtualLayout) (machine : Machine) (m : MachineId) :
    (self.addMachine machine).1.screen m =
      if m = machine.id then some ((self.screen m).getD machine.screen) else self.screen m := by
  rw [addMachine]
  by_cases known : machine.id ∈ self.screens
  · rw [if_pos known]
    obtain ⟨shown, found⟩ := Finmap.mem_iff.mp known
    split
    · subst m
      rw [screen, found, Option.getD_some]
    · rfl
  · rw [if_neg known]
    have absent := Finmap.lookup_eq_none.mpr known
    simp only [screen, HashMap.lookup_insert_eq]
    split
    · subst m
      rw [absent, Option.getD_none]
    · rfl

@[simp] theorem addMachine_neighbor (self : VirtualLayout) (machine : Machine) (m : MachineId) (edge : Edge) :
    (self.addMachine machine).1.neighbor m edge = self.neighbor m edge := by
  rw [addMachine]
  split <;> rfl

@[simp] theorem link_screen (self : VirtualLayout) (a : MachineId) (edge : Edge) (b m : MachineId) :
    (self.link a edge b).1.screen m = self.screen m := by
  rw [link]
  split
  · rfl
  · split <;> rfl

theorem link_neighbor {self : VirtualLayout} (found : (self.link a edge b).1.neighbor m e = some p) :
    (m = b ∧ p = a) ∨ (m = a ∧ p = b) ∨ self.neighbor m e = some p := by
  rw [link] at found
  split at found
  · exact .inr (.inr found)
  · split at found
    · exact .inr (.inr found)
    · simp only [neighbor, HashMap.lookup_insert_eq, Prod.mk.injEq] at found
      split at found
      · exact .inl ⟨And.left ‹_›, (Option.some.inj found).symm⟩
      · split at found
        · exact .inr (.inl ⟨And.left ‹_›, (Option.some.inj found).symm⟩)
        · exact .inr (.inr found)

end VirtualLayout
end Omnipresent
