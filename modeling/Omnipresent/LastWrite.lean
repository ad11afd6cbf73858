import Mathlib.Data.List.Basic
import Mathlib.Data.List.Induction

/-! A cell that is written again and again, among others: what it holds is what the last
of its writes put there. -/
namespace Omnipresent
variable {κ α : Type} [DecidableEq κ] {key : κ} {initial value : α} {writes : List (κ × α)}

def lastWrite (key : κ) (initial : α) (writes : List (κ × α)) : α :=
  writes.foldl (fun value write => if write.1 = key then write.2 else value) initial

@[simp] theorem lastWrite_nil : lastWrite key initial [] = initial := rfl

theorem lastWrite_append (earlier later : List (κ × α)) :
    lastWrite key initial (earlier ++ later) = lastWrite key (lastWrite key initial earlier) later :=
  List.foldl_append

theorem lastWrite_cons (write : κ × α) :
    lastWrite key initial (write :: writes) =
      lastWrite key (if write.1 = key then write.2 else initial) writes := rfl

theorem lastWrite_of_absent (absent : ∀ write ∈ writes, write.1 ≠ key) :
    lastWrite key initial writes = initial := by
  induction writes with
  | nil => rfl
  | cons write rest ih =>
    rw [lastWrite_cons, if_neg (absent write List.mem_cons_self)]
    exact ih fun write listed => absent write (List.mem_cons_of_mem _ listed)

/-- Where all its writes agree, a cell holds what they say once there is one. -/
theorem lastWrite_of_agree (agree : ∀ write ∈ writes, write.1 = key → write.2 = value)
    (written : ∃ write ∈ writes, write.1 = key) : lastWrite key initial writes = value := by
  induction writes generalizing initial with
  | nil =>
    obtain ⟨_, listed, _⟩ := written
    exact absurd listed List.not_mem_nil
  | cons write rest ih =>
    have agree' : ∀ write ∈ rest, write.1 = key → write.2 = value := fun write listed =>
      agree write (List.mem_cons_of_mem _ listed)
    rw [lastWrite_cons]
    by_cases later : ∃ write ∈ rest, write.1 = key
    · exact ih agree' later
    · have absent : ∀ write ∈ rest, write.1 ≠ key := fun write listed same => later ⟨write, listed, same⟩
      rw [lastWrite_of_absent absent]
      obtain ⟨first, listed, same⟩ := written
      rcases List.mem_cons.mp listed with rfl | listed
      · rw [if_pos same, agree first List.mem_cons_self same]
      · exact absurd same (absent first listed)

/-- Cells under other names, where no two of them get one name. -/
theorem lastWrite_map [DecidableEq μ] (f : κ → μ) (apart : ∀ write ∈ writes, f write.1 = f key → write.1 = key) :
    lastWrite (f key) initial (writes.map fun write => (f write.1, write.2)) = lastWrite key initial writes := by
  induction writes generalizing initial with
  | nil => rfl
  | cons write rest ih =>
    have same : f write.1 = f key ↔ write.1 = key := ⟨apart write List.mem_cons_self, congrArg f⟩
    rw [List.map_cons, lastWrite_cons, lastWrite_cons]
    simp only [same]
    exact ih fun write listed => apart write (List.mem_cons_of_mem _ listed)

section Effects
variable {ω : Type} {effect : ω → Option α} {ops : List ω}

/-- What a cell holds after operations of which each may write it. -/
def lastEffect (effect : ω → Option α) (initial : α) (ops : List ω) : α :=
  ops.foldl (fun value op => (effect op).getD value) initial

theorem lastEffect_append (ops : List ω) (op : ω) :
    lastEffect effect initial (ops ++ [op]) = (effect op).getD (lastEffect effect initial ops) := by
  rw [lastEffect, List.foldl_append]
  rfl

theorem lastEffect_cons (op : ω) (ops : List ω) :
    lastEffect effect initial (op :: ops) = lastEffect effect ((effect op).getD initial) ops := rfl

/-- It holds what the last operation that wrote it put there, or what it held at first. -/
theorem lastEffect_eq_iff : lastEffect effect initial ops = value ↔
    (∃ before op after, ops = before ++ op :: after ∧ effect op = some value ∧
      ∀ later ∈ after, effect later = none) ∨ (initial = value ∧ ∀ op ∈ ops, effect op = none) := by
  induction ops using List.reverseRecOn with
  | nil => simp [lastEffect]
  | append_singleton ops last ih =>
    rw [lastEffect_append]
    cases wrote : effect last with
    | none =>
      rw [Option.getD_none, ih]
      constructor
      · rintro (⟨before, op, after, rfl, written, quiet⟩ | ⟨same, quiet⟩)
        · refine .inl ⟨before, op, after ++ [last], by simp, written, fun later listed => ?_⟩
          rcases List.mem_append.mp listed with inside | final
          · exact quiet later inside
          · rw [List.mem_singleton.mp final, wrote]
        · refine .inr ⟨same, fun op listed => ?_⟩
          rcases List.mem_append.mp listed with inside | final
          · exact quiet op inside
          · rw [List.mem_singleton.mp final, wrote]
      · rintro (⟨before, op, after, split, written, quiet⟩ | ⟨same, quiet⟩)
        · rcases List.eq_nil_or_concat after with rfl | ⟨front, final, rfl⟩
          · -- The writing operation would be the last one, which wrote nothing.
            obtain ⟨_, rfl⟩ := List.append_singleton_inj.mp split
            rw [wrote] at written
            cases written
          · have regrouped : ops ++ [last] = (before ++ op :: front) ++ [final] := by simp [split]
            obtain ⟨rfl, rfl⟩ := List.append_singleton_inj.mp regrouped
            exact .inl ⟨before, op, front, rfl, written, fun later listed => quiet later (by simp [listed])⟩
        · exact .inr ⟨same, fun op listed => quiet op (List.mem_append_left _ listed)⟩
    | some written =>
      rw [Option.getD_some]
      constructor
      · rintro rfl
        exact .inl ⟨ops, last, [], rfl, wrote, fun later listed => absurd listed List.not_mem_nil⟩
      · rintro (⟨before, op, after, split, wrote', quiet⟩ | ⟨_, quiet⟩)
        · rcases List.eq_nil_or_concat after with rfl | ⟨front, final, rfl⟩
          · obtain ⟨_, rfl⟩ := List.append_singleton_inj.mp split
            exact Option.some.inj (wrote.symm.trans wrote')
          · have regrouped : ops ++ [last] = (before ++ op :: front) ++ [final] := by simp [split]
            obtain ⟨_, rfl⟩ := List.append_singleton_inj.mp regrouped
            cases wrote.symm.trans (quiet last (by simp))
        · cases wrote.symm.trans (quiet last (by simp))

/-- Where the operations that write it are those of one kind, the last of these decides. -/
theorem lastEffect_eq_getLast (p : ω → Bool) (f : ω → α)
    (writes : ∀ op ∈ ops, effect op = if p op then some (f op) else none) :
    lastEffect effect initial ops = ((ops.filter p).getLast?.map f).getD initial := by
  induction ops using List.reverseRecOn with
  | nil => rfl
  | append_singleton ops last ih =>
    rw [lastEffect_append, List.filter_append, writes last (by simp)]
    cases kind : p last with
    | false =>
      rw [if_neg Bool.false_ne_true, Option.getD_none, ih fun op listed => writes op (List.mem_append_left _ listed),
        List.filter_cons_of_neg (by simp [kind]), List.filter_nil, List.append_nil]
    | true =>
      rw [if_pos rfl, Option.getD_some, List.filter_cons_of_pos kind, List.filter_nil, List.getLast?_concat,
        Option.map_some, Option.getD_some]

end Effects

end Omnipresent
