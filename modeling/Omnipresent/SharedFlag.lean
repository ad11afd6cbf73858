import Omnipresent.LastWrite
import Mathlib.Data.List.Induction

/-! One flag for several keys: a press of any of them sets it, and a release of any clears
it. It says whether one of them is down, unless the last of their strokes released one
while another was down. -/
namespace Omnipresent
variable {κ : Type} [DecidableEq κ] {key : κ} {shares : κ → Bool} {strokes : List (κ × Bool)}

/-- The key is down: its last stroke was a press. -/
def down (key : κ) (strokes : List (κ × Bool)) : Bool := lastWrite key false strokes

/-- The flag of the keys that share it. -/
def lit (shares : κ → Bool) (strokes : List (κ × Bool)) : Bool :=
  lastWrite true false (strokes.map fun stroke => (shares stroke.1, stroke.2))

/-- The last stroke of the keys that share the flag released one of them, and another was
down. -/
def Overlapped (shares : κ → Bool) (strokes : List (κ × Bool)) : Prop :=
  ∃ earlier key later, strokes = earlier ++ (key, false) :: later ∧ shares key = true ∧
    (∀ stroke ∈ later, shares stroke.1 = false) ∧
    ∃ other, other ≠ key ∧ shares other = true ∧ down other earlier = true

theorem down_append_singleton (stroke : κ × Bool) :
    down key (strokes ++ [stroke]) = if stroke.1 = key then stroke.2 else down key strokes := by
  rw [down, lastWrite_append, lastWrite_cons, lastWrite_nil]
  rfl

omit [DecidableEq κ] in
theorem lit_append_singleton (stroke : κ × Bool) :
    lit shares (strokes ++ [stroke]) = if shares stroke.1 then stroke.2 else lit shares strokes := by
  rw [lit, List.map_append, lastWrite_append, List.map_singleton, lastWrite_cons, lastWrite_nil]
  rfl

theorem not_overlapped_nil : ¬ Overlapped shares [] := by
  rintro ⟨earlier, key, later, split, _⟩
  simp at split

omit [DecidableEq κ] in
theorem append_singleton_split {stroke at' : κ × Bool} {earlier later : List (κ × Bool)}
    (split : strokes ++ [stroke] = earlier ++ at' :: later) :
    (later = [] ∧ strokes = earlier ∧ stroke = at') ∨
      ∃ rest, later = rest ++ [stroke] ∧ strokes = earlier ++ at' :: rest := by
  induction later using List.reverseRecOn with
  | nil =>
    obtain ⟨same, last⟩ := List.append_inj' split rfl
    exact .inl ⟨rfl, same, List.singleton_injective last⟩
  | append_singleton rest last _ =>
    rw [← List.cons_append, ← List.append_assoc] at split
    obtain ⟨same, ends⟩ := List.append_inj' split rfl
    exact .inr ⟨rest, by rw [ends], same⟩

theorem overlapped_append_shared {stroke : κ × Bool} (shared : shares stroke.1 = true) :
    Overlapped shares (strokes ++ [stroke]) ↔
      stroke.2 = false ∧ ∃ other, other ≠ stroke.1 ∧ shares other = true ∧ down other strokes = true := by
  constructor
  · rintro ⟨earlier, key, later, split, _, rest, others⟩
    rcases append_singleton_split split with ⟨_, rfl, rfl⟩ | ⟨later, rfl, _⟩
    · exact ⟨rfl, others⟩
    · exact absurd shared (by simp [rest stroke (by simp)])
  · rintro ⟨released, others⟩
    refine ⟨strokes, stroke.1, [], ?_, shared, by simp, others⟩
    rw [← released]

theorem overlapped_append_other {stroke : κ × Bool} (other : shares stroke.1 = false) :
    Overlapped shares (strokes ++ [stroke]) ↔ Overlapped shares strokes := by
  constructor
  · rintro ⟨earlier, key, later, split, shared, rest, others⟩
    rcases append_singleton_split split with ⟨_, _, rfl⟩ | ⟨later, rfl, same⟩
    · exact absurd shared (by simp [other])
    · exact ⟨earlier, key, later, same, shared, fun stroke listed => rest stroke (by simp [listed]), others⟩
  · rintro ⟨earlier, key, later, rfl, shared, rest, others⟩
    refine ⟨earlier, key, later ++ [stroke], by simp, shared, fun next listed => ?_, others⟩
    rcases List.mem_append.mp listed with listed | listed
    · exact rest next listed
    · rw [List.mem_singleton.mp listed, other]

theorem lit_iff_down_iff (shares : κ → Bool) (strokes : List (κ × Bool)) :
    (lit shares strokes = true ↔ ∃ key, shares key = true ∧ down key strokes = true) ↔
      ¬ Overlapped shares strokes := by
  induction strokes using List.reverseRecOn with
  | nil =>
    refine iff_of_true ?_ not_overlapped_nil
    simp [lit, down]
  | append_singleton strokes stroke ih =>
    rw [lit_append_singleton]
    simp only [down_append_singleton]
    by_cases shared : shares stroke.1 = true
    · rw [if_pos shared, overlapped_append_shared shared]
      cases pressed : stroke.2 with
      | true =>
        refine iff_of_true (iff_of_true rfl ⟨stroke.1, shared, if_pos rfl⟩) ?_
        rintro ⟨released, _⟩
        cases released
      | false =>
        have others : (∃ key, shares key = true ∧ (if stroke.1 = key then false else down key strokes) = true) ↔
            ∃ other, other ≠ stroke.1 ∧ shares other = true ∧ down other strokes = true := by
          refine exists_congr fun key => ?_
          by_cases same : stroke.1 = key
          · simp [same]
          · simp [same, Ne.symm same]
        rw [others]
        simp
    · have other : shares stroke.1 = false := by simpa using shared
      rw [if_neg shared, overlapped_append_other other, ← ih]
      refine iff_congr Iff.rfl (exists_congr fun key => and_congr_right fun listed => ?_)
      have apart : stroke.1 ≠ key := fun same => shared (by rw [same, listed])
      rw [if_neg apart]

end Omnipresent
