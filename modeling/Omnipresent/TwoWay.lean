import Mathlib.Data.List.Nodup

/-! A table of pairs that is searched from either side. Where nothing is twice in a column,
what is found from there is what the table says. -/
namespace Omnipresent.TwoWay
variable {α β : Type} {table : List (α × β)} {a : α} {b : β}

theorem find_fst_iff [DecidableEq α] (once : (table.map Prod.fst).Nodup) :
    (table.find? fun entry => entry.1 = a).map Prod.snd = some b ↔ (a, b) ∈ table := by
  induction table with
  | nil => exact iff_of_false nofun List.not_mem_nil
  | cons entry table ih =>
    rw [List.map_cons, List.nodup_cons] at once
    obtain ⟨apart, once⟩ := once
    rw [List.find?_cons, List.mem_cons]
    by_cases here : entry.1 = a
    · rw [decide_eq_true here]
      constructor
      · rintro ⟨⟩
        exact .inl (Prod.ext here.symm rfl)
      · rintro (rfl | later)
        · rfl
        · exact absurd (List.mem_map_of_mem later) (here ▸ apart)
    · rw [decide_eq_false here]
      exact (ih once).trans ⟨.inr, fun either => either.resolve_left fun same => here (congrArg Prod.fst same).symm⟩

/-- From the other side it is the table turned around. -/
theorem find_snd_iff [DecidableEq β] (once : (table.map Prod.snd).Nodup) :
    (table.find? fun entry => entry.2 = b).map Prod.fst = some a ↔ (a, b) ∈ table := by
  have turned : ((table.map Prod.swap).map Prod.fst).Nodup := by rwa [List.map_map]
  have found := @find_fst_iff _ _ (table.map Prod.swap) b a _ turned
  rw [List.find?_map, Option.map_map, List.mem_map] at found
  refine found.trans ⟨?_, fun listed => ⟨(a, b), listed, rfl⟩⟩
  rintro ⟨⟨_, _⟩, listed, ⟨⟩⟩
  exact listed

end Omnipresent.TwoWay
