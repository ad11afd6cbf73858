import Mathlib.Data.List.Basic

/-! A list in which some entries bear a key: of those of one key only the last one stays,
where it stood, and those without a key all stay. -/
namespace Omnipresent
variable {κ α : Type} [DecidableEq κ] {key : α → Option κ} {l : List α}

def lastPerKey (key : α → Option κ) : List α → List α
  | [] => []
  | a :: rest =>
    if (key a).isSome ∧ ∃ b ∈ rest, key b = key a then lastPerKey key rest else a :: lastPerKey key rest

theorem lastPerKey_sublist (key : α → Option κ) (l : List α) : (lastPerKey key l).Sublist l := by
  induction l with
  | nil => exact .slnil
  | cons a rest ih =>
    rw [lastPerKey]
    split
    · exact ih.cons a
    · exact ih.cons_cons a

theorem lastPerKey_unkeyed (key : α → Option κ) (l : List α) :
    (lastPerKey key l).filter (fun a => key a = none) = l.filter fun a => key a = none := by
  induction l with
  | nil => rfl
  | cons a rest ih =>
    rw [lastPerKey]
    split
    · rename_i superseded
      have keyed : key a ≠ none := Option.isSome_iff_ne_none.mp superseded.1
      rw [ih, List.filter_cons_of_neg (by simpa using keyed)]
    · rw [List.filter_cons, List.filter_cons, ih]

/-- Of the entries of a key the last one is kept. -/
theorem lastPerKey_keyed (key : α → Option κ) (l : List α) (k : κ) :
    (lastPerKey key l).filter (fun a => key a = some k) = (l.filter fun a => key a = some k).getLast?.toList := by
  induction l with
  | nil => rfl
  | cons a rest ih =>
    by_cases own : key a = some k
    · rw [lastPerKey, List.filter_cons_of_pos (by simpa using own)]
      split
      · rename_i superseded
        obtain ⟨b, listed, same⟩ := superseded.2
        -- A later entry of the key is the last one with the first in front too.
        have later : b ∈ rest.filter fun a => key a = some k := by simp [listed, same, own]
        rw [ih, List.getLast?_cons, List.getLast?_eq_some_getLast (List.ne_nil_of_mem later)]
        rfl
      · rename_i last
        have alone : rest.filter (fun a => key a = some k) = [] := by
          rw [List.filter_eq_nil_iff]
          intro b listed same
          refine last ⟨by simp [own], b, listed, ?_⟩
          rw [own]
          simpa using same
        rw [alone, List.getLast?_nil] at ih
        rw [alone, List.filter_cons_of_pos (by simpa using own), ih]
        rfl
    · rw [lastPerKey, List.filter_cons_of_neg (by simpa using own), ← ih]
      split
      · rfl
      · rw [List.filter_cons_of_neg (by simpa using own)]

theorem lastPerKey_idem (key : α → Option κ) (l : List α) :
    lastPerKey key (lastPerKey key l) = lastPerKey key l := by
  induction l with
  | nil => rfl
  | cons a rest ih =>
    by_cases superseded : (key a).isSome ∧ ∃ b ∈ rest, key b = key a
    · rw [lastPerKey, if_pos superseded, ih]
    · rw [lastPerKey, if_neg superseded, lastPerKey, ih, if_neg]
      rintro ⟨keyed, b, kept, same⟩
      exact superseded ⟨keyed, b, (lastPerKey_sublist key rest).subset kept, same⟩

/-- What is kept is what there was exactly where no entry is superseded. -/
theorem lastPerKey_length : (lastPerKey key l).length = l.length ↔ lastPerKey key l = l :=
  ⟨(lastPerKey_sublist key l).eq_of_length, congrArg List.length⟩

end Omnipresent
