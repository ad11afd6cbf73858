import Omnipresent.LastPerKey
import Omnipresent.Trust.State

/-! What `dedup_host_pins` leaves of any file: walking the records from the newest and
turning them round again keeps the last record of each host. -/
namespace Omnipresent

/-- An older record goes through the walk where neither a newer one nor what was met before
has its host. -/
theorem keepNewest_append (seen : List String) (newer : List PeerRecord) (r : PeerRecord) :
    keepNewest seen (newer ++ [r]) = keepNewest seen newer ++
      if ∃ host, r.host = some host ∧ (host ∈ seen ∨ ∃ b ∈ newer, b.host = some host) then [] else [r] := by
  induction newer generalizing seen with
  | nil =>
    rw [List.nil_append]
    cases named : r.host with
    | none => simp [keepNewest, named]
    | some host => by_cases met : host ∈ seen <;> simp [keepNewest, named, met]
  | cons a newer ih =>
    rw [List.cons_append, keepNewest, keepNewest]
    split
    · rename_i own named
      split
      · rename_i met
        rw [ih]
        congr 2
        -- The host met here is met already.
        refine propext (exists_congr fun host => and_congr_right fun _ => ?_)
        rw [List.exists_mem_cons_iff, named, Option.some.injEq]
        constructor
        · exact Or.imp_right .inr
        · rintro (before | rfl | later)
          · exact .inl before
          · exact .inl met
          · exact .inr later
      · rw [ih, List.cons_append]
        congr 3
        refine propext (exists_congr fun host => and_congr_right fun _ => ?_)
        rw [List.mem_cons, List.exists_mem_cons_iff, named, Option.some.injEq, or_comm (a := host = own), or_assoc,
          eq_comm (a := host)]
    · rename_i absent
      rw [ih, List.cons_append]
      congr 3
      refine propext (exists_congr fun host => and_congr_right fun _ => ?_)
      rw [List.exists_mem_cons_iff, absent]
      simp

theorem dedupHostPins_eq (peers : List PeerRecord) : (dedupHostPins peers).1 = lastPerKey (·.host) peers := by
  change (keepNewest [] peers.reverse).reverse = _
  induction peers with
  | nil => rfl
  | cons r rest ih =>
    have superseded : (∃ host, r.host = some host ∧ (host ∈ [] ∨ ∃ b ∈ rest.reverse, b.host = some host)) ↔
        r.host.isSome ∧ ∃ b ∈ rest, b.host = r.host := by
      cases named : r.host with
      | none => simp
      | some host => simp
    rw [List.reverse_cons, keepNewest_append, List.reverse_append, ih, lastPerKey]
    simp only [superseded]
    split <;> rfl

theorem dedupHostPins_dropped (peers : List PeerRecord) :
    (dedupHostPins peers).2 = true ↔ (dedupHostPins peers).1 ≠ peers := by
  rw [dedupHostPins_eq, Ne, ← lastPerKey_length, ← dedupHostPins_eq, dedupHostPins]
  exact decide_eq_true_iff

/-- Whatever the file holds, every host-less record stays and of each host the last record,
in their order; the answer is whether one went, and the second time none does. -/
theorem dedupHostPins_newest (peers : List PeerRecord) :
    (dedupHostPins peers).1 = lastPerKey (·.host) peers ∧ (dedupHostPins peers).1.Sublist peers ∧
    (dedupHostPins peers).1.filter (fun r => r.host = none) = peers.filter (fun r => r.host = none) ∧
    (∀ host, (dedupHostPins peers).1.filter (fun r => r.host = some host) =
      (peers.filter fun r => r.host = some host).getLast?.toList) ∧
    ((dedupHostPins peers).2 = true ↔ (dedupHostPins peers).1 ≠ peers) ∧
    dedupHostPins (dedupHostPins peers).1 = ((dedupHostPins peers).1, false) := by
  have again : (dedupHostPins (dedupHostPins peers).1).1 = (dedupHostPins peers).1 := by
    rw [dedupHostPins_eq, dedupHostPins_eq, lastPerKey_idem]
  refine ⟨dedupHostPins_eq peers, ?_, ?_, fun host => ?_, dedupHostPins_dropped peers, ?_⟩
  · rw [dedupHostPins_eq]
    exact lastPerKey_sublist _ peers
  · rw [dedupHostPins_eq]
    exact lastPerKey_unkeyed _ peers
  · rw [dedupHostPins_eq]
    exact lastPerKey_keyed _ peers host
  · refine Prod.ext again (Bool.eq_false_iff.mpr fun dropped => ?_)
    exact (dedupHostPins_dropped _).mp dropped again

end Omnipresent
