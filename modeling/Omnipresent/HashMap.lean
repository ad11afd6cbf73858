import Mathlib.Data.Finmap
import Mathlib.Data.List.Nodup

/-! Hash maps as finite maps, with the order in which one pass walks through the
entries left open: an order is any list of the keys, each exactly once. -/
namespace Omnipresent
variable {κ ν μ : Type}

abbrev HashMap (κ ν : Type) := Finmap fun _ : κ => ν

namespace HashMap

/-- The same keys, each with its value rewritten. -/
def map (f : κ → ν → μ) (m : HashMap κ ν) : HashMap κ μ where
  entries := m.entries.map fun entry => ⟨entry.1, f entry.1 entry.2⟩
  nodupKeys := by
    rw [← Multiset.nodup_keys, Multiset.keys, Multiset.map_map]
    exact Multiset.nodup_keys.mpr m.nodupKeys

variable [DecidableEq κ]

@[simp] theorem lookup_map (f : κ → ν → μ) (m : HashMap κ ν) (k : κ) :
    (m.map f).lookup k = (m.lookup k).map (f k) := by
  apply Option.ext
  intro v
  rw [Finmap.lookup_eq_some_iff, Option.map_eq_some_iff]
  simp only [map, Multiset.mem_map, Finmap.lookup_eq_some_iff]
  constructor
  · rintro ⟨⟨k', w⟩, member, same⟩
    cases same
    exact ⟨w, member, rfl⟩
  · rintro ⟨w, member, rfl⟩
    exact ⟨⟨k, w⟩, member, rfl⟩

@[simp] theorem mem_map (f : κ → ν → μ) (m : HashMap κ ν) (k : κ) : k ∈ m.map f ↔ k ∈ m := by
  simp only [← Finmap.lookup_isSome, lookup_map, Option.isSome_map]

/-- One entry rewritten in place, through `get_mut`; nothing happens without it. -/
def modify (key : κ) (f : ν → ν) (m : HashMap κ ν) : HashMap κ ν :=
  m.map fun k v => if k = key then f v else v

theorem lookup_modify (key : κ) (f : ν → ν) (m : HashMap κ ν) (k : κ) :
    (m.modify key f).lookup k =
      if k = key then (m.lookup k).map f else m.lookup k := by
  rw [modify, lookup_map]
  split
  · rfl
  · exact Option.map_id' ▸ rfl

theorem lookup_insert_eq (key : κ) (v : ν) (m : HashMap κ ν) (k : κ) :
    (Finmap.insert key v m).lookup k = if k = key then some v else m.lookup k := by
  split
  · subst k
    exact Finmap.lookup_insert m
  · exact Finmap.lookup_insert_of_ne m ‹_›

theorem lookup_erase_eq (key : κ) (m : HashMap κ ν) (k : κ) :
    (Finmap.erase key m).lookup k = if k = key then none else m.lookup k := by
  split
  · subst k
    exact Finmap.lookup_erase key m
  · exact Finmap.lookup_erase_ne ‹_›

/-- An order in which one pass over the map may visit its keys. -/
def Order (order : List κ) (m : HashMap κ ν) : Prop := (order : Multiset κ) = m.keys.val

instance (order : List κ) (m : HashMap κ ν) : Decidable (Order order m) :=
  inferInstanceAs (Decidable (_ = _))

def iter (order : List κ) (m : HashMap κ ν) : List (κ × ν) :=
  order.filterMap fun k => (m.lookup k).map fun v => (k, v)

variable {order : List κ} {m : HashMap κ ν}

omit [DecidableEq κ] in
theorem Order.nodup (ordered : Order order m) : order.Nodup := by
  have unique := m.keys.nodup
  rwa [← ordered, Multiset.coe_nodup] at unique

omit [DecidableEq κ] in
theorem Order.mem_iff (ordered : Order order m) : k ∈ order ↔ k ∈ m := by
  rw [← Finmap.mem_keys, ← Finset.mem_val, ← ordered, Multiset.mem_coe]

theorem mem_iter : (k, v) ∈ m.iter order ↔ k ∈ order ∧ m.lookup k = some v := by
  simp only [iter, List.mem_filterMap, Option.map_eq_some_iff, Prod.mk.injEq]
  constructor
  · rintro ⟨k, visited, v, found, rfl, rfl⟩
    exact ⟨visited, found⟩
  · rintro ⟨visited, found⟩
    exact ⟨k, visited, v, found, rfl, rfl⟩

theorem map_fst_iter : (m.iter order).map Prod.fst = order.filter (· ∈ m) := by
  induction order with
  | nil => rfl
  | cons k rest ih =>
    simp only [iter, List.filterMap_cons] at ih ⊢
    cases found : m.lookup k with
    | none =>
      have absent : k ∉ m := Finmap.lookup_eq_none.mp found
      simpa [absent] using ih
    | some v =>
      have present : k ∈ m := Finmap.mem_of_lookup_eq_some found
      simpa [present] using ih

theorem Order.nodup_iter (ordered : Order order m) : ((m.iter order).map Prod.fst).Nodup := by
  rw [map_fst_iter]
  exact ordered.nodup.filter _

/-- A pass sees exactly the entries of the map, whatever its order. -/
theorem Order.mem_iter (ordered : Order order m) : (k, v) ∈ m.iter order ↔ m.lookup k = some v := by
  rw [HashMap.mem_iter, ordered.mem_iff]
  exact ⟨And.right, fun found => ⟨Finmap.mem_of_lookup_eq_some found, found⟩⟩

omit [DecidableEq κ] in
/-- Which orders there are depends on the keys alone. -/
theorem order_congr {m' : HashMap κ ν} (same : ∀ k, k ∈ m ↔ k ∈ m') : Order order m ↔ Order order m' := by
  have keys : m.keys = m'.keys := Finset.ext fun k => by simpa only [Finmap.mem_keys] using same k
  rw [Order, Order, keys]

omit [DecidableEq κ] in
theorem exists_order (m : HashMap κ ν) : ∃ order, Order order m :=
  ⟨m.keys.toList, Finset.coe_toList m.keys⟩

/-- Every map can be walked, starting from any of its keys. -/
theorem exists_order_cons (present : k ∈ m) : ∃ rest, Order (k :: rest) m := by
  refine ⟨(m.keys.erase k).toList, ?_⟩
  rw [Order, ← Multiset.cons_coe, Finset.coe_toList, Finset.erase_val]
  exact Multiset.cons_erase (Finmap.mem_keys.mpr present)

end HashMap
end Omnipresent
