import Omnipresent.Postcard.Wire

/-! Readers that look at no more than they take. What such a reader makes of some bytes
it makes of them whatever comes in behind them, so that of a value's bytes no proper
part reads as a value at all. -/
namespace Omnipresent.Postcard

def Stable (reader : Take α) : Prop :=
  ∀ bytes a rest more, reader.run bytes = some (a, rest) → reader.run (bytes ++ more) = some (a, rest ++ more)

namespace Stable

theorem pure (a : α) : Stable (pure a : Take α) := by
  intro bytes b rest more read
  rw [StateT.run_pure] at read ⊢
  cases read
  rfl

theorem failure : Stable (failure : Take α) := by
  intro bytes a rest more read
  cases read

theorem bind {reader : Take α} {next : α → Take β} (first : Stable reader) (then' : ∀ a, Stable (next a)) :
    Stable (reader >>= next) := by
  intro bytes b rest more read
  rw [StateT.run_bind, Option.bind_eq_bind, Option.bind_eq_some_iff] at read
  obtain ⟨⟨a, between⟩, taken, read⟩ := read
  rw [StateT.run_bind, first bytes a between more taken, Option.bind_eq_bind, Option.bind_some]
  exact then' a between b rest more read

theorem map {reader : Take α} (f : α → β) (stable : Stable reader) : Stable (f <$> reader) := by
  intro bytes b rest more read
  rw [StateT.run_map, Option.map_eq_map, Option.map_eq_some_iff] at read
  obtain ⟨⟨a, left⟩, taken, read⟩ := read
  cases read
  rw [StateT.run_map, stable bytes a left more taken, Option.map_eq_map, Option.map_some]

theorem pop : Stable pop := by
  intro bytes byte rest more read
  cases bytes with
  | nil => cases read
  | cons first behind =>
    cases read
    rfl

theorem takeVarintBytes (last room : Nat) : Stable (takeVarintBytes last room) := by
  induction room with
  | zero => exact failure
  | succ room ih =>
    refine bind pop fun byte => ?_
    split
    · split
      · exact failure
      · exact pure _
    · exact bind ih fun more => pure _

theorem tryTakeVarint (bits : Nat) : Stable (tryTakeVarint bits) := takeVarintBytes _ _

end Stable

/-- A type whose reader is one of these. -/
class StableWire (α : Type) [Wire α] : Prop where
  stable : Stable (take : Take α)

export StableWire (stable)

theorem fromBytes_truncated [Wire α] [StableWire α] {a : α} {kept lost : List UInt8} (cut : kept ++ lost = put a)
    (short : lost ≠ []) : (fromBytes kept : Option α) = none := by
  rw [fromBytes, Option.map_eq_none_iff]
  cases read : (take : Take α).run kept with
  | none => rfl
  | some result =>
    obtain ⟨b, rest⟩ := result
    -- Read off the part, it would be read off the whole, and leave what was lost.
    have whole := stable kept b rest lost read
    have back := take_put a []
    rw [List.append_nil, ← cut, whole] at back
    have nothing : rest ++ lost = [] := congrArg Prod.snd (Option.some.inj back)
    exact absurd (List.append_eq_nil_iff.mp nothing).2 short

instance : StableWire UInt8 := ⟨.pop⟩

instance : StableWire UInt32 := ⟨.map _ (.tryTakeVarint 32)⟩

instance : StableWire UInt64 := ⟨.map _ (.tryTakeVarint 64)⟩

instance : StableWire (BitVec 128) := ⟨.map _ (.tryTakeVarint 128)⟩

instance : StableWire Int32 := ⟨.map _ (stable (α := UInt32))⟩

theorem Stable.takeMany [Wire α] [StableWire α] (count : Nat) :
    Stable (takeMany count : Take { l : List α // l.length = count }) := by
  induction count with
  | zero => exact pure _
  | succ count ih => exact bind stable fun a => bind ih fun l => pure _

instance [Wire α] [StableWire α] : StableWire { l : List α // l.length = count } := ⟨.takeMany count⟩

instance [Wire α] [StableWire α] : StableWire { l : List α // l.length < 2 ^ 64 } where
  stable := .bind stable fun _ => .bind (.takeMany _) fun _ => .pure _

instance : StableWire { text : String // text.utf8ByteSize < 2 ^ 64 } where
  stable := by
    refine .bind stable fun bytes => ?_
    split
    · exact .pure _
    · exact .failure

end Omnipresent.Postcard
