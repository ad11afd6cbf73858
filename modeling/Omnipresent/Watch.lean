import Mathlib.Logic.Basic

/-! A store read while others change it, and the counter that tells the reader to look
again: who changes the store bumps the counter afterwards, and the reader marks the
counter before it looks. Nothing here depends on what is stored, or on how many steps
a look takes. -/
namespace Omnipresent.Watch
variable {S P : Type*} {Fresh : S → P → Prop} {owed owed' : Prop} {s t : S} {version seen : Nat} {p q : P}

/-- What the reader has made of the store is right, or it is to look again: the counter has
moved on since it marked it, or somebody still owes a bump. -/
def Current (Fresh : S → P → Prop) (owed : Prop) (store : S) (version seen : Nat) (reader : P) : Prop :=
  Fresh store reader ∨ seen < version ∨ owed

namespace Current

/-- A change that shows is owed a bump, and so is what was owed one before. -/
theorem change (current : Current Fresh owed s version seen p) (shows : (Fresh s p → Fresh t p) ∨ owed')
    (still : owed → owed') : Current Fresh owed' t version seen p := by
  rcases current with fresh | behind | owing
  · rcases shows with hidden | owing
    · exact .inl (hidden fresh)
    · exact .inr (.inr owing)
  · exact .inr (.inl behind)
  · exact .inr (.inr (still owing))

/-- A bump leaves every reader behind, whatever it stood for. -/
theorem bump (marked : seen ≤ version) : Current Fresh owed s (version + 1) seen p :=
  .inr (.inl (Nat.lt_succ_of_le marked))

theorem read (current : Current Fresh owed s version seen p) (reads : Fresh s p → Fresh s q) :
    Current Fresh owed s version seen q :=
  current.imp_left reads

/-- A reader nobody has anything to tell is right. -/
theorem settled (current : Current Fresh owed s version seen p) (caughtUp : seen = version) (quiet : ¬ owed) :
    Fresh s p := by
  rcases current with fresh | behind | owing
  · exact fresh
  · exact absurd caughtUp (Nat.ne_of_lt behind)
  · exact absurd owing quiet

end Current
end Omnipresent.Watch
