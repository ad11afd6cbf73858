import Mathlib.Algebra.Order.Floor.Semifield
import Mathlib.Data.Int.ConditionallyCompleteOrder
import Mathlib.Data.Rat.Floor
import Mathlib.Order.Interval.Set.Defs
import Mathlib.Tactic.Linarith
import Omnipresent.Topology.Advance

/-! The map from one span onto another keeps order and both ends, and is never a whole unit
off the exact proportion. -/
namespace Omnipresent

section Floor
variable {n m a b : Nat}

theorem div_close (value n : Nat) : |((value / n : Nat) : ℚ) - (value : ℚ) / n| < 1 := by
  have below := Nat.floor_le (show (0 : ℚ) ≤ (value : ℚ) / n by positivity)
  have above := Nat.lt_floor_add_one ((value : ℚ) / n)
  rw [Nat.floor_div_eq_div] at below above
  rw [abs_sub_lt_iff]
  constructor <;> linarith

/-- Onto a span that is no shorter, places that differ stay apart. -/
theorem mul_div_lt (positive : 0 < n) (longer : n ≤ m) (less : a < b) : a * m / n < b * m / n :=
  calc a * m / n < a * m / n + 1 := Nat.lt_succ_self _
    _ = (a * m + n) / n := (Nat.add_div_right _ positive).symm
    _ ≤ b * m / n := by
      apply Nat.div_le_div_right
      calc a * m + n ≤ a * m + m := Nat.add_le_add_left longer _
        _ = (a + 1) * m := (Nat.succ_mul a m).symm
        _ ≤ b * m := Nat.mul_le_mul_right m less

end Floor

/-- The place of a coordinate on a span, or the end of it that is nearer. -/
def onSpan (src : Nat) (coord : Int) : Int := max 0 (min coord (src - 1 : Nat))

/-- The map onto a span of length `dst` that keeps order, sends the ends of the one to the
ends of the other, and is close to the exact proportion of what is measured. -/
structure Proportional (src dst : Nat) (measured : Int → Int) (map : Int → Nat) : Prop where
  monotone : Monotone map
  below : ∀ coord, map coord < dst
  first : ∀ coord ≤ 0, map coord = 0
  last : ∀ coord : Int, (src - 1 : Nat) ≤ coord → map coord = dst - 1
  strict : src ≤ dst → StrictMonoOn map (Set.Ico 0 (src : Int))
  close : ∀ coord, |(map coord : ℚ) - measured coord * (dst - 1) / (src - 1)| < 1

def projected (src dst : Nat) (coord : Int) : Nat := (onSpan src coord).toNat * (dst - 1) / (src - 1)

section Projected
variable {src dst : Nat}

theorem onSpan_mono (src : Nat) : Monotone (onSpan src) := by
  intro coord coord' less
  simp only [onSpan]
  omega

theorem projected_mono (src dst : Nat) : Monotone (projected src dst) := by
  intro coord coord' less
  apply Nat.div_le_div_right
  apply Nat.mul_le_mul_right
  exact Int.toNat_le_toNat (onSpan_mono src less)

theorem projected_lt (shown : 1 ≤ dst) (coord : Int) : projected src dst coord < dst := by
  have inside : (onSpan src coord).toNat ≤ src - 1 := by
    rw [onSpan]
    omega
  have quotient : projected src dst coord ≤ dst - 1 :=
    Nat.div_le_of_le_mul (Nat.mul_le_mul_right _ inside)
  omega

theorem projected_proportional (long : 2 ≤ src) (shown : 1 ≤ dst) :
    Proportional src dst (onSpan src) (projected src dst) where
  monotone := projected_mono src dst
  below := projected_lt shown
  first coord low := by
    have start : onSpan src coord = 0 := by
      rw [onSpan]
      omega
    rw [projected, start, Int.toNat_zero, Nat.zero_mul, Nat.zero_div]
  last coord high := by
    have ending : onSpan src coord = (src - 1 : Nat) := by
      rw [onSpan]
      omega
    rw [projected, ending, Int.toNat_natCast, Nat.mul_div_cancel_left _ (by omega)]
  strict longer coord inside coord' inside' less := by
    apply mul_div_lt (by omega) (by omega)
    obtain ⟨lower, upper⟩ := inside
    obtain ⟨lower', upper'⟩ := inside'
    simp only [onSpan]
    omega
  close coord := by
    have natural : ((onSpan src coord).toNat : ℚ) = onSpan src coord := by
      have positive : ((onSpan src coord).toNat : Int) = onSpan src coord := Int.toNat_of_nonneg (le_max_left _ _)
      exact_mod_cast congrArg (Int.cast : Int → ℚ) positive
    have close := div_close ((onSpan src coord).toNat * (dst - 1)) (src - 1)
    rwa [Nat.cast_mul, natural, Nat.cast_pred (by omega), Nat.cast_pred (by omega)] at close

end Projected

/-- No product overflows, and the quotient is a `u32` as it stands. -/
theorem project_projected {src dst : UInt32} (long : 2 ≤ src.toNat) (shown : 1 ≤ dst.toNat) (coord : Int) :
    (project coord src dst).map UInt32.toNat = some (projected src.toNat dst.toNat coord) := by
  have small : projected src.toNat dst.toNat coord < 2 ^ 32 :=
    Nat.lt_trans (projected_lt shown coord) dst.toNat_lt
  rw [project_eq coord src dst long shown, Option.map_some]
  exact congrArg some (UInt32.toNat_ofNat_mod small)

/-- Between spans of two units or more and of one or more, every coordinate is mapped in
proportion to where it is on the first, or to the end of it that it is past. -/
theorem project_proportional (src dst : UInt32) (long : 2 ≤ src.toNat) (shown : 1 ≤ dst.toNat) :
    ∃ map, (∀ coord, (project coord src dst).map UInt32.toNat = some (map coord)) ∧
      Proportional src.toNat dst.toNat (onSpan src.toNat) map :=
  ⟨projected src.toNat dst.toNat, project_projected long shown, projected_proportional long shown⟩

theorem project_proportional_heights :
    ∃ map, (∀ coord, (project coord 1080 2160).map UInt32.toNat = some (map coord)) ∧
      Proportional 1080 2160 (onSpan 1080) map :=
  project_proportional 1080 2160 (by decide) (by decide)

/-- A coordinate past the end of its span is sent to the end of the other, however far past
it is. -/
theorem project_past_end :
    ¬ ∀ src dst : UInt32, 2 ≤ src.toNat → 1 ≤ dst.toNat →
      ∃ map, (∀ coord, (project coord src dst).map UInt32.toNat = some (map coord)) ∧
        Proportional src.toNat dst.toNat id map := by
  intro always
  obtain ⟨map, same, proportional⟩ := always 2 2 (by decide) (by decide)
  have ending : map 3 = 1 := Option.some.inj ((same 3).symm.trans (by decide))
  have close := proportional.close 3
  rw [ending, show UInt32.toNat 2 = 2 from rfl] at close
  norm_num at close

end Omnipresent
