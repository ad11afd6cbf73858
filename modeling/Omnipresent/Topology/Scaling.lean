import Omnipresent.Topology.Geometry

/-! How far a rescaled movement is off the exact proportion, for one event and for many,
and when it still fits the 32 bits it is narrowed to. -/
namespace Omnipresent

def proportion (delta : Int) (src dst : Nat) : Int :=
  if (delta * dst).tdiv src = 0 then delta.sign else (delta * dst).tdiv src

section Proportion
variable {delta : Int} {src dst : Nat}

theorem proportion_zero (src dst : Nat) : proportion 0 src dst = 0 := by simp [proportion]

theorem proportion_self (positive : 0 < src) (delta : Int) : proportion delta src src = delta := by
  have same : (delta * src).tdiv src = delta := Int.mul_tdiv_cancel _ (by omega)
  rw [proportion, same]
  split
  · rename_i nothing
    rw [nothing, Int.sign_zero]
  · rfl

theorem sign_mul_side (positive : 0 < dst) (delta : Int) : (delta * dst).sign = delta.sign := by
  have side : (dst : Int).sign = 1 := Int.sign_eq_one_of_pos (by omega)
  rw [Int.sign_mul, side, Int.mul_one]

theorem tdiv_eq_zero (positive : 0 < src) (value : Int) : value.tdiv src = 0 ↔ value.natAbs < src := by
  have size : (value.tdiv src).natAbs = value.natAbs / src := Int.natAbs_tdiv value src
  rw [← Int.natAbs_eq_zero, size, Nat.div_eq_zero_iff]
  omega

theorem sign_proportion (positive : 0 < src) (positive' : 0 < dst) :
    (proportion delta src dst).sign = delta.sign := by
  rw [proportion]
  split
  · rw [Int.sign_sign]
  · rename_i something
    rw [tdiv_eq_zero positive] at something
    have side : (src : Int).sign = 1 := Int.sign_eq_one_of_pos (by omega)
    rw [Int.sign_tdiv, if_neg (by omega), side, Int.mul_one, sign_mul_side positive']

theorem sign_cases (n : Int) : (0 < n ∧ n.sign = 1) ∨ (n = 0 ∧ n.sign = 0) ∨ (n < 0 ∧ n.sign = -1) := by
  rcases Int.lt_trichotomy n 0 with negative | zero | positive
  · exact .inr (.inr ⟨negative, Int.sign_eq_neg_one_of_neg negative⟩)
  · exact .inr (.inl ⟨zero, by rw [zero, Int.sign_zero]⟩)
  · exact .inl ⟨positive, Int.sign_eq_one_of_pos positive⟩

theorem proportion_mono {delta' : Int} (positive : 0 < src) (less : delta ≤ delta') :
    proportion delta src dst ≤ proportion delta' src dst := by
  have scaled : delta * dst ≤ delta' * dst := Int.mul_le_mul_of_nonneg_right less (by omega)
  have quotient := Int.tdiv_le_tdiv (show (0 : Int) < src by omega) scaled
  have first := sign_cases delta
  have second := sign_cases delta'
  unfold proportion
  split <;> split
  · omega
  · omega
  · omega
  · exact quotient

/-- The distance from the exact proportion, in units of the source: what truncation leaves,
or what is missing to one unit. -/
theorem deviation (positive : 0 < src) (positive' : 0 < dst) (moved : delta ≠ 0) :
    (proportion delta src dst * src - delta * dst).natAbs =
      if (delta * dst).natAbs < src then src - (delta * dst).natAbs else (delta * dst).natAbs % src := by
  have signs := sign_mul_side positive' delta
  have something : delta * dst ≠ 0 := Int.mul_ne_zero moved (by omega)
  rw [proportion]
  simp only [tdiv_eq_zero positive]
  split
  · rw [← signs]
    generalize delta * dst = product at *
    rcases Int.lt_or_gt_of_ne something with low | high
    · rw [Int.sign_eq_neg_one_of_neg low]
      omega
    · rw [Int.sign_eq_one_of_pos high]
      omega
  · have whole := Int.mul_tdiv_add_tmod (delta * dst) src
    have rest : ((delta * dst).tmod src).natAbs = (delta * dst).natAbs % src := Int.natAbs_tmod _ _
    rw [Int.mul_comm] at whole
    omega

theorem tdiv_lt_iff (positive : 0 < src) {bound : Int} (positive' : 0 < bound) (value : Int) :
    value.tdiv src < bound ↔ value < bound * src := by
  have source : (0 : Int) < src := by omega
  refine ⟨Int.lt_mul_of_tdiv_lt source, fun less => ?_⟩
  rcases Int.lt_or_le value 0 with negative | natural
  · have below := Int.tdiv_le_tdiv source (Int.le_of_lt negative)
    rw [Int.zero_tdiv] at below
    omega
  · rw [Int.tdiv_eq_ediv_of_nonneg natural]
    exact Int.ediv_lt_of_lt_mul source less

theorem proportion_fits (positive : 0 < src) :
    (-2 ^ 31 ≤ proportion delta src dst ∧ proportion delta src dst < 2 ^ 31) ↔
      -(2 ^ 31 + 1) * src < delta * dst ∧ delta * dst < 2 ^ 31 * src := by
  have upper := tdiv_lt_iff positive (show (0 : Int) < 2 ^ 31 by decide) (delta * dst)
  have lower := tdiv_lt_iff positive (show (0 : Int) < 2 ^ 31 + 1 by decide) (-(delta * dst))
  rw [Int.neg_tdiv] at lower
  have signs := sign_cases delta
  rw [proportion]
  split <;> omega

end Proportion

/-- The product of a movement and the side it is scaled to is within that many of the side
it is scaled from. -/
def AxisFits (delta : Int32) (src dst : UInt32) : Prop :=
  -(2 ^ 31 + 1) * (src.toNat : Int) < delta.toInt * dst.toNat ∧ delta.toInt * dst.toNat < 2 ^ 31 * (src.toNat : Int)

instance (delta : Int32) (src dst : UInt32) : Decidable (AxisFits delta src dst) :=
  inferInstanceAs (Decidable (_ ∧ _))

theorem scaleAxis_eq (delta : Int32) {src dst : UInt32} (positive : 0 < src.toNat) (positive' : 0 < dst.toNat) :
    scaleAxis delta src dst = some (Int32.ofInt (proportion delta.toInt src.toNat dst.toNat)) := by
  have lower := delta.le_toInt
  have upper := delta.toInt_lt
  obtain ⟨low, high⟩ := Checked.mul_mem_i64 lower (by omega) dst.toNat_lt
  rw [scaleAxis]
  split
  · rename_i unchanged
    rcases unchanged with rfl | rfl | rfl | rfl
    · rw [Int32.toInt_zero, proportion_zero]
      rfl
    · exact absurd positive (by decide)
    · exact absurd positive' (by decide)
    · rw [proportion_self positive, Int32.ofInt_toInt]
  · simp only [Checked.i64_of_mem low high, Checked.tdiv_of_pos positive, Option.bind_eq_bind, Option.bind_some,
      proportion]
    split <;> rfl

theorem toInt_scaleAxis (positive : 0 < src.toNat) (positive' : 0 < dst.toNat)
    (scaled : scaleAxis delta src dst = some result) :
    result.toInt = proportion delta.toInt src.toNat dst.toNat ↔ AxisFits delta src dst := by
  rw [scaleAxis_eq delta positive positive', Option.some.injEq] at scaled
  subst scaled
  have fits : (-2 ^ 31 ≤ proportion delta.toInt src.toNat dst.toNat ∧
      proportion delta.toInt src.toNat dst.toNat < 2 ^ 31) ↔ _ := proportion_fits positive
  rw [AxisFits, ← fits]
  constructor
  · intro exact'
    rw [← exact']
    exact ⟨Int32.le_toInt _, Int32.toInt_lt _⟩
  · rintro ⟨lower, upper⟩
    exact Int32.toInt_ofInt_of_le lower upper

/-- One axis keeps the sign of its movement, and narrowing it changes nothing. -/
structure AxisKept (delta result : Int32) (src dst : UInt32) : Prop where
  sign : result.toInt.sign = delta.toInt.sign
  exact' : result.toInt = proportion delta.toInt src.toNat dst.toNat

theorem axisKept_iff (positive : 0 < src.toNat) (positive' : 0 < dst.toNat)
    (scaled : scaleAxis delta src dst = some result) : AxisKept delta result src dst ↔ AxisFits delta src dst := by
  have narrowed := toInt_scaleAxis positive positive' scaled
  refine ⟨fun kept => narrowed.mp kept.exact', fun fits => ⟨?_, narrowed.mpr fits⟩⟩
  rw [narrowed.mpr fits, sign_proportion positive positive']

theorem scaleAxis_mono (positive : 0 < src.toNat) (kept : AxisKept delta result src dst)
    (kept' : AxisKept delta' result' src dst) (less : delta ≤ delta') : result ≤ result' := by
  rw [Int32.le_iff_toInt_le] at less ⊢
  rw [kept.exact', kept'.exact']
  exact proportion_mono positive less

def MouseDelta.Fits (delta : MouseDelta) (src dst : Screen) : Prop :=
  AxisFits delta.dx src.width dst.width ∧ AxisFits delta.dy src.height dst.height

instance (delta : MouseDelta) (src dst : Screen) : Decidable (delta.Fits src dst) :=
  inferInstanceAs (Decidable (_ ∧ _))

def MouseDelta.Kept (delta result : MouseDelta) (src dst : Screen) : Prop :=
  AxisKept delta.dx result.dx src.width dst.width ∧ AxisKept delta.dy result.dy src.height dst.height

theorem scaleDelta_eq_some (scaled : scaleDelta delta src dst = some result) :
    scaleAxis delta.dx src.width dst.width = some result.dx ∧
      scaleAxis delta.dy src.height dst.height = some result.dy := by
  simp only [scaleDelta, Option.bind_eq_bind, Option.bind_eq_some_iff, Option.some.injEq] at scaled
  obtain ⟨dx, foundX, dy, foundY, rfl⟩ := scaled
  exact ⟨foundX, foundY⟩

/-- Two movements keep their directions and their order, and nothing wraps, exactly where
the product of each with the side it goes to is within 32 bits' worth of the side it
comes from. -/
theorem direction_kept {src dst : Screen} (shown : src.Shown) (shown' : dst.Shown) (one other : MouseDelta) :
    (∃ one' other', scaleDelta one src dst = some one' ∧ scaleDelta other src dst = some other' ∧
      one.Kept one' src dst ∧ other.Kept other' src dst ∧
      (one.dx ≤ other.dx → one'.dx ≤ other'.dx) ∧ (one.dy ≤ other.dy → one'.dy ≤ other'.dy)) ↔
      one.Fits src dst ∧ other.Fits src dst := by
  have exactly : ∀ {delta result : MouseDelta}, scaleDelta delta src dst = some result →
      (delta.Kept result src dst ↔ delta.Fits src dst) := fun scaled =>
    and_congr (axisKept_iff shown.1 shown'.1 (scaleDelta_eq_some scaled).1)
      (axisKept_iff shown.2 shown'.2 (scaleDelta_eq_some scaled).2)
  constructor
  · rintro ⟨one', other', scaled, scaled', kept, kept', _⟩
    exact ⟨(exactly scaled).mp kept, (exactly scaled').mp kept'⟩
  · rintro ⟨fits, fits'⟩
    obtain ⟨one', scaled⟩ := scaleDelta_isSome one src dst
    obtain ⟨other', scaled'⟩ := scaleDelta_isSome other src dst
    have kept := (exactly scaled).mpr fits
    have kept' := (exactly scaled').mpr fits'
    exact ⟨one', other', scaled, scaled', kept, kept', scaleAxis_mono shown.1 kept.1 kept'.1,
      scaleAxis_mono shown.2 kept.2 kept'.2⟩

theorem direction_kept_retina :
    ∃ one' other', scaleDelta ⟨-3, 1⟩ ⟨1512, 982⟩ ⟨3840, 2160⟩ = some one' ∧
      scaleDelta ⟨1512, 1⟩ ⟨1512, 982⟩ ⟨3840, 2160⟩ = some other' ∧
      MouseDelta.Kept ⟨-3, 1⟩ one' ⟨1512, 982⟩ ⟨3840, 2160⟩ ∧
      MouseDelta.Kept ⟨1512, 1⟩ other' ⟨1512, 982⟩ ⟨3840, 2160⟩ ∧
      ((-3 : Int32) ≤ 1512 → one'.dx ≤ other'.dx) ∧ ((1 : Int32) ≤ 1 → one'.dy ≤ other'.dy) :=
  (direction_kept (by decide) (by decide) ⟨-3, 1⟩ ⟨1512, 1⟩).mpr (by decide)

/-- A peer may announce a side so long that a movement to the right comes out to the left. -/
theorem direction_flipped :
    scaleDelta ⟨1000, 0⟩ ⟨1920, 1080⟩ ⟨4294967295, 1080⟩ = some ⟨-2058005164, 0⟩ ∧
      ¬ ∀ src dst : Screen, src.Shown → dst.Shown → ∀ one other : MouseDelta, ∃ one' other',
        scaleDelta one src dst = some one' ∧ scaleDelta other src dst = some other' ∧
        one.Kept one' src dst ∧ other.Kept other' src dst ∧
        (one.dx ≤ other.dx → one'.dx ≤ other'.dx) ∧ (one.dy ≤ other.dy → one'.dy ≤ other'.dy) := by
  have flipped : scaleDelta ⟨1000, 0⟩ ⟨1920, 1080⟩ ⟨4294967295, 1080⟩ = some ⟨-2058005164, 0⟩ := by decide
  refine ⟨flipped, fun always => ?_⟩
  obtain ⟨one', _, scaled, _, kept, _⟩ :=
    always ⟨1920, 1080⟩ ⟨4294967295, 1080⟩ (by decide) (by decide) ⟨1000, 0⟩ ⟨1000, 0⟩
  rw [flipped] at scaled
  cases scaled
  exact absurd kept.1.sign (by decide)

/-- A movement that comes to half a unit or more is scaled to the nearest whole one exactly
where truncation takes off half a unit at most, or the movement is brought up to one. -/
theorem scaleAxis_nearest_iff {delta : Int32} {src dst : UInt32} (positive : 0 < src.toNat)
    (positive' : 0 < dst.toNat)
    (lower : -2 ^ 31 * (src.toNat : Int) ≤ delta.toInt * dst.toNat)
    (upper : delta.toInt * dst.toNat ≤ (2 ^ 31 - 1) * (src.toNat : Int))
    (half : src.toNat ≤ 2 * (delta.toInt * dst.toNat).natAbs) :
    (∃ result, scaleAxis delta src dst = some result ∧
      2 * (result.toInt * src.toNat - delta.toInt * dst.toNat).natAbs ≤ src.toNat) ↔
      (delta.toInt * dst.toNat).natAbs < src.toNat ∨
        2 * ((delta.toInt * dst.toNat).natAbs % src.toNat) ≤ src.toNat := by
  have fits : AxisFits delta src dst := ⟨by omega, by omega⟩
  have moved : delta.toInt ≠ 0 := by
    intro still
    rw [still, Int.zero_mul, Int.natAbs_zero] at half
    omega
  have scaled := scaleAxis_eq delta positive positive'
  have off := deviation positive positive' moved
  rw [← (toInt_scaleAxis positive positive' scaled).mpr fits] at off
  simp only [scaled, Option.some.injEq, exists_eq_left', off]
  split
  · omega
  · rename_i large
    rw [or_iff_right large]

theorem scaleAxis_nearest_half :
    (∃ result, scaleAxis 3 3840 1920 = some result ∧ 2 * (result.toInt * 3840 - 3 * 1920).natAbs ≤ 3840) :=
  (scaleAxis_nearest_iff (by decide) (by decide) (by decide) (by decide) (by decide)).mpr (by decide)

/-- Three units of a narrower screen are 7.6 of a wider one, and come out as 7. -/
theorem scaleAxis_truncates :
    scaleAxis 3 1512 3840 = some 7 ∧
      ¬ ∀ (delta : Int32) (src dst : UInt32), 0 < src.toNat → 0 < dst.toNat →
        -2 ^ 31 * (src.toNat : Int) ≤ delta.toInt * dst.toNat →
        delta.toInt * dst.toNat ≤ (2 ^ 31 - 1) * (src.toNat : Int) →
        src.toNat ≤ 2 * (delta.toInt * dst.toNat).natAbs →
        ∃ result, scaleAxis delta src dst = some result ∧
          2 * (result.toInt * src.toNat - delta.toInt * dst.toNat).natAbs ≤ src.toNat := by
  have seven : scaleAxis 3 1512 3840 = some 7 := by decide
  refine ⟨seven, fun nearest => ?_⟩
  obtain ⟨result, scaled, close⟩ :=
    nearest 3 1512 3840 (by decide) (by decide) (by decide) (by decide) (by decide)
  rw [seven] at scaled
  cases scaled
  exact absurd close (by decide)

/-- The quotient of a movement is a whole number. -/
def Whole (delta : Int32) (src dst : UInt32) : Prop := src.toNat ∣ (delta.toInt * dst.toNat).natAbs

instance (delta : Int32) (src dst : UInt32) : Decidable (Whole delta src dst) :=
  inferInstanceAs (Decidable (_ ∣ _))

theorem deviation_le (positive : 0 < src.toNat) (positive' : 0 < dst.toNat) (delta : Int32) :
    (proportion delta.toInt src.toNat dst.toNat * src.toNat - delta.toInt * dst.toNat).natAbs ≤
      if Whole delta src dst then 0 else src.toNat - 1 := by
  by_cases moved : delta.toInt = 0
  · rw [moved, proportion_zero, Int.zero_mul, Int.zero_mul]
    exact Nat.zero_le _
  · rw [deviation positive positive' moved]
    have something : 0 < (delta.toInt * dst.toNat).natAbs := Int.natAbs_pos.mpr (Int.mul_ne_zero moved (by omega))
    have rest := Nat.mod_lt (delta.toInt * dst.toNat).natAbs positive
    split
    · rename_i small
      have broken : ¬ Whole delta src dst := fun whole => absurd (Nat.le_of_dvd something whole) (by omega)
      rw [if_neg broken]
      omega
    · split
      · rename_i whole
        exact Nat.le_of_eq (Nat.mod_eq_zero_of_dvd whole)
      · omega

/-- Many events, each off by so little, are off by less than a unit for each that is off. -/
theorem deviation_sum (positive : 0 < src.toNat) (positive' : 0 < dst.toNat) (deltas : List Int32) :
    ((deltas.map fun delta => proportion delta.toInt src.toNat dst.toNat).sum * src.toNat -
        (deltas.map Int32.toInt).sum * dst.toNat).natAbs ≤
      (src.toNat - 1) * deltas.countP fun delta => ¬ Whole delta src dst := by
  induction deltas with
  | nil => simp
  | cons delta rest ih =>
    have first := deviation_le positive positive' delta
    simp only [List.map_cons, List.sum_cons, Int.add_mul, List.countP_cons, Nat.mul_add]
    have triangle := Int.natAbs_add_le
      (proportion delta.toInt src.toNat dst.toNat * src.toNat - delta.toInt * dst.toNat)
      ((rest.map fun delta => proportion delta.toInt src.toNat dst.toNat).sum * src.toNat -
        (rest.map Int32.toInt).sum * dst.toNat)
    by_cases whole : Whole delta src dst
    · simp only [whole, if_true, not_true, decide_false, Bool.false_eq_true, if_false] at first ⊢
      omega
    · simp only [whole, if_false, not_false_eq_true, decide_true, if_true] at first ⊢
      omega

theorem scaleAxis_all (positive : 0 < src.toNat) (positive' : 0 < dst.toNat) {deltas : List Int32}
    (fits : ∀ delta ∈ deltas, AxisFits delta src dst) : ∃ results,
      deltas.mapM (scaleAxis · src dst) = some results ∧
        results.map Int32.toInt = deltas.map fun delta => proportion delta.toInt src.toNat dst.toNat := by
  have scaled : (scaleAxis · src dst) = fun delta =>
      pure (Int32.ofInt (proportion delta.toInt src.toNat dst.toNat)) :=
    funext fun delta => scaleAxis_eq delta positive positive'
  refine ⟨_, by rw [scaled]; exact List.mapM_pure, ?_⟩
  rw [List.map_map]
  refine List.map_congr_left fun delta listed => ?_
  exact (toInt_scaleAxis positive positive' (scaleAxis_eq delta positive positive')).mpr (fits delta listed)

/-- However a movement is reported, what its events are scaled to is off the exact proportion
by less than a unit for each of them whose own quotient is no whole number; where all
are, a movement across one side goes across the other. -/
theorem scaleAxis_sum_within (src dst : UInt32) (positive : 0 < src.toNat) (positive' : 0 < dst.toNat)
    (deltas : List Int32) (fits : ∀ delta ∈ deltas, AxisFits delta src dst) :
    ∃ results, deltas.mapM (scaleAxis · src dst) = some results ∧
      ((results.map Int32.toInt).sum * src.toNat - (deltas.map Int32.toInt).sum * dst.toNat).natAbs ≤
        (src.toNat - 1) * deltas.countP (fun delta => ¬ Whole delta src dst) ∧
      ((∀ delta ∈ deltas, Whole delta src dst) → (deltas.map Int32.toInt).sum = src.toNat →
        (results.map Int32.toInt).sum = dst.toNat) := by
  obtain ⟨results, scaled, values⟩ := scaleAxis_all positive positive' fits
  have within := deviation_sum positive positive' deltas
  rw [← values] at within
  refine ⟨results, scaled, within, fun whole across => ?_⟩
  have none : deltas.countP (fun delta => ¬ Whole delta src dst) = 0 := by
    rw [List.countP_eq_zero]
    intro delta listed
    simpa using whole delta listed
  rw [none, across] at within
  have same : (results.map Int32.toInt).sum * src.toNat = dst.toNat * src.toNat := by
    have := Int.mul_comm (src.toNat : Int) dst.toNat
    omega
  exact Int.eq_of_mul_eq_mul_right (by omega) same

theorem scaleAxis_sum_within_halves :
    ∃ results, [2, -6, 3].mapM (scaleAxis · 3840 1920) = some results ∧
      ((results.map Int32.toInt).sum * 3840 - ([2, -6, 3].map Int32.toInt).sum * 1920).natAbs ≤
        (3840 - 1) * [2, -6, 3].countP (fun delta => ¬ Whole delta 3840 1920) ∧
      ((∀ delta ∈ [2, -6, 3], Whole delta 3840 1920) → ([2, -6, 3].map Int32.toInt).sum = 3840 →
        (results.map Int32.toInt).sum = 1920) :=
  scaleAxis_sum_within 3840 1920 (by decide) (by decide) [2, -6, 3] (by
    rw [List.forall_mem_cons, List.forall_mem_cons, List.forall_mem_singleton]
    decide)

/-- One unit after another onto a screen a third as wide: none is scaled away, so they
come to three times as far as they should. -/
theorem smallest_steps_add_up :
    (∀ count, ∃ results, (List.replicate count 1).mapM (scaleAxis · 3840 1280) = some results ∧
      (results.map Int32.toInt).sum = count) ∧
      ¬ ∀ src dst : UInt32, 0 < src.toNat → 0 < dst.toNat → ∃ bound : Nat, ∀ deltas : List Int32,
        ((∀ delta ∈ deltas, 0 ≤ delta.toInt) ∨ ∀ delta ∈ deltas, delta.toInt ≤ 0) →
        ∃ results, deltas.mapM (scaleAxis · src dst) = some results ∧
          ((results.map Int32.toInt).sum * src.toNat - (deltas.map Int32.toInt).sum * dst.toNat).natAbs <
            src.toNat * (1 + bound) := by
  have step : scaleAxis 1 3840 1280 = some 1 := by decide
  have steps : ∀ count, (List.replicate count 1).mapM (scaleAxis · 3840 1280) = some (List.replicate count 1) := by
    intro count
    induction count with
    | zero => rfl
    | succ count ih => rw [List.replicate_succ, List.mapM_cons, step, ih]; rfl
  have sum : ∀ count : Nat, ((List.replicate count (1 : Int32)).map Int32.toInt).sum = count := by
    intro count
    induction count with
    | zero => rfl
    | succ count ih =>
      rw [List.replicate_succ, List.map_cons, List.sum_cons, ih, show (1 : Int32).toInt = 1 from rfl]
      omega
  refine ⟨fun count => ⟨_, steps count, sum count⟩, fun bounded => ?_⟩
  obtain ⟨bound, within⟩ := bounded 3840 1280 (by decide) (by decide)
  have forward : ∀ delta ∈ List.replicate (2 * (1 + bound)) (1 : Int32), 0 ≤ delta.toInt := by
    intro delta listed
    rw [List.eq_of_mem_replicate listed]
    decide
  obtain ⟨results, scaled, close⟩ := within _ (.inl forward)
  rw [steps] at scaled
  cases scaled
  rw [sum] at close
  have far : (((2 * (1 + bound) : Nat) : Int) * 3840 - (2 * (1 + bound) : Nat) * 1280).natAbs <
      3840 * (1 + bound) := close
  omega

end Omnipresent
