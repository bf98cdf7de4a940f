import Reckoner.Log.Timestamp
import Reckoner.Proofs.Number.Order

/-!
How seconds become whole microseconds. The whole seconds are exact; what is left of a second is
scaled in doubles, so that a product just beside the middle between two microseconds may be rounded
to it. Neither rounding changes the order of two times.
-/
namespace Reckoner.Log

open Binary64

/-- The whole number next to a value on the side of zero. -/
def truncate (exact : ℚ) : ℤ := if 0 ≤ exact then ⌊exact⌋ else ⌈exact⌉

/-- The microseconds that are shown for a number of seconds: those of the whole seconds, and those
of the fraction, scaled to a double and rounded to the nearest whole number. -/
structure Ticks (seconds : Float) (count : ℤ) : Prop where
  finite : isFinite seconds = true
  rounded : ∃ scaled, IsNearest ((value seconds - truncate (value seconds)) * 1000000) scaled ∧
    NearestWhole (truncate (value seconds) * 1000000 + value scaled) count

/-! Whole seconds. -/

section

variable {exact exact' : ℚ}

theorem truncate_of_nonneg (nonneg : 0 ≤ exact) :
    0 ≤ exact - truncate exact ∧ exact - truncate exact < 1 := by
  rw [truncate, if_pos nonneg]
  exact ⟨Int.fract_nonneg exact, Int.fract_lt_one exact⟩

theorem truncate_of_neg (negative : exact < 0) :
    -1 < exact - truncate exact ∧ exact - truncate exact ≤ 0 := by
  rw [truncate, if_neg (not_le.mpr negative)]
  have above := Int.ceil_lt_add_one exact
  have below := Int.le_ceil exact
  constructor <;> linarith

theorem abs_sub_truncate (exact : ℚ) : |exact - truncate exact| < 1 := by
  rw [abs_lt]
  rcases le_or_gt 0 exact with nonneg | negative
  · obtain ⟨lower, upper⟩ := truncate_of_nonneg nonneg
    exact ⟨by linarith, upper⟩
  · obtain ⟨lower, upper⟩ := truncate_of_neg negative
    exact ⟨lower, by linarith⟩

theorem truncate_le_truncate (order : exact ≤ exact') : truncate exact ≤ truncate exact' := by
  unfold truncate
  split <;> split
  next => exact Int.floor_le_floor order
  next nonneg negative => exact absurd (nonneg.trans order) negative
  next negative nonneg =>
    have low : ⌈exact⌉ ≤ 0 := Int.ceil_le.mpr (by exact_mod_cast (not_le.mp negative).le)
    exact low.trans (Int.floor_nonneg.mpr nonneg)
  next => exact Int.ceil_le_ceil order

end

theorem truncate_value (seconds : Float) :
    truncate (value seconds) = (units seconds).tdiv unitsPerOne := by
  have positive := cast_unitsPerOne_pos
  unfold truncate
  split
  next nonneg =>
    have whole : 0 ≤ units seconds := by
      rw [value, le_div_iff₀ positive, zero_mul] at nonneg
      exact_mod_cast nonneg
    rw [floor_value, Int.tdiv_eq_ediv_of_nonneg whole]
  next negative =>
    have whole : 0 ≤ -units seconds := by
      rw [value, le_div_iff₀ positive, zero_mul, not_le] at negative
      exact (Int.neg_pos_of_neg (by exact_mod_cast negative)).le
    have turned : value seconds = -(((-units seconds : ℤ) : ℚ) / unitsPerOne) := by
      rw [value, Int.cast_neg, neg_div, neg_neg]
    have floor : ⌊((-units seconds : ℤ) : ℚ) / unitsPerOne⌋ = -units seconds / unitsPerOne :=
      Rat.floor_intCast_div_natCast _ _
    rw [turned, Int.ceil_neg, floor, ← Int.tdiv_eq_ediv_of_nonneg whole, Int.neg_tdiv, neg_neg]

/-! The microseconds of the program. -/

namespace Timestamp

def fraction (seconds : Float) : ℤ :=
  (units seconds - (units seconds).tdiv unitsPerOne * unitsPerOne) * 1000000

theorem fraction_eq (seconds : Float) : (fraction seconds : ℚ) / unitsPerOne =
    (value seconds - truncate (value seconds)) * 1000000 := by
  have positive := cast_unitsPerOne_pos.ne'
  rw [truncate_value, fraction, value]
  generalize (units seconds).tdiv unitsPerOne = whole
  push_cast
  generalize (unitsPerOne : ℚ) = unit at positive ⊢
  field_simp

theorem million_lt_overflow : (1000000 : ℚ) < overflow :=
  lt_trans (by norm_num) two_pow_lt_overflow

theorem isNearest_scaled (seconds : Float) :
    IsNearest ((value seconds - truncate (value seconds)) * 1000000)
      (ofUnits (fraction seconds)) := by
  have rounds := rounds_ofUnits (fraction seconds)
  rw [fraction_eq] at rounds
  have small : |(value seconds - truncate (value seconds)) * 1000000| < overflow := by
    rw [abs_mul]
    have part := abs_sub_truncate (value seconds)
    have large := million_lt_overflow
    norm_num
    linarith
  rwa [Rounds, if_pos small] at rounds

theorem nearestWhole_rounded (x : Float) :
    NearestWhole (value x) (if isNegative x then -(divideToEven (magnitude x) unitsPerOne : ℤ)
      else divideToEven (magnitude x) unitsPerOne) := by
  have nearest := nearestWhole_divideToEven (magnitude x) Decimal.unitsPerOne_pos
  rw [value_eq_sign_mul]
  generalize unitsPerOne = unit at nearest ⊢
  cases isNegative x with
  | false => simpa [sign] using nearest
  | true => simpa [sign] using nearest.neg

theorem ticks_microseconds {seconds : Float} (finite : isFinite seconds = true) :
    Ticks seconds (microseconds seconds) := by
  refine ⟨finite, ofUnits (fraction seconds), isNearest_scaled seconds, ?_⟩
  have even : Even (truncate (value seconds) * 1000000) := Even.mul_left (by decide) _
  have nearest := (nearestWhole_rounded (ofUnits (fraction seconds))).add_even even
  rw [truncate_value] at nearest ⊢
  push_cast at nearest ⊢
  exact nearest

end Timestamp

/-! The order of times. -/

section

variable {seconds seconds' : Float} {count count' : ℤ}

theorem abs_scaled_le {scaled : Float}
    (nearest : IsNearest ((value seconds - truncate (value seconds)) * 1000000) scaled) :
    |value scaled| ≤ 1000000 := by
  obtain ⟨lower, upper⟩ := abs_lt.mp (abs_sub_truncate (value seconds))
  have below : value scaled ≤ (1000000 : ℤ) :=
    nearest.le_of_le (by decide) (by push_cast; linarith)
  have above : (-1000000 : ℤ) ≤ value scaled :=
    nearest.le_of_ge (by decide) (by push_cast; linarith)
  push_cast at below above
  exact abs_le.mpr ⟨above, below⟩

theorem scaled_nonneg {scaled : Float}
    (nearest : IsNearest ((value seconds - truncate (value seconds)) * 1000000) scaled)
    (nonneg : 0 ≤ value seconds) : 0 ≤ value scaled := by
  have part := (truncate_of_nonneg nonneg).1
  have bound : (0 : ℤ) ≤ value scaled := nearest.le_of_ge (by decide) (by push_cast; linarith)
  exact_mod_cast bound

theorem scaled_nonpos {scaled : Float}
    (nearest : IsNearest ((value seconds - truncate (value seconds)) * 1000000) scaled)
    (negative : value seconds < 0) : value scaled ≤ 0 := by
  have part := (truncate_of_neg negative).2
  have bound : value scaled ≤ (0 : ℤ) := nearest.le_of_le (by decide) (by push_cast; linarith)
  exact_mod_cast bound

theorem Ticks.le (ticks : Ticks seconds count) (ticks' : Ticks seconds' count')
    (order : value seconds ≤ value seconds') : count ≤ count' := by
  obtain ⟨_, scaled, nearest, rounded⟩ := ticks
  obtain ⟨_, scaled', nearest', rounded'⟩ := ticks'
  refine rounded.le rounded' ?_
  rcases (truncate_le_truncate order).lt_or_eq with earlier | same
  · have next : (truncate (value seconds) : ℚ) + 1 ≤ truncate (value seconds') := by
      exact_mod_cast earlier
    have most := (abs_le.mp (abs_scaled_le nearest)).2
    have least := (abs_le.mp (abs_scaled_le nearest')).1
    -- Of two fractions in different seconds only one can point away from zero.
    rcases le_or_gt 0 (value seconds) with nonneg | negative
    · have nonneg' := scaled_nonneg nearest' (nonneg.trans order)
      linarith
    · have nonpos := scaled_nonpos nearest negative
      linarith
  · have fractions := nearest.value_le nearest' (by rw [same]; linarith)
    rw [same]
    linarith

theorem Ticks.eq (ticks : Ticks seconds count) (ticks' : Ticks seconds count') : count = count' :=
  le_antisymm (ticks.le ticks' le_rfl) (ticks'.le ticks le_rfl)

/-! The distance from the exact time. -/

theorem abs_fraction_le (seconds : Float) :
    |Timestamp.fraction seconds| ≤ 2 ^ 53 * unitsPerOne := by
  have positive := cast_unitsPerOne_pos
  have part := abs_sub_truncate (value seconds)
  have scaled := congrArg abs (Timestamp.fraction_eq seconds)
  rw [abs_div, abs_of_pos positive, div_eq_iff positive.ne', abs_mul] at scaled
  have bound : |(Timestamp.fraction seconds : ℚ)| ≤ 2 ^ 53 * unitsPerOne := by
    rw [scaled]
    exact mul_le_mul_of_nonneg_right (by norm_num; linarith) positive.le
  exact_mod_cast bound

theorem lt_scale_of_late {significand : ℤ} {scale length : ℕ} (short : |significand| < 2 ^ 53)
    (late : 2 ^ 13 * 2 ^ length ≤ (significand * 2 ^ scale).natAbs) : length + 13 < scale + 53 := by
  rw [Int.natAbs_mul, Int.natAbs_pow, ← Nat.pow_add] at late
  have short' : significand.natAbs < 2 ^ 53 := by
    zify
    exact short
  have less : 2 ^ (13 + length) < 2 ^ (53 + scale) := by
    rw [Nat.pow_add 2 53]
    exact Nat.lt_of_le_of_lt late ((Nat.mul_lt_mul_right (Nat.pow_pos (by decide))).mpr short')
  have exponents := (Nat.pow_lt_pow_iff_right (by decide)).mp less
  omega

theorem short_rest (significand : ℤ) {scale length : ℕ} (few : length < scale + 40) :
    Short ((significand * 2 ^ scale -
      (significand * 2 ^ scale).tdiv (2 ^ length) * 2 ^ length) * 1000000) := by
  by_cases coarse : length ≤ scale
  · -- There is no fraction at all.
    obtain ⟨more, rfl⟩ := Nat.exists_eq_add_of_le coarse
    have positive : (2 ^ length : ℤ) ≠ 0 := by positivity
    have split : significand * 2 ^ (length + more) = significand * 2 ^ more * 2 ^ length := by ring
    rw [split, Int.mul_tdiv_cancel _ positive, sub_self, zero_mul]
    exact ⟨0, 0, by norm_num, by norm_num⟩
  · obtain ⟨places, rfl⟩ := Nat.exists_eq_add_of_le (Nat.le_of_not_le coarse)
    have positive : (0 : ℤ) < 2 ^ places := by positivity
    have split : (2 ^ (scale + places) : ℤ) = 2 ^ places * 2 ^ scale := by ring
    have rest := Int.tmod_def significand (2 ^ places)
    have small : |significand.tmod (2 ^ places)| < 2 ^ 39 := by
      have less : |significand.tmod (2 ^ places)| < 2 ^ places :=
        abs_lt.mpr ⟨Int.lt_tmod_of_pos _ positive, Int.tmod_lt_of_pos _ positive⟩
      exact less.trans_le (pow_le_pow_right₀ (by norm_num) (by omega))
    refine ⟨significand.tmod (2 ^ places) * 15625, scale + 6, ?_, ?_⟩
    · rw [abs_mul]
      norm_num at small ⊢
      omega
    · rw [split, Int.mul_tdiv_mul_of_pos_left _ _ (by positivity), rest]
      ring

/-- From `2^13` seconds on, the places that are left for a fraction of a second are so few that it
is still a double when it is scaled. -/
theorem short_fraction (late : 2 ^ 13 * unitsPerOne ≤ (units seconds).natAbs) :
    Short (Timestamp.fraction seconds) := by
  obtain ⟨length, _, one⟩ := Decimal.exists_unitsPerOne
  obtain ⟨significand, scale, short, same⟩ := short_units seconds
  have one' : (unitsPerOne : ℤ) = 2 ^ length := by
    rw [one, Nat.pow_eq]
    push_cast
    rfl
  rw [one, Nat.pow_eq, same] at late
  have few := lt_scale_of_late short late
  rw [Timestamp.fraction, one', same]
  exact short_rest significand (by omega)

theorem Ticks.nearest (ticks : Ticks seconds count) (late : 2 ^ 13 ≤ |value seconds|) :
    NearestWhole (value seconds * 1000000) count := by
  obtain ⟨_, scaled, nearest, rounded⟩ := ticks
  have late' : 2 ^ 13 * unitsPerOne ≤ (units seconds).natAbs := by
    rw [abs_value, le_div_iff₀ cast_unitsPerOne_pos] at late
    rw [natAbs_units]
    exact_mod_cast late
  obtain ⟨finite, exact⟩ := units_ofUnits (short_fraction late') (abs_fraction_le seconds)
  have same := nearest.value_eq_of_double finite (by
    rw [value, exact, Timestamp.fraction_eq])
  rw [same] at rounded
  have whole : (truncate (value seconds) : ℚ) * 1000000 +
      (value seconds - truncate (value seconds)) * 1000000 = value seconds * 1000000 := by ring
  rwa [whole] at rounded

/-- Among the microseconds of a second doubles lie as close together as the thirty-third binary
place. -/
theorem exists_near {exact : ℚ} (small : |exact| < 1000000) :
    ∃ y, isFinite y = true ∧ |value y - exact| ≤ 1 / 2 ^ 34 := by
  have rounded : |exact * 2 ^ 33 - round (exact * 2 ^ 33)| ≤ 1 / 2 := abs_sub_round _
  have near := abs_le.mp rounded
  obtain ⟨lower, upper⟩ := abs_lt.mp small
  have short : |round (exact * 2 ^ 33)| < 2 ^ 53 := by
    have bound : |(round (exact * 2 ^ 33) : ℚ)| < 2 ^ 53 := by
      rw [abs_lt]
      constructor <;> norm_num at near ⊢ <;> linarith [near.1, near.2]
    exact_mod_cast bound
  obtain ⟨y, finite, same⟩ := exists_value_eq short 33 (by decide)
  refine ⟨y, finite, ?_⟩
  rw [same, abs_le]
  constructor <;> norm_num at near ⊢ <;> linarith [near.1, near.2]

/-- The microsecond that is shown is as near to the exact time as half a microsecond, but for a
rounding in the thirty-fourth binary place. -/
theorem Ticks.near (ticks : Ticks seconds count) :
    |count - value seconds * 1000000| ≤ 1 / 2 + 1 / 2 ^ 34 := by
  obtain ⟨_, scaled, nearest, rounded⟩ := ticks
  have part := abs_sub_truncate (value seconds)
  have small : |(value seconds - truncate (value seconds)) * 1000000| < 1000000 := by
    rw [abs_mul]
    norm_num
    linarith
  obtain ⟨y, finite, close⟩ := exists_near small
  have scaling := abs_le.mp ((nearest.nearest y finite).trans close)
  have rounding := abs_le.mp rounded.near
  rw [abs_le]
  constructor <;> linarith [scaling.1, scaling.2, rounding.1, rounding.2]

end

end Reckoner.Log
