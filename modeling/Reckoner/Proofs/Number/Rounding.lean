import Mathlib.Tactic.Linarith
import Reckoner.Binary64.Basic

/-!
Rounding to the nearest double. The rounded rank depends on the value of the quotient alone, and a
quotient that is near enough to a double is rounded to its rank.
-/
namespace Reckoner.Binary64

/-! Rounded quotients. -/

theorem divideToEven_eq {numerator denominator whole : Nat}
    (lower : 2 * (denominator * whole) < 2 * numerator + denominator)
    (upper : 2 * numerator < 2 * (denominator * whole) + denominator) :
    divideToEven numerator denominator = whole := by
  have positive : 0 < denominator := by
    apply Nat.pos_of_ne_zero
    rintro rfl
    omega
  have above := divideToEven_le numerator denominator
  have below : 2 * numerator ≤
      2 * (denominator * divideToEven numerator denominator) + denominator :=
    le_divideToEven positive
  apply Nat.le_antisymm
  · apply Nat.le_of_lt_succ
    apply Nat.lt_of_mul_lt_mul_left (a := denominator)
    rw [Nat.mul_succ]
    omega
  · apply Nat.le_of_lt_succ
    apply Nat.lt_of_mul_lt_mul_left (a := denominator)
    rw [Nat.mul_succ]
    omega

theorem divideToEven_mul_right (numerator denominator : Nat) {factor : Nat}
    (positive : 0 < factor) :
    divideToEven (numerator * factor) (denominator * factor) =
      divideToEven numerator denominator := by
  have twice : 2 * (numerator * factor % (denominator * factor)) =
      2 * (numerator % denominator) * factor := by
    rw [Nat.mul_mod_mul_right, Nat.mul_assoc]
  simp only [divideToEven, Nat.mul_div_mul_right _ _ positive, twice,
    Nat.mul_lt_mul_right positive]

/-! Rounded ranks. -/

theorem nearestRank_mul_right (numerator denominator : Nat) {factor : Nat}
    (positive : 0 < factor) :
    nearestRank (numerator * factor) (denominator * factor) =
      nearestRank numerator denominator := by
  simp only [nearestRank, Nat.mul_div_mul_right _ _ positive, Nat.mul_right_comm _ factor,
    divideToEven_mul_right _ _ positive]

theorem nearestRank_congr {numerator denominator numerator' denominator' : Nat}
    (positive : 0 < denominator) (positive' : 0 < denominator')
    (same : numerator * denominator' = numerator' * denominator) :
    nearestRank numerator denominator = nearestRank numerator' denominator' := by
  rw [← nearestRank_mul_right numerator denominator positive',
    ← nearestRank_mul_right numerator' denominator' positive, same,
    Nat.mul_comm denominator denominator']

theorem nearestRank_of_excess {numerator denominator scale whole : Nat}
    (excess : (numerator / denominator).log2 - 52 = scale)
    (lower : 2 * (denominator * 2 ^ scale * whole) < 2 * numerator + denominator * 2 ^ scale)
    (upper : 2 * numerator < 2 * (denominator * 2 ^ scale * whole) + denominator * 2 ^ scale) :
    nearestRank numerator denominator = min infinityRank (scale * 2 ^ 52 + whole) := by
  simp only [nearestRank, excess, Nat.pow_eq, divideToEven_eq lower upper]

theorem excess_eq_zero {quotient : Nat} (small : quotient < 2 ^ 53) : quotient.log2 - 52 = 0 := by
  by_cases zero : quotient = 0
  · rw [zero]
    rfl
  · have := (Nat.log2_lt zero).mpr small
    omega

theorem excess_eq {quotient scale : Nat} (lower : 2 ^ (52 + scale) ≤ quotient)
    (upper : quotient < 2 ^ (53 + scale)) : quotient.log2 - 52 = scale := by
  have nonzero : quotient ≠ 0 :=
    Nat.ne_of_gt (Nat.lt_of_lt_of_le (Nat.pow_pos (by decide)) lower)
  have := (Nat.le_log2 nonzero).mpr lower
  have := (Nat.log2_lt nonzero).mpr upper
  omega

theorem nearestRank_eq_zero {numerator denominator : Nat} (small : 2 * numerator < denominator) :
    nearestRank numerator denominator = 0 := by
  have none : numerator / denominator = 0 := Nat.div_eq_of_lt (by omega)
  have rounded : nearestRank numerator denominator = min infinityRank (0 * 2 ^ 52 + 0) :=
    nearestRank_of_excess (by rw [none]; rfl) (by omega) (by omega)
  rw [rounded, Nat.zero_mul, Nat.min_zero]

theorem nearestRank_eq_infinityRank {numerator denominator length : Nat}
    (positive : 0 < denominator) (far : 2099 ≤ length)
    (large : 2 ^ length * denominator ≤ numerator) :
    nearestRank numerator denominator = infinityRank := by
  have quotient : 2 ^ length ≤ numerator / denominator := (Nat.le_div_iff_mul_le positive).mpr large
  have nonzero : numerator / denominator ≠ 0 :=
    Nat.ne_of_gt (Nat.lt_of_lt_of_le (Nat.pow_pos (by decide)) quotient)
  have long : length ≤ (numerator / denominator).log2 := (Nat.le_log2 nonzero).mpr quotient
  have excess : 2047 * Nat.pow 2 52 ≤ ((numerator / denominator).log2 - 52) * Nat.pow 2 52 :=
    Nat.mul_le_mul_right _ (by omega)
  exact Nat.min_eq_left (Nat.le_trans excess (Nat.le_add_right _ _))

/-- Every rank has a scale and a significand of at most 53 bits, which are all in use unless the
scale is the least one. -/
theorem exists_scale (place : Nat) : ∃ scale significand,
    place = scale * 2 ^ 52 + significand ∧ unitsAt place = significand * 2 ^ scale ∧
      significand < 2 ^ 53 ∧ (scale = 0 ∨ 2 ^ 52 ≤ significand) := by
  by_cases small : place < 2 ^ 52
  · refine ⟨0, place, by omega, ?_, by omega, Or.inl rfl⟩
    rw [unitsAt, Nat.pow_eq, if_pos small, Nat.pow_zero, Nat.mul_one]
  · refine ⟨place / 2 ^ 52 - 1, 2 ^ 52 + place % 2 ^ 52, by omega, ?_, by omega, by omega⟩
    rw [unitsAt, Nat.pow_eq, if_neg small, Nat.pow_eq]

theorem excess_of_steps {numerator denominator scale step : Nat} (positive : 0 < denominator)
    (stepped : step = denominator * 2 ^ scale) (lower : scale = 0 ∨ 2 ^ 52 * step ≤ numerator)
    (upper : numerator < 2 ^ 53 * step) : (numerator / denominator).log2 - 52 = scale := by
  have high : numerator / denominator < 2 ^ (53 + scale) := by
    apply Nat.div_lt_of_lt_mul
    rw [Nat.pow_add, ← Nat.mul_assoc, Nat.mul_right_comm, ← stepped, Nat.mul_comm]
    exact upper
  rcases lower with rfl | lower
  · exact excess_eq_zero high
  · refine excess_eq ?_ high
    rw [Nat.le_div_iff_mul_le positive, Nat.pow_add, Nat.mul_assoc, Nat.mul_comm _ denominator,
      ← stepped]
    exact lower

/-- A quotient whose distance from a finite double is less than the fraction `2^-54` of it is
rounded to that double. -/
theorem nearestRank_of_near {numerator denominator place : Nat} (positive : 0 < denominator)
    (finite : place < infinityRank)
    (lower : 2 ^ 54 * (unitsAt place * denominator) <
      2 ^ 54 * numerator + unitsAt place * denominator)
    (upper : 2 ^ 54 * numerator <
      2 ^ 54 * (unitsAt place * denominator) + unitsAt place * denominator) :
    nearestRank numerator denominator = place := by
  obtain ⟨scale, significand, ranked, units, below, full⟩ := exists_scale place
  have finite' : min infinityRank place = place := Nat.min_eq_right (Nat.le_of_lt finite)
  -- The step between doubles of this scale, and the double itself, over the common denominator.
  obtain ⟨step, stepped⟩ : ∃ step, step = denominator * 2 ^ scale := ⟨_, rfl⟩
  have exact : unitsAt place * denominator = step * significand := by
    rw [units, stepped]
    ac_rfl
  rw [exact] at lower upper
  have most : step * significand ≤ step * (2 ^ 53 - 1) := Nat.mul_le_mul_left step (by omega)
  by_cases regular : scale = 0 ∨ 2 ^ 52 * step ≤ numerator
  · have excess := excess_of_steps positive stepped regular (by omega)
    have rounded : nearestRank numerator denominator =
        min infinityRank (scale * 2 ^ 52 + significand) :=
      nearestRank_of_excess excess (by rw [← stepped]; omega) (by rw [← stepped]; omega)
    rw [rounded, ← ranked, finite']
  · -- The quotient lies below a power of two, where the steps are half as long.
    obtain ⟨larger, less⟩ := not_or.mp regular
    obtain ⟨finer, rfl⟩ := Nat.exists_eq_succ_of_ne_zero larger
    have least : significand = 2 ^ 52 := by
      by_contra other
      have more : step * (2 ^ 52 + 1) ≤ step * significand :=
        Nat.mul_le_mul_left step (by omega)
      omega
    subst least
    obtain ⟨half, halved⟩ : ∃ half, half = denominator * 2 ^ finer := ⟨_, rfl⟩
    have twice : step = 2 * half := by
      rw [stepped, halved, Nat.pow_succ]
      ac_rfl
    have excess : (numerator / denominator).log2 - 52 = finer :=
      excess_of_steps positive halved (Or.inr (by omega)) (by omega)
    have rounded : nearestRank numerator denominator =
        min infinityRank (finer * 2 ^ 52 + 2 ^ 53) :=
      nearestRank_of_excess excess (by rw [← halved]; omega) (by rw [← halved]; omega)
    have carried : finer * 2 ^ 52 + 2 ^ 53 = place := by omega
    rw [rounded, carried, finite']

end Reckoner.Binary64
