import Mathlib.Tactic.Positivity
import Reckoner.Decimal.Shortest
import Reckoner.Proofs.Number.Grid

/-!
Decimals of a given number of digits around a double. The decimal of seventeen or more digits that
is nearest to a double reads back as that double, so the shortest one that reads back always
exists.
-/
namespace Reckoner.Decimal

/-! Leading exponents. -/

theorem width_pos (n : Nat) : 0 < width n := List.length_pos_iff.mpr Nat.toDigits_ne_nil

theorem lt_ten_pow_width (n : Nat) : n < 10 ^ width n :=
  (Nat.length_toDigits_le_iff (by decide) (width_pos n)).mp (Nat.le_refl _)

theorem ten_pow_width_le {n : Nat} (positive : 0 < n) : 10 ^ (width n - 1) ≤ n := by
  by_cases single : width n - 1 = 0
  · rw [single]
    exact positive
  · have shorter : ¬width n ≤ width n - 1 := by omega
    have cut := (Nat.length_toDigits_le_iff (b := 10) (n := n) (by decide)
      (Nat.pos_of_ne_zero single)).not.mp shorter
    omega

theorem ten_zpow_le_div_iff (numerator : Nat) {denominator : Nat} (positive : 0 < denominator)
    (exponent : Int) : (10 : ℚ) ^ exponent ≤ numerator / denominator ↔
      denominator * 10 ^ exponent.toNat ≤ numerator * 10 ^ (-exponent).toNat := by
  have positive' : (0 : ℚ) < denominator := by exact_mod_cast positive
  rw [ten_zpow, div_le_div_iff₀ (by positivity) positive', mul_comm]
  exact_mod_cast Iff.rfl

theorem div_between {numerator denominator : Nat} (positive : 0 < numerator)
    (positive' : 0 < denominator) :
    (10 : ℚ) ^ ((width numerator : Int) - width denominator - 1) < numerator / denominator ∧
      (numerator / denominator : ℚ) < 10 ^ ((width numerator : Int) - width denominator + 1) := by
  have above : (numerator : ℚ) < 10 ^ (width numerator : Int) := by
    exact_mod_cast lt_ten_pow_width numerator
  have above' : (denominator : ℚ) < 10 ^ (width denominator : Int) := by
    exact_mod_cast lt_ten_pow_width denominator
  have below : (10 : ℚ) ^ ((width numerator : Int) - 1) ≤ numerator := by
    have cast : ((width numerator : Int) - 1) = ((width numerator - 1 : Nat) : Int) := by
      have := width_pos numerator
      omega
    rw [cast, zpow_natCast]
    exact_mod_cast ten_pow_width_le positive
  have below' : (10 : ℚ) ^ ((width denominator : Int) - 1) ≤ denominator := by
    have cast : ((width denominator : Int) - 1) = ((width denominator - 1 : Nat) : Int) := by
      have := width_pos denominator
      omega
    rw [cast, zpow_natCast]
    exact_mod_cast ten_pow_width_le positive'
  have divisor : (0 : ℚ) < denominator := by exact_mod_cast positive'
  constructor
  · rw [lt_div_iff₀ divisor]
    calc (10 : ℚ) ^ ((width numerator : Int) - width denominator - 1) * denominator
        < 10 ^ ((width numerator : Int) - width denominator - 1) * 10 ^ (width denominator : Int) :=
          mul_lt_mul_of_pos_left above' (by positivity)
      _ = 10 ^ ((width numerator : Int) - 1) := by
          rw [← zpow_add₀ (by norm_num)]
          congr 1
          ring
      _ ≤ numerator := below
  · rw [div_lt_iff₀ divisor]
    calc (numerator : ℚ)
        < 10 ^ (width numerator : Int) := above
      _ = 10 ^ ((width numerator : Int) - width denominator + 1) *
            10 ^ ((width denominator : Int) - 1) := by
          rw [← zpow_add₀ (by norm_num)]
          congr 1
          ring
      _ ≤ 10 ^ ((width numerator : Int) - width denominator + 1) * denominator :=
          mul_le_mul_of_nonneg_left below' (by positivity)

theorem leadingExponent_between {numerator denominator : Nat} (positive : 0 < numerator)
    (positive' : 0 < denominator) :
    (10 : ℚ) ^ leadingExponent numerator denominator ≤ numerator / denominator ∧
      (numerator / denominator : ℚ) < 10 ^ (leadingExponent numerator denominator + 1) := by
  obtain ⟨lower, upper⟩ := div_between positive positive'
  have decided := ten_zpow_le_div_iff numerator positive'
    ((width numerator : Int) - width denominator)
  simp only [leadingExponent, Nat.pow_eq]
  split
  next large => exact ⟨decided.mpr large, upper⟩
  next small =>
    refine ⟨lower.le, ?_⟩
    rw [Int.sub_add_cancel]
    exact lt_of_not_ge fun large => small (decided.mp large)

/-! Rounding to a number of digits. -/

theorem inSteps_div (scale : Int) (numerator denominator : Nat) :
    ((inSteps scale numerator denominator).1 : ℚ) / (inSteps scale numerator denominator).2 =
      numerator / denominator / 10 ^ scale := by
  rw [ten_zpow]
  simp only [inSteps, Nat.pow_eq]
  push_cast
  rw [div_div_div_eq]

theorem stepsTo_ofQuotient (count numerator : Nat) {denominator : Nat}
    (positive : 0 < denominator) :
    Binary64.StepsTo (10 ^ (ofQuotient count numerator denominator).scale) (numerator / denominator)
      (ofQuotient count numerator denominator).coefficient := by
  have coefficient : (ofQuotient count numerator denominator).coefficient =
      Binary64.divideToEven
        (inSteps (ofQuotient count numerator denominator).scale numerator denominator).1
        (inSteps (ofQuotient count numerator denominator).scale numerator denominator).2 := rfl
  rw [coefficient]
  generalize (ofQuotient count numerator denominator).scale = scale
  have power : (0 : ℚ) < 10 ^ scale := by positivity
  have divisor : 0 < (inSteps scale numerator denominator).2 :=
    Nat.mul_pos positive (Nat.pow_pos (by decide))
  apply Binary64.stepsTo_divideToEven _ divisor power
  rw [inSteps_div, div_mul_cancel₀ _ power.ne']

/-! Seventeen digits. -/

/-- A decimal whose distance from a finite double is less than the fraction `2^-54` of it reads back
as that double. -/
theorem nearestRank_of_close {d : Decimal} {place : Nat} (finite : place < Binary64.infinityRank)
    (close : 2 ^ 54 * |d.value - Binary64.unitsAt place / Binary64.unitsPerOne| <
      (Binary64.unitsAt place / Binary64.unitsPerOne : ℚ)) : d.nearestRank = place := by
  have positive := unitsPerOne_pos
  rw [nearestRank]
  generalize Binary64.unitsPerOne = unit at *
  have unit' : (0 : ℚ) < unit := by exact_mod_cast positive
  have divisor : (0 : ℚ) < d.denominator := by exact_mod_cast d.denominator_pos
  rw [value_eq] at close
  obtain ⟨exact, same⟩ : ∃ exact : ℚ, exact = Binary64.unitsAt place / unit :=
    ⟨_, rfl⟩
  obtain ⟨rounded, same'⟩ : ∃ rounded : ℚ, rounded = d.numerator / d.denominator := ⟨_, rfl⟩
  rw [← same, ← same'] at close
  have bounds := abs_lt.mp (show |rounded - exact| < exact / 2 ^ 54 by linarith)
  have units : (Binary64.unitsAt place : ℚ) = exact * unit := by
    rw [same, div_mul_cancel₀ _ unit'.ne']
  have numerator : (d.numerator : ℚ) = rounded * d.denominator := by
    rw [same', div_mul_cancel₀ _ divisor.ne']
  have common : (0 : ℚ) < unit * d.denominator := mul_pos unit' divisor
  apply Binary64.nearestRank_of_near d.denominator_pos finite
  · have lower : (2 ^ 54 * exact) * (unit * d.denominator) <
        (2 ^ 54 * rounded + exact) * (unit * d.denominator) :=
      mul_lt_mul_of_pos_right (by linarith [bounds.1]) common
    have lower' : 2 ^ 54 * (Binary64.unitsAt place * d.denominator : ℚ) <
        2 ^ 54 * (d.numerator * unit) + Binary64.unitsAt place * d.denominator := by
      rw [units, numerator]
      linarith
    exact_mod_cast lower'
  · have upper : (2 ^ 54 * rounded) * (unit * d.denominator) <
        (2 ^ 54 * exact + exact) * (unit * d.denominator) :=
      mul_lt_mul_of_pos_right (by linarith [bounds.2]) common
    have upper' : 2 ^ 54 * (d.numerator * unit : ℚ) <
        2 ^ 54 * (Binary64.unitsAt place * d.denominator) +
          Binary64.unitsAt place * d.denominator := by
      rw [units, numerator]
      linarith
    exact_mod_cast upper'

theorem unitsAt_pos {place : Nat} (positive : 0 < place) : 0 < Binary64.unitsAt place := by
  obtain ⟨scale, significand, ranked, units, _, full⟩ := Binary64.exists_scale place
  have nonzero : 0 < significand := by omega
  rw [units]
  positivity

theorem two_pow_mul_lt_of_near {step distance value : ℚ} (positive : 0 < step)
    (leading : step ≤ value) (near : distance ≤ step / 10 ^ (16 : Int) / 2) :
    2 ^ 54 * distance < value := by
  norm_num at near
  linarith

theorem nearestRank_ofQuotient {place count : Nat} (positive : 0 < place)
    (finite : place < Binary64.infinityRank) (enough : 17 ≤ count) :
    (ofQuotient count (Binary64.unitsAt place) Binary64.unitsPerOne).nearestRank = place := by
  apply nearestRank_of_close finite
  have near := (stepsTo_ofQuotient count (Binary64.unitsAt place) unitsPerOne_pos).near
  have leading := (leadingExponent_between (unitsAt_pos positive) unitsPerOne_pos).1
  have scale : (ofQuotient count (Binary64.unitsAt place) Binary64.unitsPerOne).scale =
      leadingExponent (Binary64.unitsAt place) Binary64.unitsPerOne - (count - 1 : Nat) := rfl
  have power : (0 : ℚ) < 10 ^ leadingExponent (Binary64.unitsAt place) Binary64.unitsPerOne := by
    positivity
  have fine : (10 : ℚ) ^ (ofQuotient count (Binary64.unitsAt place) Binary64.unitsPerOne).scale ≤
      10 ^ leadingExponent (Binary64.unitsAt place) Binary64.unitsPerOne / 10 ^ (16 : Int) := by
    rw [scale, ← zpow_sub₀ (by norm_num)]
    exact zpow_le_zpow_right₀ (by norm_num) (by omega)
  exact two_pow_mul_lt_of_near power leading (near.trans (by linarith))

/-! The shortest decimal that reads back. -/

theorem nearestRank_of_readingBack {place count : Nat} {d : Decimal}
    (found : readingBack place count = some d) : d.nearestRank = place := by
  have test := List.find?_some found
  exact of_decide_eq_true test

theorem exists_readingBack {place : Nat} (positive : 0 < place)
    (finite : place < Binary64.infinityRank) :
    ∃ d, readingBack place 17 = some d := by
  rw [← Option.isSome_iff_exists, readingBack, List.find?_isSome]
  exact ⟨ofQuotient 17 (Binary64.unitsAt place) Binary64.unitsPerOne, List.mem_cons_self,
    decide_eq_true (nearestRank_ofQuotient positive finite (by decide))⟩

theorem nearestRank_shortest {place : Nat} (finite : place < Binary64.infinityRank) :
    (shortest place).nearestRank = place := by
  rw [shortest]
  split
  next zero =>
    rw [zero]
    exact nearestRank_of_coefficient_eq_zero rfl
  next nonzero =>
    obtain ⟨long, found⟩ := exists_readingBack (Nat.pos_of_ne_zero nonzero) finite
    cases chosen : (List.range' 1 17).findSome? (readingBack place) with
    | none =>
      have missing := List.findSome?_eq_none_iff.mp chosen 17 (by decide)
      rw [found] at missing
      cases missing
    | some d =>
      obtain ⟨count, _, read⟩ := List.exists_of_findSome?_eq_some chosen
      exact nearestRank_of_readingBack read

end Reckoner.Decimal
