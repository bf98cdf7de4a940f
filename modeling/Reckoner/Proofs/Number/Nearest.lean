import Mathlib.Algebra.Order.Field.Power
import Mathlib.Tactic.FieldSimp
import Mathlib.Tactic.NormNum
import Mathlib.Tactic.Ring
import Reckoner.Decimal.Basic
import Reckoner.Proofs.Number.Rounding

/-!
The double nearest to a decimal depends on the value of the decimal alone, and the bounds on far
exponents change nothing about it.
-/
namespace Reckoner.Decimal

def value (d : Decimal) : ℚ := d.coefficient * 10 ^ d.scale

theorem ten_zpow (scale : Int) :
    (10 : ℚ) ^ scale = 10 ^ scale.toNat / 10 ^ (-scale).toNat := by
  rcases Int.le_total 0 scale with whole | fraction
  · have none : (-scale).toNat = 0 := by omega
    rw [none, pow_zero, div_one, ← zpow_natCast, Int.toNat_of_nonneg whole]
  · have none : scale.toNat = 0 := by omega
    rw [none, pow_zero, one_div, ← zpow_natCast, Int.toNat_of_nonneg (by omega), ← zpow_neg,
      neg_neg]

theorem denominator_pos (d : Decimal) : 0 < d.denominator := Nat.pow_pos (by decide)

theorem value_eq (d : Decimal) : d.value = d.numerator / d.denominator := by
  rw [value, ten_zpow, numerator, denominator, Nat.pow_eq, Nat.pow_eq]
  push_cast
  ring

theorem nearestRank_eq_of_value_eq {d d' : Decimal} (same : d.value = d'.value) :
    d.nearestRank = d'.nearestRank := by
  apply Binary64.nearestRank_congr d.denominator_pos d'.denominator_pos
  have positive : (d.denominator : ℚ) ≠ 0 := by exact_mod_cast d.denominator_pos.ne'
  have positive' : (d'.denominator : ℚ) ≠ 0 := by exact_mod_cast d'.denominator_pos.ne'
  rw [value_eq, value_eq, div_eq_div_iff positive positive'] at same
  have crossed : d.numerator * d'.denominator = d'.numerator * d.denominator := by
    exact_mod_cast same
  rw [Nat.mul_right_comm, crossed, Nat.mul_right_comm]

/-! Far exponents. -/

theorem two_pow_le_ten_pow {length digits : Nat} (few : length ≤ 3 * digits) :
    2 ^ length ≤ 10 ^ digits :=
  calc 2 ^ length
      ≤ 2 ^ (3 * digits) := Nat.pow_le_pow_right (by decide) few
    _ = 8 ^ digits := Nat.pow_mul 2 3 digits
    _ ≤ 10 ^ digits := Nat.pow_le_pow_left (by decide) digits

theorem nearestRank_of_coefficient_eq_zero {d : Decimal} (zero : d.coefficient = 0) :
    d.nearestRank = 0 := by
  apply Binary64.nearestRank_eq_zero
  rw [numerator, zero, Nat.zero_mul, Nat.zero_mul, Nat.mul_zero]
  exact d.denominator_pos

/-- The units in one are a power of two, whose exponent stays a variable here so that the power is
never written out. -/
theorem exists_unitsPerOne : ∃ length, length = 1074 ∧ Binary64.unitsPerOne = Nat.pow 2 length :=
  ⟨1074, rfl, rfl⟩

theorem unitsPerOne_pos : 0 < Binary64.unitsPerOne := by
  obtain ⟨length, _, units⟩ := exists_unitsPerOne
  rw [units]
  exact Nat.pow_pos (by decide)

theorem nearestRank_of_low {d : Decimal} (low : d.scale + d.coefficient.log2 + 1 < -400) :
    d.nearestRank = 0 := by
  obtain ⟨length, fixed, units⟩ := exists_unitsPerOne
  apply Binary64.nearestRank_eq_zero
  have whole : d.scale.toNat = 0 := by omega
  have long : length + 1 + (d.coefficient.log2 + 1) ≤ 3 * (-d.scale).toNat := by omega
  rw [numerator, denominator, Nat.pow_eq, Nat.pow_eq, whole, Nat.pow_zero, Nat.mul_one, units,
    Nat.pow_eq]
  calc 2 * (d.coefficient * 2 ^ length)
      = 2 ^ (length + 1) * d.coefficient := by rw [Nat.pow_succ]; ac_rfl
    _ < 2 ^ (length + 1) * 2 ^ (d.coefficient.log2 + 1) :=
      (Nat.mul_lt_mul_left (Nat.pow_pos (by decide))).mpr Nat.lt_log2_self
    _ = 2 ^ (length + 1 + (d.coefficient.log2 + 1)) := (Nat.pow_add ..).symm
    _ ≤ 10 ^ (-d.scale).toNat := two_pow_le_ten_pow long

theorem nearestRank_of_high {d : Decimal} (nonzero : d.coefficient ≠ 0) (high : 400 < d.scale) :
    d.nearestRank = Binary64.infinityRank := by
  obtain ⟨length, fixed, units⟩ := exists_unitsPerOne
  have fraction : (-d.scale).toNat = 0 := by omega
  have long : 2099 ≤ 3 * d.scale.toNat + length := by omega
  apply Binary64.nearestRank_eq_infinityRank d.denominator_pos long
  rw [numerator, denominator, Nat.pow_eq, Nat.pow_eq, fraction, Nat.pow_zero, Nat.mul_one, units,
    Nat.pow_eq]
  calc 2 ^ (3 * d.scale.toNat + length)
      = 2 ^ (3 * d.scale.toNat) * 2 ^ length := Nat.pow_add ..
    _ ≤ 10 ^ d.scale.toNat * 2 ^ length :=
      Nat.mul_le_mul_right _ (two_pow_le_ten_pow (Nat.le_refl _))
    _ ≤ d.coefficient * 10 ^ d.scale.toNat * 2 ^ length :=
      Nat.mul_le_mul_right _ (Nat.le_mul_of_pos_left _ (Nat.pos_of_ne_zero nonzero))

theorem toFloat_eq (negative : Bool) (d : Decimal) :
    d.toFloat negative = Binary64.ofRank negative d.nearestRank := by
  rw [toFloat]
  split
  next low =>
    have zero : d.nearestRank = 0 := by
      rcases low with zero | low
      · exact nearestRank_of_coefficient_eq_zero zero
      · exact nearestRank_of_low low
    rw [zero]
  next low =>
    have nonzero : d.coefficient ≠ 0 := fun zero => low (Or.inl zero)
    split
    next high => rw [nearestRank_of_high nonzero high, Binary64.infinity]
    next => rfl

end Reckoner.Decimal
