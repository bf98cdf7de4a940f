import Mathlib.Tactic.LinearCombination
import Reckoner.NumberText
import Reckoner.Proofs.Number.NearestDouble
import Reckoner.Proofs.Number.Shortest

/-!
Rounding to a number of significant digits: no other number of as many digits is nearer to the exact
value, and between two that are equally near the one with the even last digit is taken. Every double
is exact within the number of digits up to which doubles are rounded at all, and reads back from
seventeen digits on.
-/
namespace Reckoner.Decimal

/-- A number of at most `count` significant digits. -/
def HasDigits (count : Nat) (x : ℚ) : Prop :=
  ∃ coefficient scale : ℤ, |coefficient| < 10 ^ count ∧ x = coefficient * 10 ^ scale

/-- A number of at most `count` significant digits that no other one is nearer to the exact value
than. If another one is just as near, the two are neighbours in some decimal place and the digit of
this one is even there. -/
structure RoundedTo (count : Nat) (exact rounded : ℚ) : Prop where
  digits : HasDigits count rounded
  nearest : ∀ other, HasDigits count other → |rounded - exact| ≤ |other - exact|
  even : ∀ other, HasDigits count other → other ≠ rounded →
    |other - exact| = |rounded - exact| →
      ∃ half place : ℤ, rounded = 2 * half * 10 ^ place ∧ |other - rounded| = 10 ^ place

theorem HasDigits.neg {count : Nat} {x : ℚ} (few : HasDigits count x) : HasDigits count (-x) := by
  obtain ⟨coefficient, scale, small, rfl⟩ := few
  exact ⟨-coefficient, scale, by rwa [abs_neg], by push_cast; ring⟩

theorem HasDigits.mono {count more : Nat} {x : ℚ} (few : HasDigits count x) (le : count ≤ more) :
    HasDigits more x := by
  obtain ⟨coefficient, scale, small, same⟩ := few
  exact ⟨coefficient, scale, small.trans_le (pow_le_pow_right₀ (by norm_num) le), same⟩

namespace RoundedTo

theorem self {count : Nat} {exact : ℚ} (few : HasDigits count exact) :
    RoundedTo count exact exact where
  digits := few
  nearest other _ := by
    rw [sub_self, abs_zero]
    exact abs_nonneg _
  even other _ different tie := by
    rw [sub_self, abs_zero, abs_eq_zero, sub_eq_zero] at tie
    exact absurd tie different

theorem neg {count : Nat} {exact rounded : ℚ} (given : RoundedTo count exact rounded) :
    RoundedTo count (-exact) (-rounded) := by
  have turned (first second : ℚ) : |-first - second| = |first - -second| := by
    rw [← abs_neg]
    congr 1
    ring
  have turned' (other : ℚ) : |other - -exact| = |-other - exact| := by
    rw [← abs_neg]
    congr 1
    ring
  refine ⟨given.digits.neg, fun other few => ?_, fun other few different tie => ?_⟩
  · rw [turned, neg_neg, turned']
    exact given.nearest _ few.neg
  · rw [turned, neg_neg, turned'] at tie
    obtain ⟨half, place, even, apart⟩ :=
      given.even _ few.neg (fun same => different (neg_eq_iff_eq_neg.mp same)) tie
    refine ⟨-half, place, by rw [even]; push_cast; ring, ?_⟩
    rw [← apart, ← abs_neg]
    congr 1
    ring

theorem sign_mul {count : Nat} {exact rounded : ℚ} (negative : Bool)
    (given : RoundedTo count exact rounded) :
    RoundedTo count (Binary64.sign negative * exact) (Binary64.sign negative * rounded) := by
  cases negative with
  | false => simpa [Binary64.sign] using given
  | true => simpa [Binary64.sign] using given.neg

end RoundedTo

section Quotient

variable {count numerator denominator : Nat}

theorem ten_zpow_leadingExponent (count numerator denominator : Nat) :
    (10 : ℚ) ^ leadingExponent numerator denominator =
      10 ^ (count - 1) * 10 ^ (ofQuotient count numerator denominator).scale := by
  rw [← zpow_natCast, ← zpow_add₀ (by norm_num)]
  congr 1
  have scale : (ofQuotient count numerator denominator).scale =
      leadingExponent numerator denominator - (count - 1 : Nat) := rfl
  omega

theorem coefficient_ofQuotient_ne_zero (count : Nat) (positive : 0 < numerator)
    (positive' : 0 < denominator) :
    (ofQuotient count numerator denominator).coefficient ≠ 0 := by
  have reached := (leadingExponent_between positive positive').1
  rw [ten_zpow_leadingExponent count] at reached
  have leading : 10 ^ (count - 1) ≤ (ofQuotient count numerator denominator).coefficient :=
    (stepsTo_ofQuotient count numerator positive').le_of_le (zpow_pos (by norm_num) _)
      (by exact_mod_cast reached)
  exact (Nat.lt_of_lt_of_le (Nat.pow_pos (by decide)) leading).ne'

/-- A number of few digits is a whole number of steps, or it is smaller than the leading power of
ten, which the quotient has reached. -/
theorem HasDigits.grid (some : 0 < count) (positive : 0 < numerator) (positive' : 0 < denominator)
    {other : ℚ} (few : HasDigits count other) :
    (∃ whole : ℤ, other = whole * 10 ^ (ofQuotient count numerator denominator).scale) ∨
      ∃ whole : ℤ, other < whole * 10 ^ (ofQuotient count numerator denominator).scale ∧
        whole * 10 ^ (ofQuotient count numerator denominator).scale ≤
          (numerator / denominator : ℚ) := by
  obtain ⟨coefficient, scale, small, rfl⟩ := few
  have leading := ten_zpow_leadingExponent count numerator denominator
  have reached := (leadingExponent_between positive positive').1
  generalize (ofQuotient count numerator denominator).scale = step at *
  by_cases coarse : step ≤ scale
  · refine Or.inl ⟨coefficient * 10 ^ (scale - step).toNat, ?_⟩
    have split : scale = (scale - step).toNat + step := by omega
    conv_lhs => rw [split, zpow_add₀ (by norm_num), zpow_natCast]
    push_cast
    ring
  · refine Or.inr ⟨10 ^ (count - 1), ?_, ?_⟩
    · have small' : (coefficient : ℚ) < 10 ^ count := by
        exact_mod_cast lt_of_le_of_lt (le_abs_self coefficient) small
      have finer : (10 : ℚ) ^ scale * 10 ≤ 10 ^ step := by
        rw [← zpow_add_one₀ (by norm_num)]
        exact zpow_le_zpow_right₀ (by norm_num) (by omega)
      calc (coefficient : ℚ) * 10 ^ scale
          < 10 ^ count * 10 ^ scale := mul_lt_mul_of_pos_right small' (by positivity)
        _ = 10 ^ (count - 1) * (10 ^ scale * 10) := by
          rw [← Nat.sub_add_cancel some, pow_succ, Nat.add_sub_cancel]
          ring
        _ ≤ 10 ^ (count - 1) * 10 ^ step := mul_le_mul_of_nonneg_left finer (by positivity)
        _ = ((10 ^ (count - 1) : ℤ) : ℚ) * 10 ^ step := by push_cast; rfl
    · rw [Int.cast_pow, Int.cast_ofNat, ← leading]
      exact reached

theorem hasDigits_ofQuotient (some : 0 < count) (positive : 0 < numerator)
    (positive' : 0 < denominator) :
    HasDigits count (ofQuotient count numerator denominator).value := by
  have steps := stepsTo_ofQuotient count numerator positive'
  have below := (leadingExponent_between positive positive').2
  rw [zpow_add_one₀ (by norm_num), ten_zpow_leadingExponent count] at below
  have most : (ofQuotient count numerator denominator).coefficient ≤ 10 ^ count := by
    apply steps.le_of_ge (by positivity)
    rw [Nat.cast_pow, Nat.cast_ofNat, ← Nat.sub_add_cancel some, pow_succ, Nat.sub_add_cancel some]
    linarith
  rw [value]
  rcases Nat.lt_or_eq_of_le most with short | carried
  · exact ⟨_, _, by rw [Nat.abs_cast]; exact_mod_cast short, by rw [Int.cast_natCast]⟩
  · refine ⟨1, count + (ofQuotient count numerator denominator).scale, ?_, ?_⟩
    · rw [abs_one]
      exact one_lt_pow₀ (by norm_num) some.ne'
    · rw [carried, zpow_add₀ (by norm_num), zpow_natCast]
      push_cast
      ring

theorem roundedTo_ofQuotient (some : 0 < count) (positive : 0 < numerator)
    (positive' : 0 < denominator) :
    RoundedTo count (numerator / denominator) (ofQuotient count numerator denominator).value := by
  have steps := stepsTo_ofQuotient count numerator positive'
  have power : (0 : ℚ) < 10 ^ (ofQuotient count numerator denominator).scale := by positivity
  refine ⟨hasDigits_ofQuotient some positive positive', fun other few => ?_,
    fun other few different tie => ?_⟩
  · exact (steps.compare power (few.grid some positive positive')).1
  · obtain ⟨even, apart⟩ := (steps.compare power (few.grid some positive positive')).2 different tie
    obtain ⟨half, twice⟩ := Nat.dvd_of_mod_eq_zero even
    refine ⟨half, _, ?_, apart⟩
    rw [value, twice]
    push_cast
    rfl

end Quotient

/-! Exact decimals of doubles. -/

theorem exists_multiple {length : Nat} {scale : ℤ} (fine : scale ≤ -length) (count : Nat) :
    ∃ whole : Nat, (count : ℚ) / 2 ^ length = whole * 10 ^ scale := by
  obtain ⟨more, rfl⟩ : ∃ more : Nat, scale = -(length + more : Nat) :=
    ⟨(-scale - length).toNat, by omega⟩
  refine ⟨count * 5 ^ length * 10 ^ more, ?_⟩
  have ten : (10 : ℚ) ^ length = 2 ^ length * 5 ^ length := by
    rw [← mul_pow]
    norm_num
  rw [zpow_neg, zpow_natCast, pow_add, ten]
  push_cast
  field_simp

theorem unitsAt_div_lt {place : Nat} (finite : place < Binary64.infinityRank) :
    (Binary64.unitsAt place : ℚ) / Binary64.unitsPerOne < 2 ^ 1024 := by
  obtain ⟨scale, significand, ranked, units, short, full⟩ := Binary64.exists_scale place
  obtain ⟨length, fixed, one⟩ := exists_unitsPerOne
  have bound : place < 2047 * 2 ^ 52 := finite
  have large : (2 : ℚ) ^ scale ≤ 2 ^ (971 + length) :=
    pow_le_pow_right₀ (by norm_num) (by omega)
  have short' : (significand : ℚ) < 2 ^ 53 := by exact_mod_cast short
  rw [div_lt_iff₀ Binary64.cast_unitsPerOne_pos, one, units, Nat.pow_eq]
  push_cast
  calc (significand : ℚ) * 2 ^ scale
      < 2 ^ 53 * 2 ^ scale := mul_lt_mul_of_pos_right short' (by positivity)
    _ ≤ 2 ^ 53 * 2 ^ (971 + length) := mul_le_mul_of_nonneg_left large (by positivity)
    _ = 2 ^ 1024 * 2 ^ length := by rw [pow_add, ← mul_assoc, ← pow_add]

theorem leadingExponent_lt {place : Nat} (positive : 0 < Binary64.unitsAt place)
    (finite : place < Binary64.infinityRank) :
    leadingExponent (Binary64.unitsAt place) Binary64.unitsPerOne < 316 := by
  have reached := (leadingExponent_between positive unitsPerOne_pos).1
  have below : (10 : ℚ) ^ leadingExponent (Binary64.unitsAt place) Binary64.unitsPerOne <
      10 ^ (316 : ℤ) :=
    calc (10 : ℚ) ^ leadingExponent (Binary64.unitsAt place) Binary64.unitsPerOne
        ≤ Binary64.unitsAt place / Binary64.unitsPerOne := reached
      _ < 2 ^ 1024 := unitsAt_div_lt finite
      _ ≤ 2 ^ (13 * 79) := pow_le_pow_right₀ (by norm_num) (by norm_num)
      _ = (2 ^ 13) ^ 79 := pow_mul 2 13 79
      _ ≤ (10 ^ 4) ^ 79 := pow_le_pow_left₀ (by norm_num) (by norm_num) 79
      _ = 10 ^ (316 : ℤ) := by rw [← pow_mul]; rfl
  exact (zpow_lt_zpow_iff_right₀ (by norm_num)).mp below

theorem value_ofQuotient_exact {place : Nat} (positive : 0 < Binary64.unitsAt place)
    (finite : place < Binary64.infinityRank) :
    (ofQuotient NumberText.exactDigits (Binary64.unitsAt place) Binary64.unitsPerOne).value =
      Binary64.unitsAt place / Binary64.unitsPerOne := by
  have small := leadingExponent_lt positive finite
  have scale : (ofQuotient NumberText.exactDigits (Binary64.unitsAt place)
      Binary64.unitsPerOne).scale =
        leadingExponent (Binary64.unitsAt place) Binary64.unitsPerOne - 1399 := rfl
  have steps := stepsTo_ofQuotient NumberText.exactDigits (Binary64.unitsAt place) unitsPerOne_pos
  obtain ⟨length, fixed, one⟩ := exists_unitsPerOne
  have fine : (ofQuotient NumberText.exactDigits (Binary64.unitsAt place)
      Binary64.unitsPerOne).scale ≤ -length := by omega
  have one' : (Binary64.unitsPerOne : ℚ) = 2 ^ length := by
    rw [one, Nat.pow_eq, Nat.cast_pow, Nat.cast_ofNat]
  obtain ⟨whole, multiple⟩ := exists_multiple fine (Binary64.unitsAt place)
  rw [← one'] at multiple
  rw [value, steps.eq_of_multiple (zpow_pos (by norm_num) _) multiple, multiple]

end Reckoner.Decimal

namespace Reckoner.Binary64

theorem magnitude_eq_zero_iff {x : Float} : magnitude x = 0 ↔ rank x = 0 := by
  constructor
  · intro zero
    by_contra nonzero
    exact (Decimal.unitsAt_pos (Nat.pos_of_ne_zero nonzero)).ne' zero
  · intro zero
    rw [magnitude, zero]
    rfl

end Reckoner.Binary64

namespace Reckoner.NumberText

theorem roundedTo_roundedDecimal {digits : Nat} (some : 0 < digits) {x : Float}
    (finite : Binary64.isFinite x = true) :
    Decimal.RoundedTo digits (Binary64.magnitude x / Binary64.unitsPerOne)
      (roundedDecimal digits x).value := by
  have finite' : Binary64.rank x < Binary64.infinityRank := of_decide_eq_true finite
  by_cases zero : Binary64.magnitude x = 0
  · have none : (roundedDecimal digits x).value = 0 := by
      rw [roundedDecimal, if_pos zero, Decimal.value]
      simp
    rw [none, zero, Nat.cast_zero, zero_div]
    exact .self ⟨0, 0, by simp, by simp⟩
  · have positive : 0 < Binary64.magnitude x := Nat.pos_of_ne_zero zero
    rw [roundedDecimal, if_neg zero]
    by_cases short : digits ≤ exactDigits
    · rw [Nat.min_eq_left short]
      exact Decimal.roundedTo_ofQuotient some positive Decimal.unitsPerOne_pos
    · rw [Nat.min_eq_right (by omega)]
      have few := @Decimal.hasDigits_ofQuotient exactDigits _ _ (by decide) positive
        Decimal.unitsPerOne_pos
      rw [Binary64.magnitude, Decimal.value_ofQuotient_exact positive finite'] at *
      exact .self (few.mono (by omega))

theorem nearestRank_roundedDecimal {digits : Nat} (enough : 17 ≤ digits) {x : Float}
    (finite : Binary64.isFinite x = true) :
    (roundedDecimal digits x).nearestRank = Binary64.rank x := by
  by_cases zero : Binary64.magnitude x = 0
  · rw [roundedDecimal, if_pos zero, Decimal.nearestRank_of_coefficient_eq_zero rfl,
      Binary64.magnitude_eq_zero_iff.mp zero]
  · have positive := Nat.pos_of_ne_zero (Binary64.magnitude_eq_zero_iff.not.mp zero)
    have most : exactDigits = 1400 := rfl
    rw [roundedDecimal, if_neg zero]
    exact Decimal.nearestRank_ofQuotient positive (of_decide_eq_true finite) (by omega)

end Reckoner.NumberText
