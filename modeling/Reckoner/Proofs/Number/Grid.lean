import Mathlib.Tactic.FieldSimp
import Mathlib.Tactic.Linarith
import Reckoner.Proofs.Number.Nearest

/-!
Rounding to whole numbers of steps. The rounded number is compared not with the other whole numbers
of steps alone, but also with finer numbers, as long as these lie below a whole number of steps that
the exact value has reached.
-/
namespace Reckoner.Binary64

theorem divideToEven_near (numerator : Nat) {denominator : Nat} (positive : 0 < denominator) :
    |(divideToEven numerator denominator : ℚ) - numerator / denominator| ≤ 1 / 2 := by
  have above := divideToEven_le numerator denominator
  have below : 2 * numerator ≤
      2 * (denominator * divideToEven numerator denominator) + denominator :=
    le_divideToEven positive
  generalize divideToEven numerator denominator = whole at *
  have above' : 2 * ((denominator : ℚ) * whole) ≤ 2 * numerator + denominator := by
    exact_mod_cast above
  have below' : 2 * (numerator : ℚ) ≤ 2 * (denominator * whole) + denominator := by
    exact_mod_cast below
  have divisor : (0 : ℚ) < denominator := by exact_mod_cast positive
  have apart : (whole : ℚ) - numerator / denominator =
      (denominator * whole - numerator) / denominator := by
    field_simp
  rw [apart, abs_le, le_div_iff₀ divisor, div_le_iff₀ divisor]
  constructor <;> linarith

theorem even_divideToEven {numerator denominator : Nat} (positive : 0 < denominator)
    (tie : 2 * (denominator * divideToEven numerator denominator) = 2 * numerator + denominator ∨
      2 * numerator = 2 * (denominator * divideToEven numerator denominator) + denominator) :
    divideToEven numerator denominator % 2 = 0 := by
  have parts := Nat.div_add_mod numerator denominator
  have small := Nat.mod_lt numerator positive
  have step : denominator * (numerator / denominator + 1) =
      denominator * (numerator / denominator) + denominator := Nat.mul_succ ..
  revert tie
  unfold divideToEven
  simp only
  split
  · omega
  · split
    · omega
    · omega

/-- A whole number of steps is within half a step of an exact value, and even where it is half a
step away from it. -/
structure StepsTo (step exact : ℚ) (count : Nat) : Prop where
  near : |count * step - exact| ≤ step / 2
  even : |count * step - exact| = step / 2 → count % 2 = 0

theorem stepsTo_divideToEven (numerator : Nat) {denominator : Nat} (positive : 0 < denominator)
    {step exact : ℚ} (positive' : 0 < step) (same : exact = numerator / denominator * step) :
    StepsTo step exact (divideToEven numerator denominator) := by
  have near := divideToEven_near numerator positive
  have tie := @even_divideToEven numerator denominator positive
  generalize divideToEven numerator denominator = count at *
  have divisor : (0 : ℚ) < denominator := by exact_mod_cast positive
  have apart : |count * step - exact| = |(count : ℚ) - numerator / denominator| * step := by
    rw [same, ← sub_mul, abs_mul, abs_of_pos positive']
  constructor
  · rw [apart]
    linarith [mul_le_mul_of_nonneg_right near positive'.le]
  · intro half
    rw [apart] at half
    have half' : |(count : ℚ) - numerator / denominator| = 1 / 2 :=
      mul_right_cancel₀ positive'.ne' (by rw [half]; ring)
    apply tie
    rcases abs_eq (by norm_num) |>.mp half' with above | below
    · left
      field_simp at above
      exact_mod_cast (by linarith : 2 * ((denominator : ℚ) * count) = 2 * numerator + denominator)
    · right
      field_simp at below
      exact_mod_cast (by linarith : 2 * (numerator : ℚ) = 2 * (denominator * count) + denominator)

namespace StepsTo

variable {step exact other : ℚ} {count : Nat}

theorem compare_of_multiple (rounded : StepsTo step exact count) (positive : 0 < step)
    (multiple : ∃ whole : ℤ, other = whole * step) :
    |count * step - exact| ≤ |other - exact| ∧
      (other ≠ count * step → |other - exact| = |count * step - exact| →
        count % 2 = 0 ∧ |other - count * step| = step) := by
  obtain ⟨whole, rfl⟩ := multiple
  by_cases same : whole = count
  · rw [same, Int.cast_natCast]
    exact ⟨le_refl _, fun different => absurd rfl different⟩
  · have apart : (1 : ℚ) ≤ |(whole : ℚ) - count| := by
      exact_mod_cast Int.one_le_abs (sub_ne_zero.mpr same)
    have distance : |whole * step - count * step| = |(whole : ℚ) - count| * step := by
      rw [← sub_mul, abs_mul, abs_of_pos positive]
    have far : step ≤ |whole * step - count * step| := by
      rw [distance]
      linarith [mul_le_mul_of_nonneg_right apart positive.le]
    have triangle : |whole * step - count * step| ≤
        |whole * step - exact| + |count * step - exact| := by
      rw [abs_sub_comm (count * step) exact]
      exact abs_sub_le _ _ _
    have near := rounded.near
    refine ⟨by linarith, fun _ tie => ?_⟩
    exact ⟨rounded.even (by linarith), by linarith⟩

theorem compare (rounded : StepsTo step exact count) (positive : 0 < step)
    (grid : (∃ whole : ℤ, other = whole * step) ∨
      ∃ whole : ℤ, other < whole * step ∧ whole * step ≤ exact) :
    |count * step - exact| ≤ |other - exact| ∧
      (other ≠ count * step → |other - exact| = |count * step - exact| →
        count % 2 = 0 ∧ |other - count * step| = step) := by
  rcases grid with multiple | ⟨whole, below, reached⟩
  · exact rounded.compare_of_multiple positive multiple
  · have nearer := (rounded.compare_of_multiple positive ⟨whole, rfl⟩).1
    rw [abs_of_nonpos (sub_nonpos.mpr reached)] at nearer
    have further : |other - exact| = -(other - exact) :=
      abs_of_nonpos (by linarith)
    exact ⟨by linarith, fun _ tie => absurd tie (by linarith)⟩

theorem le_of_le {whole : Nat} (rounded : StepsTo step exact count) (positive : 0 < step)
    (reached : whole * step ≤ exact) : whole ≤ count := by
  have near := (abs_le.mp rounded.near).1
  have above : ((whole : ℚ) - count) * step ≤ step / 2 := by linarith
  by_contra less
  have next : (count : ℚ) + 1 ≤ whole := by exact_mod_cast Nat.lt_of_not_le less
  linarith [mul_le_mul_of_nonneg_right next positive.le]

theorem le_of_ge {whole : Nat} (rounded : StepsTo step exact count) (positive : 0 < step)
    (within : exact ≤ whole * step) : count ≤ whole := by
  have near := (abs_le.mp rounded.near).2
  by_contra more
  have next : (whole : ℚ) + 1 ≤ count := by exact_mod_cast Nat.lt_of_not_le more
  linarith [mul_le_mul_of_nonneg_right next positive.le]

theorem eq_of_multiple {whole : Nat} (rounded : StepsTo step exact count) (positive : 0 < step)
    (multiple : exact = whole * step) : count = whole :=
  Nat.le_antisymm (rounded.le_of_ge positive multiple.le) (rounded.le_of_le positive multiple.ge)

end StepsTo

end Reckoner.Binary64
