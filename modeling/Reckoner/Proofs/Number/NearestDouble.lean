import Mathlib.Tactic.Zify
import Reckoner.Proofs.Number.Exact
import Reckoner.Proofs.Number.Grid

/-!
What rounding to a double means: no finite double is nearer to the exact value, a last bit of zero
decides between two that are equally near, and values from half a step beyond the largest finite
double on are rounded to an infinity.
-/
namespace Reckoner.Binary64

/-- A finite double that no other one is nearer to the exact value than. If another one is just as
near, its last bit is zero. -/
structure IsNearest (exact : ℚ) (x : Float) : Prop where
  finite : isFinite x = true
  nearest : ∀ y, isFinite y = true → |value x - exact| ≤ |value y - exact|
  even : ∀ y, isFinite y = true → value y ≠ value x →
    |value y - exact| = |value x - exact| → rank x % 2 = 0

/-- Half a step beyond the largest finite double. -/
def overflow : ℚ := 2 ^ 1024 - 2 ^ 970

/-- Rounding to the nearest double, with infinities from the overflow on. -/
def Rounds (exact : ℚ) (x : Float) : Prop :=
  if |exact| < overflow then IsNearest exact x else x = infinity (exact < 0)

/-! Ranks by scale and significand. -/

theorem unitsAt_of_scale {scale significand : Nat} (full : scale = 0 ∨ 2 ^ 52 ≤ significand)
    (short : significand ≤ 2 ^ 53) :
    unitsAt (scale * 2 ^ 52 + significand) = significand * 2 ^ scale := by
  rw [unitsAt, Nat.pow_eq]
  by_cases small : scale * 2 ^ 52 + significand < 2 ^ 52
  · have least : scale = 0 := by omega
    rw [if_pos small, least]
    omega
  · rw [if_neg small, Nat.pow_eq]
    by_cases carried : significand = 2 ^ 53
    · have exponent : (scale * 2 ^ 52 + significand) / 2 ^ 52 - 1 = scale + 1 := by omega
      have rest : (scale * 2 ^ 52 + significand) % 2 ^ 52 = 0 := by omega
      rw [exponent, rest, carried, Nat.pow_succ 2 scale]
      ring
    · have exponent : (scale * 2 ^ 52 + significand) / 2 ^ 52 - 1 = scale := by omega
      have rest : 2 ^ 52 + (scale * 2 ^ 52 + significand) % 2 ^ 52 = significand := by omega
      rw [exponent, rest]

/-- The steps of a quotient of units: it has reached the steps of its scale, unless there is none
below, and is rounded to a whole number of them. -/
structure Scaled (exact : ℚ) (scale steps : Nat) : Prop where
  reached : scale = 0 ∨ ((2 ^ 52 : ℤ) : ℚ) * 2 ^ scale ≤ exact
  below : exact < 2 ^ 53 * 2 ^ scale
  rounded : StepsTo (2 ^ scale) exact steps

theorem Scaled.steps_le {exact : ℚ} {scale steps : Nat} (scaled : Scaled exact scale steps) :
    steps ≤ 2 ^ 53 :=
  scaled.rounded.le_of_ge (by positivity) (by exact_mod_cast scaled.below.le)

theorem Scaled.le_steps {exact : ℚ} {scale steps : Nat} (scaled : Scaled exact scale steps) :
    scale = 0 ∨ 2 ^ 52 ≤ steps := by
  rcases scaled.reached with least | reached
  · exact Or.inl least
  · exact Or.inr (scaled.rounded.le_of_le (by positivity) (by exact_mod_cast reached))

theorem exists_scaled (numerator : Nat) {denominator : Nat} (positive : 0 < denominator) :
    ∃ scale steps, Scaled (numerator / denominator) scale steps ∧
      nearestRank numerator denominator = min infinityRank (scale * 2 ^ 52 + steps) := by
  obtain ⟨scale, excess⟩ : ∃ scale, scale = (numerator / denominator).log2 - 52 := ⟨_, rfl⟩
  have divisor : (0 : ℚ) < denominator := by exact_mod_cast positive
  have above : numerator / denominator < 2 ^ (53 + scale) :=
    Nat.lt_of_lt_of_le Nat.lt_log2_self (Nat.pow_le_pow_right (by decide) (by omega))
  have above' : numerator < 2 ^ (53 + scale) * denominator :=
    (Nat.div_lt_iff_lt_mul positive).mp above
  refine ⟨scale, divideToEven numerator (denominator * 2 ^ scale), ⟨?_, ?_, ?_⟩, ?_⟩
  · by_cases least : scale = 0
    · exact Or.inl least
    · have nonzero : numerator / denominator ≠ 0 := by
        intro none
        rw [none] at excess
        exact least excess
      have reached : 2 ^ (52 + scale) ≤ numerator / denominator :=
        (Nat.le_log2 nonzero).mp (by omega)
      have reached' : 2 ^ (52 + scale) * denominator ≤ numerator :=
        (Nat.le_div_iff_mul_le positive).mp reached
      right
      rw [le_div_iff₀ divisor]
      rw [Nat.pow_add] at reached'
      exact_mod_cast reached'
  · rw [div_lt_iff₀ divisor, ← pow_add]
    exact_mod_cast above'
  · apply stepsTo_divideToEven numerator (Nat.mul_pos positive (Nat.pow_pos (by decide)))
      (by positivity)
    push_cast
    field_simp
  · rw [nearestRank, ← excess]
    rfl

theorem exists_scaled_of_finite (numerator : Nat) {denominator : Nat} (positive : 0 < denominator)
    (finite : nearestRank numerator denominator < infinityRank) :
    ∃ scale steps, Scaled (numerator / denominator) scale steps ∧
      nearestRank numerator denominator = scale * 2 ^ 52 + steps ∧
      unitsAt (nearestRank numerator denominator) = steps * 2 ^ scale := by
  obtain ⟨scale, steps, scaled, rounded⟩ := exists_scaled numerator positive
  have unbounded : nearestRank numerator denominator = scale * 2 ^ 52 + steps := by omega
  refine ⟨scale, steps, scaled, unbounded, ?_⟩
  rw [unbounded, unitsAt_of_scale scaled.le_steps scaled.steps_le]

/-! Nearness. -/

/-- Seen in the steps of a quotient, every double is a whole number of them or lies below one that
the quotient has reached. -/
theorem Scaled.grid {exact : ℚ} {scale steps : Nat} (scaled : Scaled exact scale steps)
    {other : ℤ} {place : Nat} (same : other.natAbs = unitsAt place) :
    (∃ whole : ℤ, (other : ℚ) = whole * 2 ^ scale) ∨
      ∃ whole : ℤ, (other : ℚ) < whole * 2 ^ scale ∧ whole * 2 ^ scale ≤ exact := by
  obtain ⟨finer, significand, _, units, short, _⟩ := exists_scale place
  by_cases coarse : scale ≤ finer
  · left
    have divides : 2 ^ scale ∣ other.natAbs := by
      rw [same, units]
      exact Dvd.dvd.mul_left (Nat.pow_dvd_pow 2 coarse) _
    obtain ⟨whole, multiple⟩ := Int.natCast_dvd.mpr divides
    refine ⟨whole, ?_⟩
    rw [multiple]
    push_cast
    ring
  · right
    rcases scaled.reached with least | reached
    · omega
    · refine ⟨2 ^ 52, ?_, reached⟩
      have power : 2 ^ (finer + 1) ≤ 2 ^ scale := Nat.pow_le_pow_right (by decide) (by omega)
      have small : other.natAbs < 2 ^ 52 * 2 ^ scale :=
        calc other.natAbs
            = significand * 2 ^ finer := same.trans units
          _ < 2 ^ 53 * 2 ^ finer := (Nat.mul_lt_mul_right (Nat.pow_pos (by decide))).mpr short
          _ = 2 ^ 52 * 2 ^ (finer + 1) := by ring
          _ ≤ 2 ^ 52 * 2 ^ scale := Nat.mul_le_mul_left _ power
      have small' : other < 2 ^ 52 * 2 ^ scale := by
        zify at small
        exact lt_of_le_of_lt (le_abs_self other) small
      exact_mod_cast small'

theorem unitsAt_nearestRank_near (numerator : Nat) {denominator : Nat} (positive : 0 < denominator)
    (finite : nearestRank numerator denominator < infinityRank) {other : ℤ} {place : Nat}
    (same : other.natAbs = unitsAt place) :
    |(unitsAt (nearestRank numerator denominator) : ℚ) - numerator / denominator| ≤
        |(other : ℚ) - numerator / denominator| ∧
      ((other : ℚ) ≠ unitsAt (nearestRank numerator denominator) →
        |(other : ℚ) - numerator / denominator| =
          |(unitsAt (nearestRank numerator denominator) : ℚ) - numerator / denominator| →
        nearestRank numerator denominator % 2 = 0) := by
  obtain ⟨scale, steps, scaled, rounded, same'⟩ := exists_scaled_of_finite numerator positive finite
  have units : (unitsAt (nearestRank numerator denominator) : ℚ) = steps * 2 ^ scale := by
    rw [same']
    push_cast
    rfl
  obtain ⟨near, tie⟩ := scaled.rounded.compare (by positivity) (scaled.grid same)
  rw [units]
  refine ⟨near, fun different even => ?_⟩
  have last := (tie different even).1
  omega

/-! The overflow. -/

theorem Scaled.lt_iff {exact : ℚ} {scale steps : Nat} (scaled : Scaled exact scale steps)
    (length : Nat) : scale * 2 ^ 52 + steps < (length + 1) * 2 ^ 52 + 2 ^ 53 ↔
      exact < (2 ^ 54 - 1) * 2 ^ length := by
  have most := scaled.steps_le
  have positive : (0 : ℚ) < 2 ^ length := by positivity
  rcases Nat.lt_trichotomy scale (length + 1) with low | middle | high
  · have power : (2 : ℚ) ^ scale ≤ 2 ^ length := pow_le_pow_right₀ (by norm_num) (by omega)
    have below := scaled.below
    exact iff_of_true (by omega) (by linarith)
  · have step : (2 : ℚ) ^ scale = 2 * 2 ^ length := by rw [middle, pow_succ, mul_comm]
    obtain ⟨near, even⟩ := scaled.rounded
    rw [step] at near even
    obtain ⟨lower, upper⟩ := abs_le.mp near
    constructor
    · intro less
      have short : steps ≤ 2 ^ 53 - 1 := by omega
      have short' : (steps : ℚ) ≤ 2 ^ 53 - 1 := by
        have cast : (steps : ℚ) ≤ (2 ^ 53 - 1 : ℕ) := by exact_mod_cast short
        norm_num at cast ⊢
        exact cast
      have product := mul_le_mul_of_nonneg_right short' positive.le
      -- Half a step above the largest significand, which is odd, the next one is chosen.
      by_contra reached
      have half : steps * (2 * 2 ^ length) - exact = -(2 * 2 ^ length / 2) := by linarith
      have odd : (steps : ℚ) * 2 ^ length = (2 ^ 53 - 1) * 2 ^ length := by linarith
      have last : (steps : ℚ) = 2 ^ 53 - 1 := mul_right_cancel₀ positive.ne' odd
      have last' : steps = 2 ^ 53 - 1 := by
        have cast : (steps : ℚ) = (2 ^ 53 - 1 : ℕ) := by
          rw [last]
          norm_num
        exact_mod_cast cast
      have contrary := even (by rw [half, abs_neg, abs_of_pos (by positivity)])
      omega
    · intro less
      by_contra full
      have carried : steps = 2 ^ 53 := by omega
      rw [carried] at upper
      push_cast at upper
      linarith
  · have power : (2 : ℚ) ^ (length + 2) ≤ 2 ^ scale :=
      pow_le_pow_right₀ (by norm_num) (by omega)
    rw [pow_add] at power
    rcases scaled.reached with least | reached
    · omega
    · rcases scaled.le_steps with least | full
      · omega
      · push_cast at reached
        exact iff_of_false (by omega) (by linarith)

theorem overflow_mul_unitsPerOne : overflow * unitsPerOne = (2 ^ 54 - 1) * 2 ^ 2044 := by
  obtain ⟨length, fixed, units⟩ := Decimal.exists_unitsPerOne
  have large : (2 : ℚ) ^ 1024 = 2 ^ 54 * 2 ^ 970 := by rw [← pow_add]
  rw [overflow, units, large, ← sub_one_mul, mul_assoc, Nat.pow_eq, Nat.cast_pow, Nat.cast_ofNat,
    ← pow_add, fixed]

theorem cast_unitsPerOne_pos : (0 : ℚ) < unitsPerOne := Nat.cast_pos.mpr Decimal.unitsPerOne_pos

theorem nearestRank_lt_iff (numerator : Nat) {denominator : Nat} (positive : 0 < denominator) :
    nearestRank numerator denominator < infinityRank ↔
      (numerator / denominator / unitsPerOne : ℚ) < overflow := by
  obtain ⟨scale, steps, scaled, rounded⟩ := exists_scaled numerator positive
  have largest : infinityRank = (2044 + 1) * 2 ^ 52 + 2 ^ 53 := rfl
  rw [div_lt_iff₀ cast_unitsPerOne_pos, overflow_mul_unitsPerOne, ← scaled.lt_iff, rounded, largest]
  omega

/-! Doubles. -/

def sign (negative : Bool) : ℤ := if negative then -1 else 1

theorem sign_mul_sign (negative : Bool) : (sign negative : ℚ) * sign negative = 1 := by
  cases negative <;> norm_num [sign]

theorem abs_sign (negative : Bool) : |(sign negative : ℚ)| = 1 := by
  cases negative <;> norm_num [sign]

theorem natAbs_sign_mul (negative : Bool) (count : ℤ) :
    (sign negative * count).natAbs = count.natAbs := by
  cases negative <;> simp [sign]

theorem sign_mul_natAbs (count : ℤ) : sign (count < 0) * count.natAbs = count := by
  by_cases negative : count < 0
  · simp only [sign, negative, decide_true, ↓reduceIte]
    omega
  · simp only [sign, negative, decide_false, Bool.false_eq_true, ↓reduceIte]
    omega

theorem value_eq_sign_mul (x : Float) : value x =
    sign (isNegative x) * (magnitude x / unitsPerOne) := by
  rw [value, units]
  generalize unitsPerOne = unit
  cases isNegative x with
  | false => simp [sign]
  | true => simp [sign, neg_div]

theorem sign_mul_units_ofRank (negative : Bool) {place : Nat} (number : place ≤ infinityRank) :
    sign negative * units (ofRank negative place) = unitsAt place := by
  rw [units_ofRank negative number]
  cases negative <;> simp [sign]

/-- Turned to the positive side and measured in units, the distance from a signed quotient is that
from the quotient itself. -/
theorem abs_units_sub (negative : Bool) (count : ℤ) (quotient : ℚ) :
    |(count : ℚ) / unitsPerOne - sign negative * (quotient / unitsPerOne)| =
      |((sign negative * count : ℤ) : ℚ) - quotient| / unitsPerOne := by
  have turned : (count : ℚ) / unitsPerOne - sign negative * (quotient / unitsPerOne) =
      sign negative * ((((sign negative * count : ℤ) : ℚ) - quotient) / unitsPerOne) := by
    push_cast
    linear_combination (-(count : ℚ) / unitsPerOne) * sign_mul_sign negative
  rw [turned, abs_mul, abs_sign, one_mul, abs_div, abs_of_pos cast_unitsPerOne_pos]

section Rounding

variable (negative : Bool) (numerator : Nat) {denominator : Nat}

theorem isNearest_ofRank (positive : 0 < denominator)
    (finite : nearestRank numerator denominator < infinityRank) :
    IsNearest (sign negative * (numerator / denominator / unitsPerOne))
      (ofRank negative (nearestRank numerator denominator)) := by
  have self := sign_mul_units_ofRank negative finite.le
  have other (y : Float) : (sign negative * units y).natAbs = unitsAt (rank y) := by
    rw [natAbs_sign_mul, natAbs_units]
  refine ⟨isFinite_ofRank negative finite, fun y _ => ?_, fun y _ different tie => ?_⟩
  · obtain ⟨near, _⟩ := unitsAt_nearestRank_near numerator positive finite (other y)
    rw [value, value, abs_units_sub, abs_units_sub, self]
    exact div_le_div_of_nonneg_right near cast_unitsPerOne_pos.le
  · obtain ⟨_, even⟩ := unitsAt_nearestRank_near numerator positive finite (other y)
    rw [value, value, abs_units_sub, abs_units_sub, self,
      div_left_inj' cast_unitsPerOne_pos.ne'] at tie
    rw [rank_ofRank negative finite.le]
    refine even (fun same => different ?_) tie
    have nonzero : (sign negative : ℚ) ≠ 0 := left_ne_zero_of_mul_eq_one (sign_mul_sign negative)
    have same' : (sign negative : ℚ) * units y =
        sign negative * units (ofRank negative (nearestRank numerator denominator)) := by
      have cast := congrArg (Int.cast : ℤ → ℚ) self
      push_cast at cast same
      rw [same, cast]
    rw [value, value, mul_left_cancel₀ nonzero same']

theorem rounds_ofRank (positive : 0 < denominator) :
    Rounds (sign negative * (numerator / denominator / unitsPerOne))
      (ofRank negative (nearestRank numerator denominator)) := by
  have decided := nearestRank_lt_iff numerator positive
  have whole : (0 : ℚ) ≤ numerator / denominator / unitsPerOne :=
    div_nonneg (div_nonneg (Nat.cast_nonneg _) (Nat.cast_nonneg _)) cast_unitsPerOne_pos.le
  rw [Rounds, abs_mul, abs_sign, one_mul, abs_of_nonneg whole]
  split
  next small => exact isNearest_ofRank negative numerator positive (decided.mpr small)
  next large =>
    have infinite : nearestRank numerator denominator = infinityRank := by
      have least : ¬nearestRank numerator denominator < infinityRank := fun finite =>
        large (decided.mp finite)
      have most : nearestRank numerator denominator ≤ infinityRank := Nat.min_le_left _ _
      omega
    have some : 0 < overflow := sub_pos.mpr (pow_lt_pow_right₀ (by norm_num) (by norm_num))
    have beyond : (0 : ℚ) < numerator / denominator / unitsPerOne :=
      lt_of_lt_of_le some (not_lt.mp large)
    generalize (numerator / denominator / unitsPerOne : ℚ) = quotient at *
    have side : negative = decide ((sign negative : ℚ) * quotient < 0) := by
      cases negative <;> simp [sign, beyond, beyond.le]
    rw [infinite, infinity, ← side]

end Rounding

theorem rounds_ofUnits (count : ℤ) : Rounds (count / unitsPerOne) (ofUnits count) := by
  have rounds := rounds_ofRank (count < 0) count.natAbs Nat.one_pos
  have exact : (sign (count < 0) : ℚ) * (count.natAbs / (1 : ℕ) / unitsPerOne) =
      count / unitsPerOne := by
    have signed := congrArg (Int.cast : ℤ → ℚ) (sign_mul_natAbs count)
    rw [Int.cast_mul, Int.cast_natCast] at signed
    rw [Nat.cast_one, div_one, ← mul_div_assoc, signed]
  rw [exact] at rounds
  exact rounds

end Reckoner.Binary64

namespace Reckoner.Decimal

theorem rounds_ofRank_nearestRank (negative : Bool) (d : Decimal) :
    Binary64.Rounds (Binary64.sign negative * d.value)
      (Binary64.ofRank negative d.nearestRank) := by
  have rounds := Binary64.rounds_ofRank negative (d.numerator * Binary64.unitsPerOne)
    d.denominator_pos
  have exact :
      ((d.numerator * Binary64.unitsPerOne : ℕ) / d.denominator / Binary64.unitsPerOne : ℚ) =
        d.value := by
    rw [value_eq, Nat.cast_mul, mul_div_right_comm,
      mul_div_cancel_right₀ _ Binary64.cast_unitsPerOne_pos.ne']
  rw [exact] at rounds
  exact rounds

end Reckoner.Decimal
