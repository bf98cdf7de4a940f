import Reckoner.Binary64.Integral
import Reckoner.Proofs.Number.NearestDouble

/-!
Rounding to a whole number with halves upwards. The distance to the floor is rounded to a double
before it is compared with one half. Below one half it is a double already, and from one half on it
is not rounded below that, so the comparison is decided as for the exact distance; and the step
above the floor is a double wherever it is taken.
-/
namespace Reckoner.Binary64

def distance (x : Float) : Float := ofUnits (units x - units (floor x))

def stepAbove (x : Float) : Float := ofUnits (units (floor x) + unitsPerOne)

theorem intCast_unitsPerOne_pos : (0 : ℤ) < unitsPerOne :=
  Int.natCast_pos.mpr Decimal.unitsPerOne_pos

/-! Whole numbers of units that are doubles. -/

/-- A number of units with a significand of at most 53 bits. -/
def Short (count : ℤ) : Prop :=
  ∃ (significand : ℤ) (scale : ℕ), |significand| < 2 ^ 53 ∧ count = significand * 2 ^ scale

theorem short_units (x : Float) : Short (units x) := by
  obtain ⟨scale, significand, _, magnitude, short, _⟩ := exists_scale (rank x)
  have short' : (significand : ℤ) < 2 ^ 53 := by exact_mod_cast short
  rw [units, Binary64.magnitude, magnitude]
  cases isNegative x with
  | false => exact ⟨significand, scale, by rwa [Nat.abs_cast], by simp⟩
  | true => exact ⟨-significand, scale, by rwa [abs_neg, Nat.abs_cast], by simp⟩

theorem unitsAt_nearestRank_of_short {significand scale : Nat} (short : significand < 2 ^ 53)
    (finite : nearestRank (significand * 2 ^ scale) 1 < infinityRank) :
    unitsAt (nearestRank (significand * 2 ^ scale) 1) = significand * 2 ^ scale := by
  obtain ⟨finer, steps, scaled, _, same⟩ := exists_scaled_of_finite _ Nat.one_pos finite
  have fine : finer ≤ scale := by
    rcases scaled.reached with least | reached
    · omega
    · by_contra coarse
      have power : (2 : ℚ) ^ (scale + 1) ≤ 2 ^ finer :=
        pow_le_pow_right₀ (by norm_num) (by omega)
      have short' : (significand : ℚ) < 2 ^ 53 := by exact_mod_cast short
      have below := mul_lt_mul_of_pos_right short' (by positivity : (0 : ℚ) < 2 ^ scale)
      rw [pow_succ] at power
      push_cast at reached
      linarith
  have split : significand * 2 ^ scale = significand * 2 ^ (scale - finer) * 2 ^ finer := by
    rw [Nat.mul_assoc, ← Nat.pow_add, Nat.sub_add_cancel fine]
  have multiple : ((significand * 2 ^ scale : ℕ) : ℚ) / (1 : ℕ) =
      (significand * 2 ^ (scale - finer) : ℕ) * 2 ^ finer := by
    rw [Nat.cast_one, div_one, split]
    push_cast
    rfl
  rw [same, scaled.rounded.eq_of_multiple (by positivity) multiple, ← split]

theorem two_pow_lt_overflow : 2 ^ 53 < overflow := by
  have large : (2 : ℚ) ^ 1024 = 2 ^ 54 * 2 ^ 970 := by rw [← pow_add]
  have some : (1 : ℚ) ≤ 2 ^ 970 := one_le_pow₀ (by norm_num)
  calc (2 : ℚ) ^ 53
      < 2 ^ 54 - 1 := by norm_num
    _ ≤ (2 ^ 54 - 1) * 2 ^ 970 := le_mul_of_one_le_right (by norm_num) some
    _ = overflow := by rw [overflow, large, sub_one_mul]

theorem nearestRank_lt_of_le {count : Nat} (small : count ≤ 2 ^ 53 * unitsPerOne) :
    nearestRank count 1 < infinityRank := by
  rw [nearestRank_lt_iff count Nat.one_pos, Nat.cast_one, div_one, div_lt_iff₀ cast_unitsPerOne_pos]
  have small' : (count : ℚ) ≤ 2 ^ 53 * unitsPerOne := by exact_mod_cast small
  linarith [mul_lt_mul_of_pos_right two_pow_lt_overflow cast_unitsPerOne_pos]

theorem units_ofUnits {count : ℤ} (short : Short count)
    (small : |count| ≤ 2 ^ 53 * unitsPerOne) :
    isFinite (ofUnits count) = true ∧ units (ofUnits count) = count := by
  obtain ⟨significand, scale, short, same⟩ := short
  have bounded : count.natAbs ≤ 2 ^ 53 * unitsPerOne := by
    zify
    exact small
  have finite := nearestRank_lt_of_le bounded
  have product : count.natAbs = significand.natAbs * 2 ^ scale := by
    rw [same, Int.natAbs_mul, Int.natAbs_pow]
    rfl
  have exact : unitsAt (nearestRank count.natAbs 1) = count.natAbs := by
    rw [product] at finite ⊢
    refine unitsAt_nearestRank_of_short ?_ finite
    zify
    exact short
  refine ⟨isFinite_ofRank _ finite, ?_⟩
  rw [ofUnits, units_ofRank _ finite.le, exact]
  by_cases negative : count < 0
  · simp only [negative, decide_true, if_true]
    omega
  · simp only [negative, decide_false, Bool.false_eq_true, if_false]
    omega

/-! The floor. -/

section Floor

variable {x : Float}

theorem magnitude_lt (fraction : magnitude x % unitsPerOne ≠ 0) :
    magnitude x < 2 ^ 52 * unitsPerOne := by
  obtain ⟨length, _, one⟩ := Decimal.exists_unitsPerOne
  obtain ⟨scale, significand, _, same, short, _⟩ := exists_scale (rank x)
  have same' : magnitude x = significand * 2 ^ scale := same
  rw [one, Nat.pow_eq, same'] at fraction
  rw [one, Nat.pow_eq, same']
  have fine : scale < length := by
    by_contra coarse
    have divides : 2 ^ length ∣ significand * 2 ^ scale :=
      Dvd.dvd.mul_left (Nat.pow_dvd_pow 2 (by omega)) significand
    exact fraction (Nat.mod_eq_zero_of_dvd divides)
  calc significand * 2 ^ scale
      < 2 ^ 53 * 2 ^ scale := (Nat.mul_lt_mul_right (Nat.pow_pos (by decide))).mpr short
    _ = 2 ^ 52 * 2 ^ (scale + 1) := by ring
    _ ≤ 2 ^ 52 * 2 ^ length :=
      Nat.mul_le_mul_left _ (Nat.pow_le_pow_right (by decide) (by omega))

theorem short_mul_unitsPerOne {whole : ℤ} (short : |whole| < 2 ^ 53) :
    Short (whole * unitsPerOne) := by
  obtain ⟨length, _, one⟩ := Decimal.exists_unitsPerOne
  refine ⟨whole, length, short, ?_⟩
  rw [one, Nat.pow_eq, Nat.cast_pow, Nat.cast_ofNat]

theorem units_ofWhole (negative : Bool) {count : Nat} (short : count < 2 ^ 53) :
    isFinite (ofWhole negative count) = true ∧
      units (ofWhole negative count) = sign negative * count * unitsPerOne := by
  have finite : nearestRank (count * unitsPerOne) 1 < infinityRank :=
    nearestRank_lt_of_le (Nat.mul_le_mul_right _ short.le)
  have exact : unitsAt (nearestRank (count * unitsPerOne) 1) = count * unitsPerOne := by
    obtain ⟨length, _, one⟩ := Decimal.exists_unitsPerOne
    rw [one, Nat.pow_eq] at finite ⊢
    exact unitsAt_nearestRank_of_short short finite
  refine ⟨isFinite_ofRank _ finite, ?_⟩
  have signed := sign_mul_units_ofRank negative finite.le
  rw [exact] at signed
  rw [ofWhole]
  cases negative <;> simp only [sign, Bool.false_eq_true, if_true, if_false] at signed ⊢ <;>
    push_cast at signed <;> linarith

theorem units_floor (finite : isFinite x = true) : isFinite (floor x) = true ∧
    units (floor x) = units x / unitsPerOne * unitsPerOne := by
  have magnitude_eq := natAbs_units x
  by_cases whole : magnitude x % unitsPerOne = 0
  · have divides : (unitsPerOne : ℤ) ∣ units x :=
      Int.natCast_dvd.mpr (magnitude_eq ▸ Nat.dvd_of_mod_eq_zero whole)
    rw [Int.ediv_mul_cancel divides, floor]
    simp [whole, finite]
  · have below := Nat.div_lt_of_lt_mul (Nat.mul_comm .. ▸ magnitude_lt whole)
    have indivisible : ¬(unitsPerOne : ℤ) ∣ magnitude x := fun divides =>
      whole (Nat.mod_eq_zero_of_dvd (Int.natCast_dvd_natCast.mp divides))
    have signed : units x = if isNegative x then -(magnitude x : ℤ) else magnitude x := rfl
    rw [floor, signed]
    simp only [finite, whole, Bool.not_true, decide_false, Bool.or_self, Bool.false_eq_true,
      if_false]
    cases isNegative x with
    | false =>
      obtain ⟨finite, same⟩ := @units_ofWhole false (magnitude x / unitsPerOne) (by omega)
      simp only [Bool.false_eq_true, if_false]
      exact ⟨finite, by rw [same, sign, if_neg Bool.false_ne_true, one_mul, Int.natCast_ediv]⟩
    | true =>
      obtain ⟨finite, same⟩ := @units_ofWhole true (magnitude x / unitsPerOne + 1) (by omega)
      have positive : (0 : ℤ) < unitsPerOne := intCast_unitsPerOne_pos
      simp only [if_true]
      refine ⟨finite, ?_⟩
      rw [same, sign, if_pos rfl, Int.neg_ediv, if_neg indivisible, Int.sign_eq_one_of_pos positive]
      push_cast
      ring

theorem abs_floor_le (fraction : units x % unitsPerOne ≠ 0) :
    |units x / unitsPerOne| ≤ 2 ^ 52 := by
  have positive : (0 : ℤ) < unitsPerOne := intCast_unitsPerOne_pos
  have fraction' : magnitude x % unitsPerOne ≠ 0 := by
    intro none
    refine fraction (Int.emod_eq_zero_of_dvd (Int.natCast_dvd.mpr ?_))
    rw [natAbs_units]
    exact Nat.dvd_of_mod_eq_zero none
  have below : |units x| < 2 ^ 52 * unitsPerOne := by
    have small := magnitude_lt fraction'
    rw [magnitude, ← natAbs_units] at small
    zify at small
    exact small
  obtain ⟨lower, upper⟩ := abs_lt.mp below
  rw [abs_le]
  constructor
  · exact Int.le_ediv_of_mul_le positive (by linarith)
  · exact (Int.ediv_lt_of_lt_mul positive upper).le

end Floor

/-! The distance to the floor. -/

section Distance

variable {x : Float}

theorem units_sub_floor (finite : isFinite x = true) :
    units x - units (floor x) = units x % unitsPerOne := by
  rw [(units_floor finite).2, Int.emod_def, mul_comm]

theorem emod_le_abs {count modulus : ℤ} (positive : 0 < modulus)
    (less : 2 * (count % modulus) < modulus) : count % modulus ≤ |count| := by
  have parts := Int.mul_ediv_add_emod count modulus
  rcases lt_or_ge count 0 with below | above
  · have negative : count / modulus ≤ -1 :=
      Int.le_sub_one_of_lt (Int.ediv_neg_of_neg_of_pos below positive)
    rw [abs_of_neg below]
    linarith [mul_le_mul_of_nonneg_left negative positive.le]
  · have whole := mul_nonneg positive.le (Int.ediv_nonneg above positive.le)
    rw [abs_of_nonneg above]
    linarith

theorem short_distance (less : 2 * (units x % unitsPerOne) < unitsPerOne) :
    Short (units x % unitsPerOne) := by
  obtain ⟨length, _, one⟩ := Decimal.exists_unitsPerOne
  obtain ⟨significand, scale, short, same⟩ := short_units x
  rw [one, Nat.pow_eq, Nat.cast_pow, Nat.cast_ofNat] at less ⊢
  by_cases whole : length ≤ scale
  · refine ⟨0, 0, by norm_num, ?_⟩
    rw [same, zero_mul]
    exact Int.emod_eq_zero_of_dvd (Dvd.dvd.mul_left (pow_dvd_pow 2 whole) _)
  · have power : (0 : ℤ) < 2 ^ scale := by positivity
    have split : (2 : ℤ) ^ length = 2 ^ scale * 2 ^ (length - scale) := by
      rw [← pow_add, Nat.add_sub_cancel' (by omega)]
    have rest : units x % 2 ^ length = significand % 2 ^ (length - scale) * 2 ^ scale := by
      rw [same, split, mul_comm significand, Int.mul_emod_mul_of_pos _ _ power, mul_comm]
    have half : 2 * (significand % 2 ^ (length - scale)) < 2 ^ (length - scale) := by
      rw [rest, split] at less
      exact lt_of_mul_lt_mul_right (by linarith) power.le
    have small := emod_le_abs (by positivity) half
    refine ⟨significand % 2 ^ (length - scale), scale, ?_, rest⟩
    rw [abs_of_nonneg (Int.emod_nonneg _ (by positivity))]
    exact small.trans_lt short

theorem distance_bounds (x : Float) :
    0 ≤ units x % unitsPerOne ∧ units x % unitsPerOne < unitsPerOne := by
  have positive : (0 : ℤ) < unitsPerOne := intCast_unitsPerOne_pos
  exact ⟨Int.emod_nonneg _ positive.ne', Int.emod_lt_of_pos _ positive⟩

theorem rounds_distance (x : Float) : Rounds (value x - value (floor x)) (distance x) := by
  have rounds := rounds_ofUnits (units x - units (floor x))
  rwa [Int.cast_sub, sub_div] at rounds

theorem isNearest_distance (finite : isFinite x = true) :
    IsNearest ((units x % unitsPerOne : ℤ) / unitsPerOne) (distance x) := by
  obtain ⟨least, most⟩ := distance_bounds x
  have rounds := rounds_ofUnits (units x - units (floor x))
  rw [← distance, units_sub_floor finite] at rounds
  have least' : (0 : ℚ) ≤ (units x % unitsPerOne : ℤ) := Int.cast_nonneg least
  have most' : ((units x % unitsPerOne : ℤ) : ℚ) < unitsPerOne := by exact_mod_cast most
  have small : |((units x % unitsPerOne : ℤ) : ℚ) / unitsPerOne| < overflow := by
    rw [abs_of_nonneg (div_nonneg least' cast_unitsPerOne_pos.le)]
    have below := (div_lt_one cast_unitsPerOne_pos).mpr most'
    linarith [two_pow_lt_overflow]
  rwa [Rounds, if_pos small] at rounds

theorem exists_half : ∃ half : ℤ, 0 < half ∧ Short half ∧ (unitsPerOne : ℤ) = 2 * half := by
  obtain ⟨length, fixed, one⟩ := Decimal.exists_unitsPerOne
  obtain ⟨shorter, rfl⟩ : ∃ shorter, length = shorter + 1 := ⟨1073, by omega⟩
  refine ⟨2 ^ shorter, by positivity, ⟨1, shorter, by norm_num, (one_mul _).symm⟩, ?_⟩
  rw [one, Nat.pow_eq, Nat.cast_pow, Nat.cast_ofNat, pow_succ, mul_comm]

theorem half_le_distance_iff (finite : isFinite x = true) :
    (unitsPerOne : ℤ) / 2 ≤ units (distance x) ↔
      (unitsPerOne : ℤ) ≤ 2 * (units x % unitsPerOne) := by
  obtain ⟨least, most⟩ := distance_bounds x
  obtain ⟨half, positive, short, twice⟩ := exists_half
  have middle : (unitsPerOne : ℤ) / 2 = half := by omega
  rw [middle]
  by_cases less : 2 * (units x % unitsPerOne) < unitsPerOne
  · have small : |units x % unitsPerOne| ≤ 2 ^ 53 * unitsPerOne := by
      rw [abs_of_nonneg least]
      linarith
    have exact := (units_ofUnits (short_distance less) small).2
    rw [distance, units_sub_floor finite, exact]
    omega
  · -- One half is a double itself, and no double is nearer to the distance than the rounded one.
    refine iff_of_true ?_ (by omega)
    have small : |half| ≤ 2 ^ 53 * unitsPerOne := by
      rw [abs_of_pos positive, twice]
      linarith
    obtain ⟨finite', exact⟩ := units_ofUnits short small
    have near := (isNearest_distance finite).nearest _ finite'
    rw [value, value, exact, ← sub_div, ← sub_div, abs_div, abs_div,
      abs_of_pos cast_unitsPerOne_pos, div_le_div_iff_of_pos_right cast_unitsPerOne_pos] at near
    have near' : |units (distance x) - units x % unitsPerOne| ≤ |half - units x % unitsPerOne| := by
      exact_mod_cast near
    have reached : half ≤ units x % unitsPerOne := by omega
    rw [abs_of_nonpos (sub_nonpos.mpr reached)] at near'
    linarith [(abs_le.mp near').1]

end Distance

/-! The exact value. -/

section Value

variable {x : Float}

theorem value_of_units {count : ℤ} (whole : units x = count * unitsPerOne) : value x = count := by
  rw [value, whole, Int.cast_mul, Int.cast_natCast,
    mul_div_cancel_right₀ _ cast_unitsPerOne_pos.ne']

theorem floor_value (x : Float) : ⌊value x⌋ = units x / unitsPerOne :=
  Rat.floor_intCast_div_natCast (units x) unitsPerOne

theorem value_floor (finite : isFinite x = true) : value (floor x) = ⌊value x⌋ := by
  rw [value_of_units (units_floor finite).2, floor_value]

theorem value_eq_floor_add (x : Float) :
    value x = ⌊value x⌋ + ((units x % unitsPerOne : ℤ) : ℚ) / unitsPerOne := by
  have parts : ((unitsPerOne * (units x / unitsPerOne) + units x % unitsPerOne : ℤ) : ℚ) =
      units x := congrArg Int.cast (Int.mul_ediv_add_emod (units x) unitsPerOne)
  rw [Int.cast_add, Int.cast_mul, Int.cast_natCast] at parts
  rw [floor_value, value, ← parts, add_div, mul_div_cancel_left₀ _ cast_unitsPerOne_pos.ne']

theorem floor_value_add_half (x : Float) : ⌊value x + 1 / 2⌋ =
    if (unitsPerOne : ℤ) ≤ 2 * (units x % unitsPerOne) then ⌊value x⌋ + 1 else ⌊value x⌋ := by
  obtain ⟨least, most⟩ := distance_bounds x
  have parts := value_eq_floor_add x
  have positive := cast_unitsPerOne_pos
  have least' : (0 : ℚ) ≤ ((units x % unitsPerOne : ℤ) : ℚ) / unitsPerOne :=
    div_nonneg (Int.cast_nonneg least) positive.le
  have most' : ((units x % unitsPerOne : ℤ) : ℚ) / unitsPerOne < 1 := by
    rw [div_lt_one positive]
    exact_mod_cast most
  split
  next reached =>
    have half : (1 : ℚ) / 2 ≤ ((units x % unitsPerOne : ℤ) : ℚ) / unitsPerOne := by
      rw [div_le_div_iff₀ (by norm_num) positive, one_mul, mul_comm]
      exact_mod_cast reached
    rw [Int.floor_eq_iff, Int.cast_add, Int.cast_one]
    constructor <;> linarith
  next less =>
    have half : ((units x % unitsPerOne : ℤ) : ℚ) / unitsPerOne < 1 / 2 := by
      rw [div_lt_div_iff₀ positive (by norm_num), one_mul, mul_comm]
      exact_mod_cast not_le.mp less
    rw [Int.floor_eq_iff]
    constructor <;> linarith

theorem half_le_value_iff (x : Float) :
    1 / 2 ≤ value x ↔ (unitsPerOne : ℤ) / 2 ≤ units x := by
  obtain ⟨half, positive, short, twice⟩ := exists_half
  have middle : (unitsPerOne : ℤ) / 2 = half := by omega
  have twice' : (unitsPerOne : ℚ) = 2 * half := by exact_mod_cast twice
  rw [middle, value, div_le_div_iff₀ (by norm_num) cast_unitsPerOne_pos, one_mul, twice', mul_comm]
  rw [mul_le_mul_iff_left₀ (by norm_num)]
  exact Int.cast_le

theorem rounds_stepAbove (x : Float) : Rounds (value (floor x) + 1) (stepAbove x) := by
  have rounds := rounds_ofUnits (units (floor x) + unitsPerOne)
  rwa [Int.cast_add, Int.cast_natCast, add_div, div_self cast_unitsPerOne_pos.ne'] at rounds

theorem value_stepAbove (finite : isFinite x = true) (fraction : units x % unitsPerOne ≠ 0) :
    isFinite (stepAbove x) = true ∧ value (stepAbove x) = ⌊value x⌋ + 1 := by
  have near := abs_floor_le fraction
  have next : units (floor x) + unitsPerOne = (units x / unitsPerOne + 1) * unitsPerOne := by
    rw [(units_floor finite).2, add_one_mul]
  have short : |units x / unitsPerOne + 1| < 2 ^ 53 := by
    obtain ⟨lower, upper⟩ := abs_le.mp near
    rw [abs_lt]
    constructor <;> linarith
  have small : |(units x / unitsPerOne + 1) * (unitsPerOne : ℤ)| ≤ 2 ^ 53 * unitsPerOne := by
    rw [abs_mul, Nat.abs_cast]
    exact mul_le_mul_of_nonneg_right short.le (Int.natCast_nonneg _)
  obtain ⟨finite', exact⟩ := units_ofUnits (short_mul_unitsPerOne short) small
  rw [stepAbove, next]
  refine ⟨finite', ?_⟩
  rw [value_of_units exact, floor_value, Int.cast_add, Int.cast_one]

theorem value_distance_of_tiny (finite : isFinite x = true) (tiny : -1 / 2 ^ 54 < value x)
    (negative : value x < 0) : value (distance x) = 1 := by
  have positive : (0 : ℤ) < unitsPerOne := intCast_unitsPerOne_pos
  have one : unitsAt (1023 * 2 ^ 52) = unitsPerOne := by decide +kernel
  have below : units x < 0 := by
    rw [value, div_lt_iff₀ cast_unitsPerOne_pos, zero_mul] at negative
    exact_mod_cast negative
  have near : -(unitsPerOne : ℤ) < 2 ^ 54 * units x := by
    rw [value, div_lt_div_iff₀ (by norm_num) cast_unitsPerOne_pos] at tiny
    have cast : -(unitsPerOne : ℚ) < 2 ^ 54 * units x := by linarith
    exact_mod_cast cast
  have rest : units x % unitsPerOne = units x + unitsPerOne := by
    rw [← Int.add_emod_right, Int.emod_eq_of_lt (by linarith) (by linarith)]
  have nearest : nearestRank (units x + unitsPerOne).natAbs 1 = 1023 * 2 ^ 52 := by
    apply nearestRank_of_near Nat.one_pos (by decide) <;> rw [one] <;> omega
  have above : ¬units x + (unitsPerOne : ℤ) < 0 := by linarith
  rw [distance, units_sub_floor finite, rest, ofUnits, nearest, decide_eq_false above, value,
    units_ofRank false (by decide), one]
  exact div_self cast_unitsPerOne_pos.ne'

end Value

/-- How halves go upwards: the result is the floor of the exact value and one half. The distance to
the floor is rounded, just below zero to one. One is added to the floor without rounding, wherever
the rounded distance is one half or more. -/
structure HalfUp (x : Float) : Prop where
  finite : isFinite (roundHalfUp x) = true
  value_eq : value (roundHalfUp x) = ⌊value x + 1 / 2⌋
  floor_eq : value (floor x) = ⌊value x⌋
  difference : Rounds (value x - value (floor x)) (distance x)
  tiny : -1 / 2 ^ 54 < value x → value x < 0 → value (distance x) = 1
  sum : Rounds (value (floor x) + 1) (stepAbove x)
  above : 1 / 2 ≤ value (distance x) →
    roundHalfUp x = stepAbove x ∧ value (stepAbove x) = value (floor x) + 1
  below : value (distance x) < 1 / 2 → roundHalfUp x = floor x

theorem halfUp_of_isFinite {x : Float} (finite : isFinite x = true) : HalfUp x := by
  have decided := half_le_distance_iff finite
  have floor_eq := value_floor finite
  have chosen : roundHalfUp x =
      if (unitsPerOne : ℤ) / 2 ≤ units (distance x) then stepAbove x else floor x := by
    rw [roundHalfUp, if_pos finite]
    rfl
  have sum (reached : (unitsPerOne : ℤ) / 2 ≤ units (distance x)) :
      isFinite (stepAbove x) = true ∧ value (stepAbove x) = ⌊value x⌋ + 1 := by
    refine value_stepAbove finite fun none => ?_
    have positive : (0 : ℤ) < unitsPerOne := intCast_unitsPerOne_pos
    have half := decided.mp reached
    omega
  refine ⟨?_, ?_, floor_eq, rounds_distance x, value_distance_of_tiny finite, rounds_stepAbove x,
    fun half => ?_, fun half => ?_⟩
  · rw [chosen]
    split
    next reached => exact (sum reached).1
    next => exact (units_floor finite).1
  · rw [chosen, floor_value_add_half]
    split
    next reached => rw [(sum reached).2, if_pos (decided.mp reached), Int.cast_add, Int.cast_one]
    next less => rw [floor_eq, if_neg (decided.not.mp less)]
  · have reached := (half_le_value_iff _).mp half
    rw [chosen, if_pos reached, floor_eq]
    exact ⟨rfl, (sum reached).2⟩
  · rw [chosen, if_neg ((half_le_value_iff _).not.mp (not_le.mpr half))]

theorem exists_value_distance_ne :
    ∃ x, isFinite x = true ∧ value (distance x) ≠ value x - value (floor x) := by
  obtain ⟨x, made⟩ : ∃ x, x = ofRank true 1 := ⟨_, rfl⟩
  have finite : isFinite x = true := by
    rw [made]
    exact isFinite_ofRank true (by decide)
  have least : value x = ((-1 : ℤ) : ℚ) / unitsPerOne := by
    rw [made, value, units_ofRank true (by decide)]
    rfl
  have negative : value x < 0 := by
    rw [least, div_lt_iff₀ cast_unitsPerOne_pos, zero_mul]
    norm_num
  have tiny : -1 / 2 ^ 54 < value x := by
    have large : (2 : ℚ) ^ 54 < unitsPerOne := by
      exact_mod_cast (by decide +kernel : 2 ^ 54 < unitsPerOne)
    rw [least, div_lt_div_iff₀ (by norm_num) cast_unitsPerOne_pos, Int.cast_neg, Int.cast_one]
    linarith
  refine ⟨x, finite, fun same => ?_⟩
  -- The exact distance is less than one.
  rw [value_distance_of_tiny finite tiny negative, value_floor finite] at same
  linarith [Int.lt_floor_add_one (value x)]

/-- Every finite double is rounded to a whole number with halves upwards, although its distance to
the floor is not always a double, and the other doubles are kept. -/
theorem roundHalfUp_exact (x : Float) :
    (isFinite x = true → HalfUp x) ∧ (isFinite x = false → roundHalfUp x = x) ∧
      ∃ y, isFinite y = true ∧ value (distance y) ≠ value y - value (floor y) := by
  refine ⟨halfUp_of_isFinite, fun infinite => ?_, exists_value_distance_ne⟩
  rw [roundHalfUp, infinite, if_neg Bool.false_ne_true]

/-- Two and a half, its negative and the largest double below one half. -/
example : [0x4004000000000000, 0xC004000000000000, 0x3FDFFFFFFFFFFFFF].map
    (fun word => units (roundHalfUp (Float.ofBits word)) / unitsPerOne) = [3, -2, 0] := by
  decide +kernel

end Reckoner.Binary64
