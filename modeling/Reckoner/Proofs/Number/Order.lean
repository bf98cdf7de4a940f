import Reckoner.Proofs.Number.HalfUp

/-!
Rounding keeps the order of exact values. The double nearest to a value is known by that value, and
so is the nearest whole number, because of two that are equally near only one is even.
-/
namespace Reckoner.Binary64

/-! The nearest double. -/

theorem unitsAt_lt_succ (place : Nat) : unitsAt place < unitsAt (place + 1) := by
  obtain ⟨scale, significand, ranked, units, short, full⟩ := exists_scale place
  have next : place + 1 = scale * 2 ^ 52 + (significand + 1) := by omega
  rw [next, unitsAt_of_scale (by omega) (by omega), units]
  exact (Nat.mul_lt_mul_right (Nat.pow_pos (by decide))).mpr (Nat.lt_succ_self _)

theorem unitsAt_strictMono : StrictMono unitsAt := strictMono_nat_of_lt_succ unitsAt_lt_succ

theorem value_ofRank (negative : Bool) {place : Nat} (number : place ≤ infinityRank) :
    value (ofRank negative place) = sign negative * (unitsAt place / unitsPerOne) := by
  rw [value_eq_sign_mul, isNegative_ofRank negative number, magnitude, rank_ofRank negative number]

theorem isNearest_value {x : Float} (finite : isFinite x = true) : IsNearest (value x) x where
  finite := finite
  nearest y _ := by
    rw [sub_self, abs_zero]
    exact abs_nonneg _
  even y _ different tie := by
    rw [sub_self, abs_zero, abs_eq_zero, sub_eq_zero] at tie
    exact absurd tie different

theorem exists_value_eq {significand : ℤ} (short : |significand| < 2 ^ 53) (places : ℕ)
    (fine : places ≤ 1074) : ∃ x, isFinite x = true ∧ value x = significand / 2 ^ places := by
  obtain ⟨length, fixed, one⟩ := Decimal.exists_unitsPerOne
  obtain ⟨scale, rfl⟩ := Nat.exists_eq_add_of_le (fixed ▸ fine)
  have one' : (unitsPerOne : ℤ) = 2 ^ places * 2 ^ scale := by
    rw [one, Nat.pow_eq, Nat.pow_add]
    push_cast
    rfl
  have small : |significand * 2 ^ scale| ≤ 2 ^ 53 * unitsPerOne := by
    have some : (1 : ℤ) ≤ 2 ^ places := one_le_pow₀ (by norm_num)
    rw [abs_mul, abs_of_pos (by positivity : (0 : ℤ) < 2 ^ scale), one']
    exact mul_le_mul short.le (le_mul_of_one_le_left (by positivity) some) (by positivity)
      (by positivity)
  obtain ⟨finite, same⟩ := units_ofUnits ⟨significand, scale, short, rfl⟩ small
  refine ⟨_, finite, ?_⟩
  have one'' : (unitsPerOne : ℚ) = 2 ^ places * 2 ^ scale := by exact_mod_cast one'
  rw [value, same, one'']
  push_cast
  field_simp

theorem exists_value_eq_whole {whole : ℤ} (short : |whole| < 2 ^ 53) :
    ∃ x, isFinite x = true ∧ value x = whole := by
  obtain ⟨x, finite, same⟩ := exists_value_eq short 0 (Nat.zero_le _)
  exact ⟨x, finite, by rw [same, pow_zero, div_one]⟩

theorem abs_value (x : Float) : |value x| = magnitude x / unitsPerOne := by
  have whole : (0 : ℚ) ≤ magnitude x / unitsPerOne :=
    div_nonneg (Nat.cast_nonneg _) (Nat.cast_nonneg _)
  rw [value_eq_sign_mul, abs_mul, abs_sign, one_mul, abs_of_nonneg whole]

theorem magnitude_lt_of_abs_lt {x y : Float} (less : |value x| < |value y|) :
    magnitude x < magnitude y := by
  rw [abs_value, abs_value, div_lt_div_iff_of_pos_right cast_unitsPerOne_pos] at less
  exact_mod_cast less

theorem exists_magnitude_between {x y : Float} (finite : isFinite y = true)
    (even : rank x % 2 = 0) (even' : rank y % 2 = 0) (less : |value x| < |value y|)
    (negative : Bool) : ∃ z magnitude, isFinite z = true ∧ value z = sign negative * magnitude ∧
      |value x| < magnitude ∧ magnitude < |value y| := by
  have ranks : rank x < rank y := unitsAt_strictMono.lt_iff_lt.mp (magnitude_lt_of_abs_lt less)
  have bound : rank y < infinityRank := of_decide_eq_true finite
  have finite' : rank x + 1 < infinityRank := by omega
  have lower : unitsAt (rank x) < unitsAt (rank x + 1) := unitsAt_lt_succ _
  have upper : unitsAt (rank x + 1) < unitsAt (rank y) := unitsAt_strictMono (by omega)
  refine ⟨ofRank negative (rank x + 1), unitsAt (rank x + 1) / unitsPerOne,
    isFinite_ofRank negative finite', value_ofRank negative finite'.le, ?_, ?_⟩
  · rw [abs_value, magnitude, div_lt_div_iff_of_pos_right cast_unitsPerOne_pos]
    exact_mod_cast lower
  · rw [abs_value, magnitude, div_lt_div_iff_of_pos_right cast_unitsPerOne_pos]
    exact_mod_cast upper

theorem exists_between {x y : Float} (finite : isFinite x = true) (finite' : isFinite y = true)
    (even : rank x % 2 = 0) (even' : rank y % 2 = 0) (less : value x < value y) :
    ∃ z, isFinite z = true ∧ value x < value z ∧ value z < value y := by
  by_cases nonneg : 0 ≤ value x
  · have further : |value x| < |value y| := by
      rwa [abs_of_nonneg nonneg, abs_of_nonneg (nonneg.trans less.le)]
    obtain ⟨z, magnitude, between, same, lower, upper⟩ :=
      exists_magnitude_between finite' even even' further false
    rw [abs_of_nonneg nonneg] at lower
    rw [abs_of_nonneg (nonneg.trans less.le)] at upper
    refine ⟨z, between, ?_, ?_⟩ <;> rw [same] <;> simpa [sign]
  · have negative : value x < 0 := lt_of_not_ge nonneg
    by_cases nonpos : value y ≤ 0
    · have further : |value y| < |value x| := by
        rw [abs_of_nonpos nonpos, abs_of_neg negative]
        exact neg_lt_neg less
      obtain ⟨z, magnitude, between, same, lower, upper⟩ :=
        exists_magnitude_between finite even' even further true
      rw [abs_of_nonpos nonpos] at lower
      rw [abs_of_neg negative] at upper
      refine ⟨z, between, ?_, ?_⟩ <;> rw [same] <;> simp only [sign] <;> push_cast <;> linarith
    · have zero : value (ofRank false 0) = 0 := by
        have none : unitsAt 0 = 0 := rfl
        rw [value_ofRank false (Nat.zero_le _), none, Nat.cast_zero, zero_div, mul_zero]
      exact ⟨ofRank false 0, isFinite_ofRank false (by decide), zero ▸ negative,
        zero ▸ lt_of_not_ge nonpos⟩

namespace IsNearest

variable {exact exact' : ℚ} {x y : Float}

/-- Of two nearest doubles neither lies below the other: in the middle between them there would be a
nearer one, since the ranks of both are even. -/
theorem not_lt (nearest : IsNearest exact x) (nearest' : IsNearest exact y) :
    ¬value x < value y := by
  intro less
  have same : |value x - exact| = |value y - exact| :=
    le_antisymm (nearest.nearest y nearest'.finite) (nearest'.nearest x nearest.finite)
  have even := nearest.even y nearest'.finite less.ne' same.symm
  have even' := nearest'.even x nearest.finite less.ne same
  obtain ⟨z, finite, lower, upper⟩ :=
    Binary64.exists_between nearest.finite nearest'.finite even even' less
  have middle : exact = (value x + value y) / 2 := by
    rcases abs_eq_abs.mp same with equal | opposite <;> linarith
  have near := nearest.nearest z finite
  rw [middle, abs_of_neg (by linarith)] at near
  have nearer := le_abs.mp near
  rcases nearer with right | left <;> linarith

theorem value_le (nearest : IsNearest exact x) (nearest' : IsNearest exact' y)
    (order : exact ≤ exact') : value x ≤ value y := by
  by_contra greater
  have less : value y < value x := lt_of_not_ge greater
  have near := sq_le_sq.mpr (nearest.nearest y nearest'.finite)
  have near' := sq_le_sq.mpr (nearest'.nearest x nearest.finite)
  -- Both exact values lie in the middle between the two doubles.
  have above : (value x + value y) / 2 ≤ exact := by nlinarith
  have below : exact' ≤ (value x + value y) / 2 := by nlinarith
  have same : exact' = exact := le_antisymm (below.trans above) order
  subst same
  exact nearest'.not_lt nearest less

theorem value_eq (nearest : IsNearest exact x) (nearest' : IsNearest exact y) :
    value x = value y :=
  le_antisymm (nearest.value_le nearest' le_rfl) (nearest'.value_le nearest le_rfl)

theorem value_eq_of_double (nearest : IsNearest exact x) (finite : isFinite y = true)
    (same : value y = exact) : value x = exact := by
  rw [← same] at nearest ⊢
  exact nearest.value_eq (isNearest_value finite)

theorem le_of_le {whole : ℤ} (nearest : IsNearest exact x) (short : |whole| < 2 ^ 53)
    (bound : exact ≤ whole) : value x ≤ whole := by
  obtain ⟨y, finite, same⟩ := exists_value_eq_whole short
  rw [← same] at bound ⊢
  exact nearest.value_le (isNearest_value finite) bound

theorem le_of_ge {whole : ℤ} (nearest : IsNearest exact x) (short : |whole| < 2 ^ 53)
    (bound : whole ≤ exact) : whole ≤ value x := by
  obtain ⟨y, finite, same⟩ := exists_value_eq_whole short
  rw [← same] at bound ⊢
  exact (isNearest_value finite).value_le nearest bound

end IsNearest

/-! The nearest whole number. -/

/-- A whole number that no other one is nearer to an exact value than, and the even one of two that
are equally near. -/
structure NearestWhole (exact : ℚ) (count : ℤ) : Prop where
  near : |count - exact| ≤ 1 / 2
  even : |count - exact| = 1 / 2 → Even count

namespace NearestWhole

variable {exact exact' : ℚ} {count count' : ℤ}

theorem le (nearest : NearestWhole exact count) (nearest' : NearestWhole exact' count')
    (order : exact ≤ exact') : count ≤ count' := by
  by_contra greater
  have next : count' + 1 ≤ count := Int.lt_of_not_ge greater
  have next' : (count' : ℚ) + 1 ≤ count := by exact_mod_cast next
  have near := abs_le.mp nearest.near
  have near' := abs_le.mp nearest'.near
  -- Both exact values lie in the middle between the two whole numbers, which are neighbours.
  have above : (count : ℚ) - exact = 1 / 2 := by linarith
  have below : (count' : ℚ) - exact' = -(1 / 2) := by linarith
  have even := nearest.even (by rw [above]; norm_num)
  have even' := nearest'.even (by rw [below]; norm_num)
  have neighbours : count = count' + 1 := by
    have cast : (count : ℚ) = count' + 1 := by linarith
    exact_mod_cast cast
  rw [neighbours, Int.even_add_one] at even
  exact even even'

theorem add_even (nearest : NearestWhole exact count) {whole : ℤ} (even : Even whole) :
    NearestWhole (whole + exact) (whole + count) := by
  have apart : ((whole + count : ℤ) : ℚ) - (whole + exact) = count - exact := by
    push_cast
    ring
  refine ⟨apart ▸ nearest.near, fun half => ?_⟩
  rw [apart] at half
  exact even.add (nearest.even half)

theorem neg (nearest : NearestWhole exact count) : NearestWhole (-exact) (-count) := by
  have turned : |((-count : ℤ) : ℚ) - -exact| = |count - exact| := by
    rw [← abs_neg]
    push_cast
    ring_nf
  refine ⟨turned ▸ nearest.near, fun half => ?_⟩
  rw [turned] at half
  exact (nearest.even half).neg

end NearestWhole

theorem nearestWhole_divideToEven (numerator : Nat) {denominator : Nat}
    (positive : 0 < denominator) :
    NearestWhole (numerator / denominator) (divideToEven numerator denominator) := by
  have steps := stepsTo_divideToEven numerator positive one_pos (mul_one _).symm
  obtain ⟨near, even⟩ := steps
  rw [mul_one] at near even
  refine ⟨by exact_mod_cast near, fun half => ?_⟩
  have last := even (by exact_mod_cast half)
  exact_mod_cast Nat.even_iff.mpr last

end Reckoner.Binary64
