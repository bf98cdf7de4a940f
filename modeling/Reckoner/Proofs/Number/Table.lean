import Reckoner.Function
import Reckoner.Proofs.Number.HalfUp

/-!
What the names of functions stand for. A name outside the table stands for the identity. The
absolute value and the three ways to a whole number are exact on every finite double.
-/
namespace Reckoner.Binary64

variable {x : Float}

theorem units_ceil (finite : isFinite x = true) : isFinite (ceil x) = true ∧
    units (ceil x) = -(-units x / unitsPerOne) * unitsPerOne := by
  have magnitude_eq := natAbs_units x
  by_cases whole : magnitude x % unitsPerOne = 0
  · have divides : (unitsPerOne : ℤ) ∣ -units x :=
      Int.dvd_neg.mpr (Int.natCast_dvd.mpr (magnitude_eq ▸ Nat.dvd_of_mod_eq_zero whole))
    rw [neg_mul, Int.ediv_mul_cancel divides, neg_neg, ceil]
    simp [whole, finite]
  · have below := Nat.div_lt_of_lt_mul (Nat.mul_comm .. ▸ magnitude_lt whole)
    have indivisible : ¬(unitsPerOne : ℤ) ∣ magnitude x := fun divides =>
      whole (Nat.mod_eq_zero_of_dvd (Int.natCast_dvd_natCast.mp divides))
    have signed : units x = if isNegative x then -(magnitude x : ℤ) else magnitude x := rfl
    rw [ceil, signed]
    simp only [finite, whole, Bool.not_true, decide_false, Bool.or_self, Bool.false_eq_true,
      if_false]
    cases isNegative x with
    | false =>
      obtain ⟨finite, same⟩ := @units_ofWhole false (magnitude x / unitsPerOne + 1) (by omega)
      have positive : (0 : ℤ) < unitsPerOne := intCast_unitsPerOne_pos
      simp only [Bool.false_eq_true, if_false]
      refine ⟨finite, ?_⟩
      rw [same, sign, if_neg Bool.false_ne_true, Int.neg_ediv, if_neg indivisible,
        Int.sign_eq_one_of_pos positive]
      push_cast
      ring
    | true =>
      obtain ⟨finite, same⟩ := @units_ofWhole true (magnitude x / unitsPerOne) (by omega)
      simp only [if_true]
      refine ⟨finite, ?_⟩
      rw [same, sign, if_pos rfl, neg_neg, Int.natCast_ediv]
      ring

theorem value_ceil (finite : isFinite x = true) : value (ceil x) = ⌈value x⌉ := by
  have negated : -value x = ((-units x : ℤ) : ℚ) / unitsPerOne := by
    rw [value, Int.cast_neg, neg_div]
  have below : ⌊-value x⌋ = -units x / unitsPerOne := by
    rw [negated]
    exact Rat.floor_intCast_div_natCast (-units x) unitsPerOne
  rw [value_of_units (units_ceil finite).2, ← below, Int.floor_neg, neg_neg]

theorem value_abs (finite : isFinite x = true) : value (ofRank false (rank x)) = |value x| := by
  have number : rank x ≤ infinityRank := (of_decide_eq_true finite).le
  have magnitude : units (ofRank false (rank x)) = |units x| := by
    rw [units_ofRank false number, if_neg Bool.false_ne_true, Int.abs_eq_natAbs, natAbs_units]
  rw [value, value, magnitude, Int.cast_abs, abs_div, abs_of_pos cast_unitsPerOne_pos]

end Reckoner.Binary64

namespace Reckoner.Function

open Binary64

def operations : List (String × (Float → Float)) :=
  [("sqrt", Float.sqrt), ("sin", Float.sin), ("cos", Float.cos), ("tan", Float.tan),
    ("abs", fun x => ofRank false (rank x)), ("ceil", Binary64.ceil),
    ("floor", Binary64.floor), ("atan", Float.atan), ("round", roundHalfUp), ("exp", Float.exp)]

theorem lookup_map_name (functions : List Function) (word : String) :
    (functions.map fun function => (function.name, function.apply)).lookup word =
      (functions.find? fun function => function.name = word).map apply := by
  induction functions with
  | nil => rfl
  | cons first rest ih =>
    rw [List.map_cons, List.lookup_cons, List.find?_cons]
    by_cases here : first.name = word
    · simp [here]
    · simp [here, ih, beq_eq_false_iff_ne.mpr (Ne.symm here)]

theorem apply_ofName (word : String) :
    (ofName word).apply = (operations.lookup word).getD id := by
  have table : operations = known.map fun function => (function.name, function.apply) := rfl
  rw [table, lookup_map_name, ofName]
  cases known.find? fun function => function.name = word <;> rfl

structure Exact (x : Float) : Prop where
  abs : value (abs.apply x) = |value x|
  ceil : value (ceil.apply x) = ⌈value x⌉
  floor : value (floor.apply x) = ⌊value x⌋
  round : value (round.apply x) = ⌊value x + 1 / 2⌋

theorem exact_of_isFinite {x : Float} (finite : isFinite x = true) : Exact x where
  abs := value_abs finite
  ceil := value_ceil finite
  floor := value_floor finite
  round := (halfUp_of_isFinite finite).value_eq

end Reckoner.Function
