import Mathlib
import Reckoner.Proofs.Number.Rounding

/-!
The exact values of doubles. A double made of a sign and a rank has that sign and that rank, so its
value is the signed magnitude at the rank.
-/
namespace Reckoner.Binary64

theorem toBits_ofBits {word : UInt64} (number : word.toNat % 2 ^ 63 ≤ infinityRank) :
    (Float.ofBits word).toBits = word := by
  have valid : Float.Model.Format.binary64.Valid word.toBitVec := by
    constructor
    intro exponent mantissa
    have full : word.toNat >>> 52 % 2 ^ 11 = 2047 := congrArg BitVec.toNat exponent
    have some : word.toNat >>> 0 % 2 ^ 52 ≠ 0 := fun none =>
      mantissa (BitVec.eq_of_toNat_eq none)
    have bound : word.toNat % 2 ^ 63 ≤ 2047 * 2 ^ 52 := number
    rw [Nat.shiftRight_eq_div_pow] at full
    rw [Nat.shiftRight_zero] at some
    omega
  have kept := Float.ofBits_toBits (Float.ofModel ⟨word, valid⟩)
  exact congrArg Float.toBits kept

section Rank

variable (negative : Bool) {place : Nat}

theorem toNat_toBits_ofRank (number : place ≤ infinityRank) :
    (ofRank negative place).toBits.toNat = (if negative then 2 ^ 63 else 0) + place := by
  have bound : place ≤ 2047 * 2 ^ 52 := number
  have word : (UInt64.ofNat (if negative then Nat.pow 2 63 + place else place)).toNat =
      (if negative then 2 ^ 63 else 0) + place := by
    rw [UInt64.toNat_ofNat']
    cases negative
    · simp only [Bool.false_eq_true, ↓reduceIte, Nat.zero_add]
      omega
    · simp only [↓reduceIte, Nat.pow_eq]
      omega
  have below : ((if negative then 2 ^ 63 else 0) + place) % 2 ^ 63 = place := by
    cases negative <;> simp only [Bool.false_eq_true, ↓reduceIte] <;> omega
  rw [ofRank, toBits_ofBits, word]
  rw [word, below]
  exact number

theorem rank_ofRank (number : place ≤ infinityRank) : rank (ofRank negative place) = place := by
  have bound : place ≤ 2047 * 2 ^ 52 := number
  rw [rank, toNat_toBits_ofRank negative number, Nat.pow_eq]
  cases negative <;> simp only [Bool.false_eq_true, ↓reduceIte] <;> omega

theorem isNegative_ofRank (number : place ≤ infinityRank) :
    isNegative (ofRank negative place) = negative := by
  have bound : place ≤ 2047 * 2 ^ 52 := number
  rw [isNegative, toNat_toBits_ofRank negative number, Nat.pow_eq]
  cases negative
  · simp only [Bool.false_eq_true, ↓reduceIte, decide_eq_false_iff_not]
    omega
  · simp only [↓reduceIte, decide_eq_true_eq]
    omega

theorem isFinite_ofRank (finite : place < infinityRank) :
    isFinite (ofRank negative place) = true := by
  rw [isFinite, rank_ofRank negative finite.le]
  exact decide_eq_true finite

theorem units_ofRank (number : place ≤ infinityRank) :
    units (ofRank negative place) = if negative then -(unitsAt place : Int) else unitsAt place := by
  rw [units, magnitude, isNegative_ofRank negative number, rank_ofRank negative number]

end Rank

theorem natAbs_units (x : Float) : (units x).natAbs = unitsAt (rank x) := by
  rw [units, magnitude]
  split <;> simp

/-- The exact value of a finite double. -/
def value (x : Float) : ℚ := units x / unitsPerOne

end Reckoner.Binary64
