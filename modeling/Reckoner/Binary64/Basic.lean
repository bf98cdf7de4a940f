/-!
Doubles seen as whole numbers. The non-negative doubles, counted upwards from zero, are the
numbers up to `infinityRank`; each finite one is a whole number of units of `2^-1074`.
Rounding to a double is rounding that whole number to the nearest rank.
-/
namespace Reckoner.Binary64

/-- Quotient of two naturals rounded to the nearest natural, halves to the even one. -/
def divideToEven (numerator denominator : Nat) : Nat :=
  let quotient := numerator / denominator
  let twice := 2 * (numerator % denominator)
  if twice < denominator then quotient
  else if denominator < twice then quotient + 1
  else quotient + quotient % 2

theorem divideToEven_le (numerator denominator : Nat) :
    2 * (denominator * divideToEven numerator denominator) ≤ 2 * numerator + denominator := by
  have parts := Nat.div_add_mod numerator denominator
  have step : denominator * (numerator / denominator + 1) =
      denominator * (numerator / denominator) + denominator := Nat.mul_succ ..
  unfold divideToEven
  simp only
  split
  · omega
  · split
    · omega
    · rcases Nat.mod_two_eq_zero_or_one (numerator / denominator) with even | odd
      · rw [even, Nat.add_zero]
        omega
      · rw [odd]
        omega

theorem le_divideToEven {numerator denominator : Nat} (positive : 0 < denominator) :
    2 * numerator ≤ 2 * (denominator * divideToEven numerator denominator) + denominator := by
  have parts := Nat.div_add_mod numerator denominator
  have small := Nat.mod_lt numerator positive
  have step : denominator * (numerator / denominator + 1) =
      denominator * (numerator / denominator) + denominator := Nat.mul_succ ..
  unfold divideToEven
  simp only
  split
  · omega
  · split
    · omega
    · rcases Nat.mod_two_eq_zero_or_one (numerator / denominator) with even | odd
      · rw [even, Nat.add_zero]
        omega
      · rw [odd]
        omega

def isNegative (x : Float) : Bool := Nat.pow 2 63 ≤ x.toBits.toNat

/-- The place of the magnitude among the non-negative doubles: the bits below the sign. -/
def rank (x : Float) : Nat := x.toBits.toNat % Nat.pow 2 63

def infinityRank : Nat := 2047 * Nat.pow 2 52

def isFinite (x : Float) : Bool := rank x < infinityRank

def isNaN (x : Float) : Bool := infinityRank < rank x

/-- The magnitude at a rank, in units of `2^-1074`. -/
def unitsAt (place : Nat) : Nat :=
  if place < Nat.pow 2 52 then place
  else (Nat.pow 2 52 + place % Nat.pow 2 52) * Nat.pow 2 (place / Nat.pow 2 52 - 1)

def unitsPerOne : Nat := Nat.pow 2 1074

def magnitude (x : Float) : Nat := unitsAt (rank x)

def units (x : Float) : Int := if isNegative x then -(magnitude x : Int) else magnitude x

def ofRank (negative : Bool) (place : Nat) : Float :=
  Float.ofBits (UInt64.ofNat (if negative then Nat.pow 2 63 + place else place))

def infinity (negative : Bool) : Float := ofRank negative infinityRank

def notANumber : Float := ofRank false (infinityRank + Nat.pow 2 51)

/-- The rank nearest to a quotient of units, halves to the even rank, up to that of infinity. -/
def nearestRank (numerator denominator : Nat) : Nat :=
  let excess := (numerator / denominator).log2 - 52
  min infinityRank
    (excess * Nat.pow 2 52 + divideToEven numerator (denominator * Nat.pow 2 excess))

/-- The double nearest to a whole number of units; zero is the positive zero. -/
def ofUnits (count : Int) : Float := ofRank (count < 0) (nearestRank count.natAbs 1)

def ofWhole (negative : Bool) (count : Nat) : Float :=
  ofRank negative (nearestRank (count * unitsPerOne) 1)

def negate (x : Float) : Float := ofRank (!isNegative x) (rank x)

end Reckoner.Binary64
