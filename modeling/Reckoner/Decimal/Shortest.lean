import Reckoner.Decimal.Basic

/-!
The shortest decimal that reads back as a given double. Of two such decimals with as many digits,
the nearer to the double is taken, and of two equally near the one with the even last digit.
-/
namespace Reckoner.Decimal

def neighbours (scale : Int) (numerator denominator : Nat) : List Decimal :=
  let (above, below) := inSteps scale numerator denominator
  let nearer := Binary64.divideToEven above below
  [⟨nearer, scale⟩, ⟨2 * (above / below) + 1 - nearer, scale⟩]

def readingBack (place count : Nat) : Option Decimal :=
  let scale := leadingExponent (Binary64.unitsAt place) Binary64.unitsPerOne - (count - 1 : Nat)
  (neighbours scale (Binary64.unitsAt place) Binary64.unitsPerOne).find?
    fun candidate => candidate.nearestRank = place

/-- Seventeen digits always suffice. -/
def shortest (place : Nat) : Decimal :=
  if place = 0 then ⟨0, 0⟩
  else ((List.range' 1 17).findSome? (readingBack place)).getD
    (ofQuotient 17 (Binary64.unitsAt place) Binary64.unitsPerOne)

end Reckoner.Decimal
