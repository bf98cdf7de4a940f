import Reckoner.Binary64.Basic

/-!
Decimal numbers `coefficient * 10^scale`, their place value, and the double nearest to one.
-/
namespace Reckoner

/-- The number `coefficient * 10^scale`. -/
structure Decimal where
  coefficient : Nat
  scale : Int
  deriving DecidableEq, Repr

namespace Decimal

def width (n : Nat) : Nat := (Nat.toDigits 10 n).length

def ofDigits (digits : List Nat) : Nat := digits.foldl (fun value digit => 10 * value + digit) 0

def exponent (d : Decimal) : Int := d.scale + (width d.coefficient - 1 : Nat)

/-- The value as a quotient of naturals: a power of ten divides when the scale is negative. -/
def numerator (d : Decimal) : Nat := d.coefficient * Nat.pow 10 d.scale.toNat

def denominator (d : Decimal) : Nat := Nat.pow 10 (-d.scale).toNat

def nearestRank (d : Decimal) : Nat :=
  Binary64.nearestRank (d.numerator * Binary64.unitsPerOne) d.denominator

/-- The double nearest to `±d`. A power of ten above `10^400` is beyond every double and one below
`10^-400` rounds to zero, so the quotient is formed only between the two. -/
def toFloat (negative : Bool) (d : Decimal) : Float :=
  if d.coefficient = 0 ∨ d.scale + d.coefficient.log2 + 1 < -400 then Binary64.ofRank negative 0
  else if 400 < d.scale then Binary64.infinity negative
  else Binary64.ofRank negative d.nearestRank

def leadingExponent (numerator denominator : Nat) : Int :=
  let guess : Int := (width numerator : Int) - width denominator
  if denominator * Nat.pow 10 guess.toNat ≤ numerator * Nat.pow 10 (-guess).toNat then guess
  else guess - 1

/-- A positive quotient measured in steps of `10^scale`, as a quotient again. -/
def inSteps (scale : Int) (numerator denominator : Nat) : Nat × Nat :=
  (numerator * Nat.pow 10 (-scale).toNat, denominator * Nat.pow 10 scale.toNat)

/-- A positive quotient rounded to `count` significant digits, halves to the even last digit. A
carry into a new leading digit leaves the coefficient `10^count`. -/
def ofQuotient (count numerator denominator : Nat) : Decimal :=
  let scale := leadingExponent numerator denominator - (count - 1 : Nat)
  let (above, below) := inSteps scale numerator denominator
  ⟨Binary64.divideToEven above below, scale⟩

end Decimal

end Reckoner
