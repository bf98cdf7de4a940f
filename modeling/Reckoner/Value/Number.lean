import Reckoner.Numeral
import Reckoner.Value.Written

/-!
Values taken as numbers, and the number text with a chosen count of significant digits. A value
that is no number keeps its plain text.
-/
namespace Reckoner.Value

def asciiChars? (content : List UInt8) : Option (List Char) :=
  if content.all (· < 0x80) then some (content.map fun byte => Char.ofNat byte.toNat) else none

def floatOfInt? (number : Int) : Option Float :=
  let x := Binary64.ofUnits (number * Binary64.unitsPerOne)
  if Binary64.isFinite x then some x else none

def toFloat? : Value → Option Float
  | .text content => Numeral.real? content.toList
  | .bool flag => floatOfInt? (if flag then 1 else 0)
  | .int number => floatOfInt? number
  | .float number => some number
  | .bytes content => asciiChars? content >>= Numeral.real?
  | .nothing | .list _ | .dict _ => none

/-- A fraction is cut off towards zero. -/
def toInt? : Value → Option Int
  | .text content => (Numeral.whole content.toList).toOption
  | .bool flag => some (if flag then 1 else 0)
  | .int number => some number
  | .float number =>
    if Binary64.isFinite number then
      some ((Binary64.units number).tdiv (Binary64.unitsPerOne : Int))
    else none
  | .bytes content => asciiChars? content >>= fun text => (Numeral.whole text).toOption
  | .nothing | .list _ | .dict _ => none

end Reckoner.Value

namespace Reckoner.NumberText

def maxPrecision : Int := 2147483647

/-- The value as a number with `precision` significant digits; its plain text if it is no number or
the precision cannot be met. -/
def format (precision value : Value) : String :=
  match precision.toInt?, value.toFloat? with
  | some digits, some x =>
    if 0 ≤ digits ∧ digits ≤ maxPrecision then significant digits.toNat x else value.plain
  | _, _ => value.plain

end Reckoner.NumberText
