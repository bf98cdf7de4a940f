import Reckoner.Binary64.Basic

/-! Rounding a double to a whole number: down, up, and to the nearest one with halves upwards. -/

namespace Reckoner.Binary64

def floor (x : Float) : Float :=
  let whole := magnitude x / unitsPerOne
  if !isFinite x || magnitude x % unitsPerOne = 0 then x
  else if isNegative x then ofWhole true (whole + 1) else ofWhole false whole

/-- A value between minus one and zero goes up to the negative zero. -/
def ceil (x : Float) : Float :=
  let whole := magnitude x / unitsPerOne
  if !isFinite x || magnitude x % unitsPerOne = 0 then x
  else if isNegative x then ofWhole true whole else ofWhole false (whole + 1)

/-- Halves go upwards, towards positive infinity. The distance to the floor and the step above it
are themselves rounded to doubles. -/
def roundHalfUp (x : Float) : Float :=
  if isFinite x then
    let below := floor x
    let distance := ofUnits (units x - units below)
    if unitsPerOne / 2 ≤ units distance then ofUnits (units below + unitsPerOne) else below
  else x

end Reckoner.Binary64
