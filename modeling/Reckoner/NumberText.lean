import Reckoner.Decimal.Shortest
import Reckoner.Decimal.Layout

/-!
The texts of a double: with the fewest digits that read back, with a chosen number of significant
digits, and in fixed, scientific and general form with a chosen number of places.
-/
namespace Reckoner.NumberText

/-- The text of an infinity or of a non-number; finite doubles are left to the writer. -/
def orSpecial (finite : Float → String) (x : Float) : String :=
  if Binary64.isFinite x then finite x
  else if Binary64.isNaN x then "nan"
  else if Binary64.isNegative x then "-inf" else "inf"

/-- Positional from `10^-4` to below `10^16`, with whole numbers ending in `.0`. -/
def shortestLayout : Decimal.Layout := ⟨-4, 16, true, false⟩

def shortest : Float → String :=
  orSpecial fun x =>
    String.ofList (shortestLayout.write (Binary64.isNegative x) (.shortest (Binary64.rank x)))

/-- Positional from `10^-4` to below `10^digits`. -/
def significantLayout (digits : Nat) (pointed : Bool) : Decimal.Layout :=
  ⟨-4, digits, false, pointed⟩

/-- Every double is exact within this many significant digits. -/
def exactDigits : Nat := 1400

def roundedDecimal (digits : Nat) (x : Float) : Decimal :=
  if Binary64.magnitude x = 0 then ⟨0, 0⟩
  else .ofQuotient (min digits exactDigits) (Binary64.magnitude x) Binary64.unitsPerOne

/-- The value rounded to a number of significant digits; none counts as one. -/
def significant (digits : Nat) : Float → String :=
  orSpecial fun x =>
    String.ofList
      ((significantLayout (max digits 1) false).write (Binary64.isNegative x)
        (roundedDecimal (max digits 1) x))

/-- The leading digits of a finite magnitude, rounded and just as many as asked for, and the
exponent of the first of them. -/
def leadingDigits (count : Nat) (x : Float) : List Char × Int :=
  let rounded := roundedDecimal count x
  let digits := Nat.toDigits 10 rounded.coefficient
  (digits.take count ++ List.replicate (count - digits.length) '0', rounded.exponent)

def scientificForm (pointed : Bool) (places : Nat) (x : Float) : List Char :=
  let (digits, exponent) := leadingDigits (places + 1) x
  Decimal.scientific pointed digits exponent

def fixedForm (pointed : Bool) (places : Nat) (x : Float) : List Char :=
  let exact := min places exactDigits
  let steps :=
    Binary64.divideToEven (Binary64.magnitude x * Nat.pow 10 exact) Binary64.unitsPerOne
  let digits := Text.decimal (exact + 1) steps
  let whole := digits.length - exact
  digits.take whole ++
    Decimal.fraction pointed (digits.drop whole ++ List.replicate (places - exact) '0')

/-- A finite magnitude with as many significant digits, of which there is at least one. Trailing
zeros are written only where the point always stands. -/
def generalForm (pointed : Bool) (digits : Nat) (x : Float) : List Char :=
  let layout := significantLayout (max digits 1) pointed
  if pointed then
    let (digits, exponent) := leadingDigits (max digits 1) x
    layout.place digits exponent
  else layout.write false (roundedDecimal (max digits 1) x)

end Reckoner.NumberText
