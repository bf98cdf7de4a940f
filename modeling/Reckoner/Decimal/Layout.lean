import Reckoner.Decimal.Basic
import Reckoner.Text.Padded

/-!
How a decimal is laid out as text: in positional form for exponents within a window, else in
scientific form with a signed exponent of at least two digits.
-/
namespace Reckoner.Decimal

structure Layout where
  /-- Exponents from here on are positional. -/
  lowest : Int
  /-- Exponents from here on are scientific again. -/
  limit : Int
  /-- Whole numbers in positional form end in `.0`. -/
  marksWhole : Bool
  /-- The point stands even where no digit follows it. -/
  pointed : Bool

/-- The digits without trailing zeros; zero keeps its only digit. -/
def significantDigits (d : Decimal) : List Char :=
  if d.coefficient = 0 then ['0']
  else ((Nat.toDigits 10 d.coefficient).reverse.dropWhile (· = '0')).reverse

/-- A fraction part behind its point; nothing for no digits, unless the point stands anyway. -/
def fraction (pointed : Bool) (digits : List Char) : List Char :=
  if digits.isEmpty && !pointed then [] else '.' :: digits

def positional (marksWhole pointed : Bool) (digits : List Char) (exponent : Int) : List Char :=
  if exponent < 0 then
    '0' :: fraction pointed (List.replicate (-exponent - 1).toNat '0' ++ digits)
  else
    let whole := exponent.toNat + 1
    let tail := if marksWhole && digits.length ≤ whole then ['0'] else digits.drop whole
    digits.take whole ++ List.replicate (whole - digits.length) '0' ++ fraction pointed tail

def exponentText (exponent : Int) : List Char :=
  (if exponent < 0 then '-' else '+') :: Text.decimal 2 exponent.natAbs

def scientific (pointed : Bool) (digits : List Char) (exponent : Int) : List Char :=
  digits.take 1 ++ fraction pointed (digits.drop 1) ++ 'e' :: exponentText exponent

def Layout.place (layout : Layout) (digits : List Char) (exponent : Int) : List Char :=
  if layout.lowest ≤ exponent ∧ exponent < layout.limit then
    positional layout.marksWhole layout.pointed digits exponent
  else scientific layout.pointed digits exponent

/-- A decimal behind its sign. Trailing zeros are not written. -/
def Layout.write (layout : Layout) (negative : Bool) (d : Decimal) : List Char :=
  let body := layout.place d.significantDigits d.exponent
  if negative then '-' :: body else body

end Reckoner.Decimal
