import Reckoner.Decimal.Basic
import Reckoner.Text.Blank
import Reckoner.Text.DecimalDigit
import Reckoner.Text.Quoted

/-!
Numerals as people type them: white space around, digits of any script, and single underscores
between digits are allowed. Whole numbers and real numbers are read from the same plain form.
-/
namespace Reckoner.Numeral

/-- White space around a numeral; the four ASCII separator controls are not part of it. -/
def isMargin (c : Char) : Bool := Text.isBlank c && !(0x1C ≤ c.toNat && c.toNat ≤ 0x1F)

def plainDigit (c : Char) : Char :=
  match Text.digitValue? c with
  | some value => Char.ofNat ('0'.toNat + value)
  | none => c

/-- Underscores go; each has to stand between two digits. -/
def dropUnderscores : (afterDigit : Bool) → List Char → Option (List Char)
  | _, [] => some []
  | afterDigit, '_' :: c :: rest =>
    if afterDigit && c.isDigit then (dropUnderscores true rest).map (c :: ·) else none
  | _, ['_'] => none
  | _, c :: rest => (dropUnderscores c.isDigit rest).map (c :: ·)

/-- The plain form: no margin, ASCII digits, no underscores. -/
def plain (text : List Char) : Option (List Char) :=
  dropUnderscores false ((Text.trimBoth isMargin text).map plainDigit)

def takeSign : List Char → Bool × List Char
  | '-' :: rest => (true, rest)
  | '+' :: rest => (false, rest)
  | text => (false, text)

def ofDigits (digits : List Char) : Nat := Decimal.ofDigits (digits.map (·.toNat - '0'.toNat))

inductive WholeFault where
  | malformed
  | tooManyDigits (count : Nat)
  deriving DecidableEq, Repr

/-- Whole numbers are read and written up to this many digits. -/
def maxDigits : Nat := 4300

def isWritable (number : Int) : Bool := (Nat.toDigits 10 number.natAbs).length ≤ maxDigits

def unwritableMessage : String := "Exceeds the limit (" ++ toString maxDigits ++
  " digits) for integer string conversion; use sys.set_int_max_str_digits() to increase the limit"

/-- A whole number in decimal. The digits in front are counted before anything behind them is looked
at, so too many of them are the fault of a text that is malformed further on. -/
def whole (text : List Char) : Except WholeFault Int :=
  let (negative, body) := takeSign ((Text.trimBoth isMargin text).map plainDigit)
  let inNumeral := fun (c : Char) => c.isDigit || c = '_'
  match dropUnderscores false (body.takeWhile inNumeral) with
  | none => .error .malformed
  | some digits =>
    if maxDigits < digits.length then .error (.tooManyDigits digits.length)
    else if digits.isEmpty || !(body.dropWhile inNumeral).isEmpty then .error .malformed
    else .ok (if negative then -(ofDigits digits : Int) else ofDigits digits)

/-- The wording of a fault in the given text, of whose quoted form 200 characters are shown. -/
def WholeFault.message (text : String) : WholeFault → String
  | .malformed => "invalid literal for int() with base 10: " ++
      String.ofList ((Text.quoted text).toList.take 200)
  | .tooManyDigits count => "Exceeds the limit (" ++ toString maxDigits ++
      " digits) for integer string conversion: value has " ++ toString count ++
      " digits; use sys.set_int_max_str_digits() to increase the limit"

def exponent? (text : List Char) : Option Int :=
  let (negative, digits) := takeSign text
  if digits.isEmpty || !digits.all (·.isDigit) then none
  else some (if negative then -(ofDigits digits : Int) else ofDigits digits)

def decimal? (text : List Char) : Option Decimal := do
  let (integer, rest) := text.span Char.isDigit
  let (fraction, rest) :=
    match rest with
    | '.' :: rest => rest.span Char.isDigit
    | _ => ([], rest)
  if integer.isEmpty && fraction.isEmpty then none
  let exponent ←
    match rest with
    | [] => some 0
    | c :: rest => if c.toLower = 'e' then exponent? rest else none
  return ⟨ofDigits (integer ++ fraction), exponent - fraction.length⟩

def real? (text : List Char) : Option Float := do
  let (negative, body) := takeSign (← plain text)
  match String.ofList (body.map Char.toLower) with
  | "inf" | "infinity" => return Binary64.infinity negative
  | "nan" => return Binary64.notANumber
  | _ => (decimal? body).map (·.toFloat negative)

end Reckoner.Numeral
