import Reckoner.Number

/-!
Conversions of message templates: how a letter turns an argument into text, and how the text is laid
out by flags, width and precision.
-/
namespace Reckoner.Log

/-- What becomes of an argument. The three forms of a double and the hexadecimal form can be in
upper case. -/
inductive Conversion where
  | plain | quoted | ascii | character
  | whole | octal | hexadecimal (upper : Bool)
  | scientific (upper : Bool) | fixed (upper : Bool) | general (upper : Bool)
  deriving DecidableEq, Repr

structure Style where
  /-- Fill up behind the text. -/
  left : Bool
  /-- Show the sign of positive numbers. -/
  plus : Bool
  /-- Leave room for the sign of positive numbers. -/
  blank : Bool
  /-- Mark the base, or keep the point of a number. -/
  marked : Bool
  /-- Fill up numbers with zeros. -/
  zeros : Bool
  width : Nat
  precision : Option Nat
  deriving DecidableEq, Repr

namespace Conversion

def ofLetter? : Char → Option Conversion
  | 's' => some plain
  | 'r' => some quoted
  | 'a' => some ascii
  | 'c' => some character
  | 'd' | 'i' | 'u' => some whole
  | 'o' => some octal
  | 'x' => some (hexadecimal false)
  | 'X' => some (hexadecimal true)
  | 'e' => some (scientific false)
  | 'E' => some (scientific true)
  | 'f' => some (fixed false)
  | 'F' => some (fixed true)
  | 'g' => some (general false)
  | 'G' => some (general true)
  | _ => none

inductive Fault where
  | unknownLetter (letter : Char) (index : Nat)
  | notNumeric (letter : Char) (kindName : String)
  | notWhole (letter : Char) (kindName : String)
  | notReal (fault : Number.Fault)
  | notFinite (x : Float)
  | notACharacter
  | beyondCharacters
  | tooPrecise
  | tooLong
  /-- The argument has a whole number in it that cannot be written. -/
  | unwritable

/-- A character within a message; those that do not show are replaced. -/
def shownChar (c : Char) : Char := if 31 ≤ c.toNat && c.toNat ≤ 126 then c else '?'

def Fault.message : Fault → String
  | unknownLetter letter index => "unsupported format character '" ++
      String.singleton (shownChar letter) ++ "' (0x" ++
      String.ofList (Text.hexadecimal 1 letter.toNat) ++ ") at index " ++ toString index
  | notNumeric letter kindName => "%" ++ String.singleton letter ++
      " format: a real number is required, not " ++ kindName
  | notWhole letter kindName => "%" ++ String.singleton letter ++
      " format: an integer is required, not " ++ kindName
  | notReal fault => fault.message
  | notFinite x => "cannot convert float " ++ (if Binary64.isNaN x then "NaN" else "infinity") ++
      " to integer"
  | notACharacter => "%c requires int or char"
  | beyondCharacters => "%c arg not in range(0x110000)"
  | tooPrecise => "precision too large"
  | tooLong => ""
  | unwritable => Numeral.unwritableMessage

/-- No text is filled up with more characters than this. -/
def maxFilling : Nat := Nat.pow 2 27

/-- The text of an argument in parts. Zeros fill up behind sign and mark, and only numbers. -/
structure Converted where
  sign : List Char := []
  mark : List Char := []
  body : List Char
  isNumber : Bool := false
  deriving DecidableEq, Repr

def ofText (style : Style) (text : Value → String) (argument : Value) : Except Fault Converted :=
  if argument.isWritable then
    .ok { body := (style.precision.map (text argument).toList.take).getD (text argument).toList }
  else .error .unwritable

def signOf (style : Style) (negative : Bool) : List Char :=
  if negative then ['-'] else if style.plus then ['+'] else if style.blank then [' '] else []

def maxPrecision : Nat := Nat.pow 2 31 - 4

/-- Only in base ten is the number of digits bounded. -/
def decimalDigits (magnitude : Nat) : Except Fault (List Char) :=
  if Numeral.isWritable magnitude then .ok (Nat.toDigits 10 magnitude) else .error .unwritable

def ofWhole (style : Style) (mark : List Char) (digits : Nat → Except Fault (List Char))
    (number : Int) : Except Fault Converted :=
  let least := style.precision.getD 0
  if maxPrecision < least then .error .tooPrecise
  else (digits number.natAbs).bind fun shown =>
    if maxFilling < least then .error .tooLong
    else .ok
      { sign := signOf style (number < 0)
        mark := if style.marked then mark else []
        body := Text.padded least shown
        isNumber := true }

def inCase (upper : Bool) (text : List Char) : List Char :=
  if upper then text.map Char.toUpper else text

/-- A double by the text of its finite magnitude, given the number of places. Six places are shown
unless the precision says otherwise. -/
def ofDouble (style : Style) (upper : Bool) (magnitude : Nat → Float → List Char) (x : Float) :
    Except Fault Converted :=
  let places := style.precision.getD 6
  if maxFilling < places then .error .tooLong
  else .ok
    { sign := signOf style (Binary64.isNegative x && !Binary64.isNaN x)
      body := inCase upper
        (if Binary64.isFinite x then magnitude places x
          else if Binary64.isNaN x then "nan".toList else "inf".toList)
      isNumber := true }

def wholeOf (letter : Char) : Value → Except Fault Int
  | .float x =>
    match (Value.float x).toInt? with
    | some number => .ok number
    | none => .error (.notFinite x)
  | .int number => .ok number
  | .bool flag => .ok (if flag then 1 else 0)
  | other => .error (.notNumeric letter other.kindName)

def integerOf (letter : Char) : Value → Except Fault Int
  | .int number => .ok number
  | .bool flag => .ok (if flag then 1 else 0)
  | other => .error (.notWhole letter other.kindName)

/-- The character of an argument: a text of one character, or the number of a code point. A code
point that is no character shows as the replacement character. -/
def characterOf : Value → Except Fault Char
  | .text content =>
    match content.toList with
    | [c] => .ok c
    | _ => .error .notACharacter
  | argument =>
    match integerOf 'c' argument with
    | .error _ => .error .notACharacter
    | .ok number =>
      if 0 ≤ number ∧ number < 0x110000 then
        .ok (if number.toNat.isValidChar then Char.ofNat number.toNat else '\uFFFD')
      else .error .beyondCharacters

def apply (conversion : Conversion) (letter : Char) (style : Style) (argument : Value) :
    Except Fault Converted :=
  match conversion with
  | plain => ofText style Value.plain argument
  | quoted => ofText style Value.quoted argument
  | ascii => ofText style (Text.asciiEscaped ∘ Value.quoted) argument
  | character => do return { body := [← characterOf argument] }
  | whole => do ofWhole style [] decimalDigits (← wholeOf letter argument)
  | octal => do ofWhole style ['0', 'o'] (.ok ∘ Nat.toDigits 8) (← integerOf letter argument)
  | hexadecimal upper => do
    ofWhole style ['0', letter] (.ok ∘ inCase upper ∘ Nat.toDigits 16)
      (← integerOf letter argument)
  | scientific upper => do
    ofDouble style upper (NumberText.scientificForm style.marked)
      (← (Number.nearestDouble argument).mapError .notReal)
  | fixed upper => do
    ofDouble style upper (NumberText.fixedForm style.marked)
      (← (Number.nearestDouble argument).mapError .notReal)
  | general upper => do
    ofDouble style upper (NumberText.generalForm style.marked)
      (← (Number.nearestDouble argument).mapError .notReal)

def Converted.fill (style : Style) (converted : Converted) : Except Fault (List Char) :=
  let front := converted.sign ++ converted.mark
  let missing := style.width - (front.length + converted.body.length)
  if maxFilling < missing then .error .tooLong
  else if style.left then .ok (front ++ converted.body ++ List.replicate missing ' ')
  else if style.zeros && converted.isNumber then
    .ok (front ++ List.replicate missing '0' ++ converted.body)
  else .ok (List.replicate missing ' ' ++ front ++ converted.body)

def write (letter : Char) (index : Nat) (style : Style) (argument : Value) :
    Except Fault (List Char) :=
  match ofLetter? letter with
  | none => .error (.unknownLetter letter index)
  | some conversion => do (← conversion.apply letter style argument).fill style

end Conversion

end Reckoner.Log
