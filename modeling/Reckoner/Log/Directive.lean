import Reckoner.Numeral

/-!
The pieces of a message template: characters that stand for themselves, and directives. A directive
begins with a percent sign; then come a key in parentheses, flags, a width, a precision behind a
point, a size letter without meaning, and at last the letter of the conversion. All but the last are
optional.
-/
namespace Reckoner.Log

inductive Measure where
  | width | precision
  deriving DecidableEq, Repr

/-- Measures are counted by machine words, half of whose values are negative. -/
def Measure.capacity : Measure → Nat
  | width => Nat.pow 2 63
  | precision => Nat.pow 2 31

inductive Extent where
  | given (count : Nat)
  | tooBig
  | fromArgument
  deriving DecidableEq, Repr

inductive Key where
  | named (name : String)
  | unclosed
  deriving DecidableEq, Repr

structure Directive where
  key : Option Key
  flags : List Char
  width : Extent
  precision : Option Extent
  /-- The letter of the conversion; a template may end before it. -/
  letter : Option Char
  deriving DecidableEq, Repr

namespace Directive

def readKey : (inner : Nat) → List Char → Option (List Char × List Char)
  | _, [] => none
  | 0, ')' :: rest => some ([], rest)
  | inner + 1, ')' :: rest => (readKey inner rest).map fun (key, after) => (')' :: key, after)
  | inner, '(' :: rest => (readKey (inner + 1) rest).map fun (key, after) => ('(' :: key, after)
  | inner, c :: rest => (readKey inner rest).map fun (key, after) => (c :: key, after)

def readKey? (text : List Char) : Option Key × List Char :=
  match text with
  | '(' :: rest =>
    match readKey 0 rest with
    | some (key, after) => (some (.named (String.ofList key)), after)
    | none => (some .unclosed, [])
  | _ => (none, text)

def isFlag (c : Char) : Bool := ['-', '+', ' ', '#', '0'].contains c

/-- A measure in front of a text. Without digits it is zero. -/
def readExtent (measure : Measure) (text : List Char) : Extent × List Char :=
  match text with
  | '*' :: rest => (.fromArgument, rest)
  | _ =>
    let count := Numeral.ofDigits (text.takeWhile Char.isDigit)
    (if count < measure.capacity then .given count else .tooBig, text.dropWhile Char.isDigit)

def readPrecision? (text : List Char) : Option Extent × List Char :=
  match text with
  | '.' :: rest =>
    let (precision, after) := readExtent .precision rest
    (some precision, after)
  | _ => (none, text)

def skipSize (text : List Char) : List Char :=
  match text with
  | c :: rest => if ['h', 'l', 'L'].contains c then rest else text
  | [] => []

def read (text : List Char) : Directive × List Char :=
  let (key, text) := readKey? text
  let flags := text.takeWhile isFlag
  let (width, text) := readExtent .width (text.dropWhile isFlag)
  let (precision, text) := readPrecision? text
  let text := skipSize text
  (⟨key, flags, width, precision, text.head?⟩, text.tail)

end Directive

/-- A piece of a template: a directive comes with the index of its last character. -/
inductive Piece where
  | literal (c : Char)
  | directive (directive : Directive) (last : Nat)
  deriving DecidableEq, Repr

/-- The pieces of the rest of a template from its character `index` on, of which `covered`
characters belong to the piece before. Two percent signs stand for one. -/
def Piece.ofTemplate : (index covered : Nat) → List Char → List Piece
  | _, _, [] => []
  | index, covered + 1, _ :: rest => ofTemplate (index + 1) covered rest
  | index, 0, '%' :: '%' :: rest => .literal '%' :: ofTemplate (index + 2) 0 rest
  | index, 0, '%' :: rest =>
    let (found, after) := Directive.read rest
    let length := rest.length - after.length
    .directive found (index + length) :: ofTemplate (index + 1) length rest
  | index, 0, c :: rest => .literal c :: ofTemplate (index + 1) 0 rest

end Reckoner.Log
