/-!
A strict reader of JSON. It accepts one document with white space around it and nothing else: no
constants but `true`, `false` and `null`, no numbers with needless zeros, no controls inside strings
and no half of a surrogate pair. Numbers keep their literals, and objects the order of their
members.
-/
namespace Reckoner.Json

inductive Document where
  | null
  | bool (flag : Bool)
  | number (literal : String)
  | string (content : String)
  | array (items : List Document)
  | object (members : List (String × Document))

abbrev Reader (α : Type) := List Char → Option (α × List Char)

def isSpace (c : Char) : Bool := c = ' ' || c = '\t' || c = '\n' || c = '\r'

def skip (text : List Char) : List Char := text.dropWhile isSpace

/-! Strings. -/

def hexValue? (c : Char) : Option Nat :=
  if '0' ≤ c ∧ c ≤ '9' then some (c.toNat - 48)
  else if 'a' ≤ c ∧ c ≤ 'f' then some (c.toNat - 87)
  else if 'A' ≤ c ∧ c ≤ 'F' then some (c.toNat - 55)
  else none

def codeUnit? : Reader Nat
  | a :: b :: c :: d :: rest => do
    let digits := [← hexValue? a, ← hexValue? b, ← hexValue? c, ← hexValue? d]
    return (digits.foldl (16 * · + ·) 0, rest)
  | _ => none

/-- The character of a numeric escape. Above the first plane it takes two of them. -/
def numericEscape? : Reader Char := fun text => do
  let (unit, rest) ← codeUnit? text
  if unit < 0xD800 ∨ 0xDFFF < unit then return (Char.ofNat unit, rest)
  else if 0xDC00 ≤ unit then none
  else
    match rest with
    | '\\' :: 'u' :: rest => do
      let (low, rest) ← codeUnit? rest
      if 0xDC00 ≤ low ∧ low ≤ 0xDFFF then
        return (Char.ofNat (0x10000 + 0x400 * (unit - 0xD800) + (low - 0xDC00)), rest)
      else none
    | _ => none

def letterEscapes : List (Char × Char) :=
  [('"', '"'), ('\\', '\\'), ('/', '/'), ('b', '\x08'), ('f', '\x0c'), ('n', '\n'), ('r', '\r'),
    ('t', '\t')]

def escape? : Reader Char
  | 'u' :: rest => numericEscape? rest
  | letter :: rest => (letterEscapes.lookup letter).map (·, rest)
  | [] => none

def content? : (rounds : Nat) → Reader (List Char)
  | 0, _ => none
  | _ + 1, [] => none
  | _ + 1, '"' :: rest => some ([], rest)
  | rounds + 1, '\\' :: rest => do
    let (c, rest) ← escape? rest
    (content? rounds rest).map fun (content, rest) => (c :: content, rest)
  | rounds + 1, c :: rest =>
    if c.toNat < 0x20 then none
    else (content? rounds rest).map fun (content, rest) => (c :: content, rest)

def string? : Reader String := fun text =>
  (content? text.length text).map fun (content, rest) => (String.ofList content, rest)

/-! Numbers. -/

def sign (kinds : List Char) : List Char → List Char × List Char
  | c :: rest => if c ∈ kinds then ([c], rest) else ([], c :: rest)
  | [] => ([], [])

def digits? : Reader (List Char) := fun text =>
  let (digits, rest) := text.span Char.isDigit
  if digits.isEmpty then none else some (digits, rest)

/-- The digits in front of the point, of which the first is a zero only if it is the only one. -/
def whole? : Reader (List Char) := fun text => do
  let (digits, rest) ← digits? text
  if digits.head? = some '0' ∧ digits ≠ ['0'] then none else return (digits, rest)

def fraction? : Reader (List Char)
  | '.' :: rest => (digits? rest).map fun (digits, rest) => ('.' :: digits, rest)
  | text => some ([], text)

def exponentPart? : Reader (List Char)
  | c :: text =>
    if c = 'e' ∨ c = 'E' then
      let (sign, text) := sign ['+', '-'] text
      (digits? text).map fun (digits, rest) => (c :: sign ++ digits, rest)
    else some ([], c :: text)
  | [] => some ([], [])

def number? : Reader (List Char) := fun text => do
  let (sign, text) := sign ['-'] text
  let (whole, text) ← whole? text
  let (fraction, text) ← fraction? text
  let (exponent, rest) ← exponentPart? text
  return (sign ++ whole ++ fraction ++ exponent, rest)

/-! Documents. -/

def constants : List (List Char × Document) :=
  [(['t', 'r', 'u', 'e'], .bool true), (['f', 'a', 'l', 's', 'e'], .bool false),
    (['n', 'u', 'l', 'l'], .null)]

def constant? : Reader Document := fun text =>
  constants.findSome? fun (word, document) =>
    if word.isPrefixOf text then some (document, text.drop word.length) else none

def elements? {α : Type} (element : Reader α) (closing : Char) : (rounds : Nat) → Reader (List α)
  | 0, _ => none
  | rounds + 1, text => do
    let (first, rest) ← element text
    match skip rest with
    | [] => none
    | c :: rest =>
      if c = closing then return ([first], rest)
      else if c = ',' then
        (elements? element closing rounds rest).map fun (others, rest) => (first :: others, rest)
      else none

/-- Elements with commas between them behind an opening bracket; there may be none. -/
def enclosed? {α : Type} (element : Reader α) (closing : Char) : Reader (List α) := fun text =>
  if (skip text).head? = some closing then some ([], (skip text).tail)
  else elements? element closing text.length text

def member? (value : Reader Document) : Reader (String × Document) := fun text =>
  match skip text with
  | '"' :: rest => do
    let (name, rest) ← string? rest
    match skip rest with
    | ':' :: rest => (value rest).map fun (document, rest) => ((name, document), rest)
    | _ => none
  | _ => none

def document? : (depth : Nat) → Reader Document
  | 0, _ => none
  | depth + 1, text =>
    match skip text with
    | '"' :: rest => (string? rest).map fun (content, rest) => (.string content, rest)
    | '[' :: rest =>
      (enclosed? (document? depth) ']' rest).map fun (items, rest) => (.array items, rest)
    | '\x7b' :: rest =>
      (enclosed? (member? (document? depth)) '\x7d' rest).map fun (members, rest) =>
        (.object members, rest)
    | text =>
      (constant? text).or
        ((number? text).map fun (literal, rest) => (.number (String.ofList literal), rest))

/-- The document that a text consists of. -/
def read (text : String) : Option Document := do
  let (document, rest) ← document? (text.length + 1) text.toList
  if (skip rest).isEmpty then return document else none

/-- What lenient readers let pass is refused. -/
example : ["NaN", "-Infinity", "01", "1.", "[1,]", "\"\n\"", "\"\\ud83d\"", "1 2"].all
    fun text => (read text).isNone := by decide

end Reckoner.Json
