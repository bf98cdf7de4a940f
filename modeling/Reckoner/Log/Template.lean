import Reckoner.Log.Conversion
import Reckoner.Log.Directive

/-!
Message templates. Each directive takes the next argument and stands for its text; a directive with
a star in place of a measure takes that from the arguments first. A dictionary as the only argument
is looked up by the keys of directives. Without arguments nothing stands for anything else.
-/
namespace Reckoner.Log.Template

inductive Fault where
  | tooFewArguments
  | tooManyArguments
  | noDictionary
  | unclosedKey
  | unknownKey (name : String)
  | measureNotWhole
  | measureTooBig (measure : Measure)
  | argumentTooBig (measure : Measure)
  | incomplete
  | conversion (fault : Conversion.Fault)

def Fault.message : Fault → String
  | tooFewArguments => "not enough arguments for format string"
  | tooManyArguments => "not all arguments converted during string formatting"
  | noDictionary => "format requires a mapping"
  | unclosedKey => "incomplete format key"
  | unknownKey name => Text.quoted name
  | measureNotWhole => "* wants int"
  | measureTooBig .width => "width too big"
  | measureTooBig .precision => "precision too big"
  | argumentTooBig .width => "Python int too large to convert to C ssize_t"
  | argumentTooBig .precision => "Python int too large to convert to C int"
  | incomplete => "incomplete format"
  | conversion fault => fault.message

abbrev Entries := List (Value × Value)

/-- The content under a text as key; the last entry with that key counts. -/
def lookUp? (entries : Entries) (name : String) : Option Value :=
  entries.reverse.findSome? fun
    | (.text key, content) => if key = name then some content else none
    | _ => none

def next : List Value → Except Fault (Value × List Value)
  | [] => .error .tooFewArguments
  | argument :: arguments => .ok (argument, arguments)

def select (dictionary : Option Entries) (arguments : List Value) :
    Option Key → Except Fault (List Value)
  | none => .ok arguments
  | some key =>
    match dictionary, key with
    | none, _ => .error .noDictionary
    | some _, .unclosed => .error .unclosedKey
    | some entries, .named name =>
      match lookUp? entries name with
      | some content => .ok [content]
      | none => .error (.unknownKey name)

def measureOf (measure : Measure) : Value → Except Fault Int
  | .bool flag => .ok (if flag then 1 else 0)
  | .int number =>
    if -(measure.capacity : Int) ≤ number ∧ number < measure.capacity then .ok number
    else .error (.argumentTooBig measure)
  | _ => .error .measureNotWhole

def resolve (measure : Measure) (arguments : List Value) :
    Extent → Except Fault (Int × List Value)
  | .given count => .ok (count, arguments)
  | .tooBig => .error (.measureTooBig measure)
  | .fromArgument => do
    let (argument, arguments) ← next arguments
    return (← measureOf measure argument, arguments)

/-- A precision is resolved if there is one; a negative one counts as zero. -/
def resolvePrecision (arguments : List Value) :
    Option Extent → Except Fault (Option Nat × List Value)
  | none => .ok (none, arguments)
  | some extent => do
    let (precision, arguments) ← resolve .precision arguments extent
    return (some precision.toNat, arguments)

/-- The characters that a width asks for. The least machine word has no opposite and asks for
none. -/
def leastLength (width : Int) : Nat :=
  if width.natAbs < Measure.width.capacity then width.natAbs else 0

/-- The text of a directive, and the arguments that are left. A negative width fills up behind the
text. -/
def fillDirective (dictionary : Option Entries) (directive : Directive) (last : Nat)
    (arguments : List Value) : Except Fault (List Char × List Value) := do
  let arguments ← select dictionary arguments directive.key
  let (width, arguments) ← resolve .width arguments directive.width
  let (precision, arguments) ← resolvePrecision arguments directive.precision
  match directive.letter with
  | none => .error .incomplete
  | some letter =>
    let (argument, arguments) ← next arguments
    let style : Style :=
      { left := directive.flags.contains '-' || width < 0
        plus := directive.flags.contains '+'
        blank := directive.flags.contains ' '
        marked := directive.flags.contains '#'
        zeros := directive.flags.contains '0'
        width := leastLength width
        precision }
    let text ← (Conversion.write letter last style argument).mapError .conversion
    return (text, arguments)

/-- Fills pieces one after the other. Arguments may be left over only from a dictionary. -/
def fillPieces (dictionary : Option Entries) (arguments : List Value) :
    List Piece → Except Fault (List Char)
  | [] => if arguments.isEmpty || dictionary.isSome then .ok [] else .error .tooManyArguments
  | .literal c :: rest => (c :: ·) <$> fillPieces dictionary arguments rest
  | .directive directive last :: rest => do
    let (text, arguments) ← fillDirective dictionary directive last arguments
    return text ++ (← fillPieces dictionary arguments rest)

/-- A dictionary with entries, as the only argument, is there to be looked up. -/
def dictionary? : List Value → Option Entries
  | [.dict (entry :: entries)] => some (entry :: entries)
  | _ => none

def fill (template : String) (arguments : List Value) : Except Fault String :=
  if arguments.isEmpty then .ok template
  else String.ofList <$>
    fillPieces (dictionary? arguments) arguments (Piece.ofTemplate 0 0 template.toList)

end Reckoner.Log.Template
