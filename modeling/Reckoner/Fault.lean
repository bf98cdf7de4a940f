import Reckoner.Cursor
import Reckoner.Numeral

/-!
Why an expression is refused: the cause, where it lies, and how it is worded. Every cause belongs
to one kind of error and has a code that does not change with the wording.
-/
namespace Reckoner

/-- The kinds of errors. `evaluation` is the general one that the others belong to, except for
`foreign`, which stands for errors that are none of the library's own. -/
inductive ErrorKind where
  | evaluation | grammar | numberFormat | nesting | validation | foreign
  deriving DecidableEq, Repr

namespace ErrorKind

def defaultCode : ErrorKind → String
  | evaluation => "EVAL_ERROR"
  | grammar => "SYNTAX_ERROR"
  | numberFormat => "NUMBER_FORMAT"
  | nesting => "TOO_DEEP"
  | validation => "VALIDATION_ERROR"
  | foreign => ""

def ancestry (kind : ErrorKind) : List ErrorKind :=
  if kind = evaluation then [evaluation] else if kind = foreign then [] else [evaluation, kind]

/-- A malformed number is also an error of value in general. -/
def isValueError (kind : ErrorKind) : Bool := kind = numberFormat || kind = foreign

end ErrorKind

structure ErrorReport where
  kind : ErrorKind
  message : String
  code : String
  position : Option Int
  char : Option String
  deriving DecidableEq, Repr

/-- An absent or empty code means the default of the kind. -/
def ErrorReport.make (kind : ErrorKind) (message : String) (code : Option String)
    (position : Option Int) (char : Option String) : ErrorReport :=
  ⟨kind, message, (code.filter (· ≠ "")).getD kind.defaultCode, position, char⟩

inductive Cause where
  | wrongKind (kindName : String)
  | tooLong (limit : Int)
  | unexpected (found : Option Char)
  | unclosed (argumentOf : Option String)
  | malformedNumber (token : String)
  | tooDeep (limit : Int)
  /-- The expression is too deep for a limit that cannot be written. -/
  | unwritableLimit
  | stackExhausted
  deriving DecidableEq, Repr

namespace Cause

def kind : Cause → ErrorKind
  | wrongKind _ | tooLong _ => .validation
  | unexpected _ | unclosed _ => .grammar
  | malformedNumber _ => .numberFormat
  | tooDeep _ | stackExhausted => .nesting
  | unwritableLimit => .foreign

def code : Cause → String
  | wrongKind _ => "INVALID_TYPE"
  | tooLong _ => "TOO_LONG"
  | cause => cause.kind.defaultCode

def message : Cause → String
  | wrongKind kindName => "Expression must be a string, got " ++ kindName
  | tooLong limit => "Input too long (max " ++ toString limit ++ " characters)"
  | unexpected none => "Unexpected: end of input"
  | unexpected (some found) => "Unexpected: " ++ String.singleton found
  | unclosed none => "Missing ')'"
  | unclosed (some name) => "Missing ')' after argument to " ++ name
  | malformedNumber token => "Malformed number: " ++ Text.quoted token
  | tooDeep limit => "Expression too deeply nested (maximum depth is " ++ toString limit ++ ")"
  | unwritableLimit => Numeral.unwritableMessage
  | stackExhausted => "Expression too deeply nested for the interpreter stack"

end Cause

structure Fault where
  cause : Cause
  position : Option Nat
  char : Option Char
  deriving DecidableEq, Repr

namespace Fault

def ofInput (cause : Cause) : Fault := ⟨cause, none, none⟩

def atCursor (cause : Cause) (cursor : Cursor) : Fault :=
  ⟨cause, some cursor.position, cursor.unread.head?⟩

def message (fault : Fault) : String := fault.cause.message

def code (fault : Fault) : String := fault.cause.code

def report (fault : Fault) : ErrorReport :=
  ⟨fault.cause.kind, fault.message, fault.code, fault.position.map Int.ofNat,
    fault.char.map String.singleton⟩

end Fault

end Reckoner
