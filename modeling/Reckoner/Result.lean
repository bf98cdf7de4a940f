import Reckoner.Evaluator
import Reckoner.Number

/-! Results of evaluations as data: a number, or the message, code and place of a fault. -/
namespace Reckoner

structure Result where
  ok : Bool
  value : Option Number := none
  error : Option String := none
  errorCode : Option String := none
  position : Option Int := none

namespace Result

/-- A value that succeeded has no error; a fault has no value. -/
def ofEvaluation : Except Fault Float → Result
  | .ok value => { ok := true, value := some (.double value) }
  | .error fault =>
    { ok := false, error := some fault.message, errorCode := some fault.code,
      position := fault.position.map Int.ofNat }

def optional (name : String) (value : Option Json.Scalar) : List (String × Json.Scalar) :=
  match value with
  | some scalar => [(name, scalar)]
  | none => []

/-- The members of the JSON object; absent parts are left out. -/
def members (result : Result) : List (String × Json.Scalar) :=
  ("ok", .bool result.ok) :: optional "value" (result.value.map Number.toJson) ++
    optional "error" (result.error.map .string) ++
    optional "error_code" (result.errorCode.map .string) ++
    optional "position" (result.position.map fun place => .number (toString place))

def json (result : Result) : String := Json.object result.members

def quotedOption (text : Option String) : String := (text.map Text.quoted).getD Value.nothing.quoted

def anyValue (result : Result) : Value := (result.value.map Number.toValue).getD .nothing

def debugText (result : Result) : String :=
  if result.ok then "EvalResult(ok=True, value=" ++ result.anyValue.quoted ++ ")"
  else "EvalResult(ok=False, error=" ++ quotedOption result.error ++ ", error_code=" ++
    quotedOption result.errorCode ++ ")"

end Result

inductive OutputFormat where
  | json | human
  deriving DecidableEq, Repr

namespace OutputFormat

def name : OutputFormat → String
  | json => "json"
  | human => "human"

def all : List OutputFormat := [json, human]

def ofName? (wanted : String) : Option OutputFormat := all.find? (·.name = wanted)

end OutputFormat

namespace Result

def caretLine (position : Int) : String :=
  String.ofList (List.replicate position.toNat ' ' ++ ['^'])

inductive CaretFault where
  | beyondIndex
  | tooFar
  deriving DecidableEq, Repr

def CaretFault.message : CaretFault → String
  | beyondIndex => "cannot fit 'int' into an index-sized integer"
  | tooFar => ""

/-- No caret is placed further to the right. -/
def maxCaret : Int := Int.pow 2 27

/-- Places are counted in a word of 64 bits, and lines only reach so far. -/
def caretFault? (position : Int) : Option CaretFault :=
  if position < -Int.pow 2 63 ∨ Int.pow 2 63 ≤ position then some .beyondIndex
  else if maxCaret < position then some .tooFar
  else none

def pointer (expression : String) (position : Option Int) : String :=
  match position with
  | some place =>
    if expression = "" then "" else "  " ++ expression ++ "\n  " ++ caretLine place ++ "\n"
  | none => ""

def printed (precision : Option Int) (format : OutputFormat) (expression : String)
    (result : Result) : String :=
  match format with
  | .json => result.json ++ "\n"
  | .human =>
    if result.ok then NumberText.format (.ofSetting precision) result.anyValue ++ "\n"
    else "Error: " ++ result.error.getD Value.nothing.quoted ++ "\n" ++
      pointer expression result.position

def printFault? (format : OutputFormat) (expression : String) (result : Result) :
    Option CaretFault :=
  if format = .json || result.ok || expression = "" then none
  else result.position.bind caretFault?

end Result

end Reckoner
