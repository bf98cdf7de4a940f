import Reckoner.Answer
import Reckoner.CommandLine.Usage

/-!
The health check: sample expressions have to give their known values, and the two kinds of malformed
input have to be told apart.
-/
namespace Reckoner.CommandLine.HealthCheck

structure Check where
  passed : Bool
  text : String
  events : List Log.Event := []

/-- The first check, that the arithmetic is there; it names its version. -/
def arithmetic (numericsVersion : String) : Check where
  passed := true
  text := "NumPy " ++ numericsVersion ++ " imported successfully"

def samples : List (String × Float) :=
  [("2+3*4", 14), ("(2+3)*4", 20), ("2^3^2", 512), ("sqrt(16)", 4)]

def hasValue (result : Result) (expected : Float) : Bool :=
  match result.value with
  | some (.double value) => result.ok && value == expected
  | _ => false

def sample (bounds : Bounds) (precision : Option Int) (expression : String) (expected : Float) :
    Check :=
  let answer := Answer.evaluate bounds (.text expression)
  let passed := hasValue answer.value expected
  { passed
    text :=
      if passed then
        expression ++ " = " ++ NumberText.format (.ofSetting precision) answer.value.anyValue
      else expression ++ ": expected " ++ NumberText.shortest expected ++ ", got " ++
        answer.value.debugText
    events := answer.events }

def malformedStructure : String := "(2+3"

def malformedNumber : String := "1.2.3"

def expressions : List String := samples.map (·.1) ++ [malformedStructure, malformedNumber]

def distinction (bounds : Bounds) : Check :=
  let structural := Answer.evaluate bounds (.text malformedStructure)
  let numeric := Answer.evaluate bounds (.text malformedNumber)
  let passed := structural.value.errorCode = some "SYNTAX_ERROR" &&
    numeric.value.errorCode = some "NUMBER_FORMAT"
  { passed
    text :=
      if passed then "Syntax and number format errors are distinguished"
      else "Error kinds: " ++ structural.value.debugText ++ ", " ++ numeric.value.debugText
    events := structural.events ++ numeric.events }

def checks (bounds : Bounds) (precision : Option Int) (numericsVersion : String) : List Check :=
  arithmetic numericsVersion ::
    samples.map (fun (expression, expected) => sample bounds precision expression expected) ++
    [distinction bounds]

def rule : String := String.ofList (List.replicate 50 '-')

def Check.line (check : Check) : String :=
  (if check.passed then "[OK] " else "[FAIL] ") ++ check.text

def report (made : List Check) : String :=
  let failures := made.countP (!·.passed)
  lines (["Running Hitung health check...", rule] ++ made.map Check.line ++ [rule,
    "Results: " ++ toString (made.countP (·.passed)) ++ " passed, " ++ toString failures ++
      " failed",
    "",
    if failures = 0 then "[OK] All health checks passed!"
    else "[WARN] Some health checks failed. Core functionality may be impaired."])

end Reckoner.CommandLine.HealthCheck
