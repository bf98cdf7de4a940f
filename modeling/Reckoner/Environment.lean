import Reckoner.Numeral
import Reckoner.Settings

/-! Settings taken from environment variables; each one is a whole number in decimal. -/
namespace Reckoner.Environment

structure Fault where
  text : String
  cause : Numeral.WholeFault
  deriving DecidableEq, Repr

def Fault.message (fault : Fault) : String := fault.cause.message fault.text

def names : List String :=
  ["HITUNG_MAX_INPUT_LENGTH", "HITUNG_MAX_NESTING_DEPTH", "HITUNG_OUTPUT_PRECISION",
    "HITUNG_POOL_SIZE"]

def read (lookup : String → Option String) (name : String) : Except Fault (Option Int) :=
  match lookup name with
  | none => .ok none
  | some text => (Numeral.whole text.toList).map some |>.mapError (⟨text, ·⟩)

/-- The settings under an environment, with defaults for variables that are not set; the first bad
variable is reported. -/
def settings (lookup : String → Option String) : Except Fault Settings := do
  let defaults : Settings := {}
  let maxInputLength ← read lookup "HITUNG_MAX_INPUT_LENGTH"
  let maxNestingDepth ← read lookup "HITUNG_MAX_NESTING_DEPTH"
  let outputPrecision ← read lookup "HITUNG_OUTPUT_PRECISION"
  let poolSize ← read lookup "HITUNG_POOL_SIZE"
  return { maxInputLength := maxInputLength.getD defaults.maxInputLength
           maxNestingDepth := maxNestingDepth.or defaults.maxNestingDepth
           outputPrecision := outputPrecision.or defaults.outputPrecision
           poolSize := poolSize.getD defaults.poolSize }

end Reckoner.Environment
