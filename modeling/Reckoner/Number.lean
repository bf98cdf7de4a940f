import Reckoner.Json
import Reckoner.Value.Number

/-! Real numbers among the values. -/
namespace Reckoner

inductive Number where
  | flag (value : Bool)
  | whole (value : Int)
  | double (value : Float)

namespace Number

def toValue : Number → Value
  | flag value => .bool value
  | whole value => .int value
  | double value => .float value

/-- Infinities and non-numbers are no JSON numbers and are written as strings. -/
def toJson : Number → Json.Scalar
  | flag value => .bool value
  | whole value => .number (toString value)
  | double value =>
    if Binary64.isFinite value then .number (NumberText.shortest value)
    else .string (NumberText.shortest value)

inductive Fault where
  | notReal (kindName : String)
  | tooLarge
  deriving DecidableEq, Repr

def Fault.message : Fault → String
  | notReal kindName => "must be real number, not " ++ kindName
  | tooLarge => "int too large to convert to float"

def ofValue : Value → Except Fault Number
  | .bool value => .ok (flag value)
  | .int value => if (Value.floatOfInt? value).isSome then .ok (whole value) else .error .tooLarge
  | .float value => .ok (double value)
  | other => .error (.notReal other.kindName)

def nearestDouble (value : Value) : Except Fault Float :=
  match ofValue value, value.toFloat? with
  | .ok _, some x => .ok x
  | .ok _, none => .error .tooLarge
  | .error fault, _ => .error fault

end Number

end Reckoner
