import Reckoner.Binary64.Basic

/-! Values of any kind, as a caller may hand them in where an expression or a number is expected. -/
namespace Reckoner

inductive Value where
  | text (content : String)
  | nothing
  | bool (flag : Bool)
  | int (number : Int)
  | float (number : Float)
  | bytes (content : List UInt8)
  | list (items : List Value)
  | dict (entries : List (Value × Value))

namespace Value

def kindName : Value → String
  | .text _ => "str"
  | .nothing => "NoneType"
  | .bool _ => "bool"
  | .int _ => "int"
  | .float _ => "float"
  | .bytes _ => "bytes"
  | .list _ => "list"
  | .dict _ => "dict"

/-- The value of a setting: its number, or the empty list once it has been emptied. -/
def ofSetting : Option Int → Value
  | some number => .int number
  | none => .list []

end Value

end Reckoner
