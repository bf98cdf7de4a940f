import Reckoner.Binary64.Integral

/-! The closed table of named functions of one argument. -/
namespace Reckoner

/-- A named function; every name outside the table is `unknown` and stands for the identity. -/
inductive Function where
  | sqrt | sin | cos | tan | abs | ceil | floor | atan | round | exp
  | unknown
  deriving DecidableEq, Repr

namespace Function

def known : List Function := [sqrt, sin, cos, tan, abs, ceil, floor, atan, round, exp]

def name : Function → String
  | sqrt => "sqrt"
  | sin => "sin"
  | cos => "cos"
  | tan => "tan"
  | abs => "abs"
  | ceil => "ceil"
  | floor => "floor"
  | atan => "atan"
  | round => "round"
  | exp => "exp"
  | unknown => "unknown"

def knownNames : List String := known.map name

def ofName (wanted : String) : Function :=
  (known.find? fun function => function.name = wanted).getD unknown

def apply : Function → Float → Float
  | sqrt, x => x.sqrt
  | sin, x => x.sin
  | cos, x => x.cos
  | tan, x => x.tan
  | abs, x => Binary64.ofRank false (Binary64.rank x)
  | ceil, x => Binary64.ceil x
  | floor, x => Binary64.floor x
  | atan, x => x.atan
  | round, x => Binary64.roundHalfUp x
  | exp, x => x.exp
  | unknown, x => x

end Function

end Reckoner
