import Reckoner.Answer

/-! Expressions kept for later, each with a limit of its own if it is given one. -/
namespace Reckoner

structure DoubleEvaluator where
  expression : Value
  /-- Takes the place of the limit on open factors in the settings. -/
  limit : Option Int := none

namespace DoubleEvaluator

def zero : DoubleEvaluator := { expression := .text "0" }

def evaluate (evaluator : DoubleEvaluator) (bounds : Bounds) : Evaluator.Evaluation :=
  Evaluator.evaluate bounds evaluator.expression none

def settings (evaluator : DoubleEvaluator) (settings : Settings) : Settings :=
  { settings with maxNestingDepth := evaluator.limit.or settings.maxNestingDepth }

def debugText? (evaluator : DoubleEvaluator) : Option String :=
  if evaluator.expression.isWritable then
    some ("DoubleEvaluator(" ++ evaluator.expression.quoted ++ ")")
  else none

end DoubleEvaluator

end Reckoner
