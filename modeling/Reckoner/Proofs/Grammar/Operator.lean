import Reckoner.Proofs.Grammar.Phrase
import Reckoner.Proofs.Reading.Loop

/-!
The operators that the loops of the evaluator look for are the signs and the scalings of the
grammar, and each of them is found where its symbol comes next.
-/
namespace Reckoner.Grammar

open Evaluator

def Sign.operator (sign : Sign) : Operator := ⟨sign.symbol.char, sign.combine⟩

def Scaling.operator (scaling : Scaling) : Operator := ⟨scaling.symbol.char, scaling.combine⟩

variable {start : Cursor} {operator : Operator}

theorem exists_sign_of_operatorAhead (ahead : operatorAhead additive start = some operator) :
    ∃ sign : Sign, operator = sign.operator ∧ start.upcoming = some sign.symbol.char := by
  have found := upcoming_of_operatorAhead ahead
  have member : operator ∈ [Sign.plus.operator, Sign.minus.operator] :=
    List.mem_of_find?_eq_some ahead
  simp only [List.mem_cons, List.not_mem_nil, or_false] at member
  rcases member with rfl | rfl
  · exact ⟨.plus, rfl, found⟩
  · exact ⟨.minus, rfl, found⟩

theorem operatorAhead_of_sign {sign : Sign} (found : start.upcoming = some sign.symbol.char) :
    operatorAhead additive start = some sign.operator := by
  have table : additive = [Sign.plus.operator, Sign.minus.operator] := rfl
  cases sign <;> simp [operatorAhead, table, found, Sign.operator, Sign.symbol, Symbol.char]

theorem exists_scaling_of_operatorAhead
    (ahead : operatorAhead multiplicative start = some operator) :
    ∃ scaling : Scaling, operator = scaling.operator ∧
      start.upcoming = some scaling.symbol.char := by
  have found := upcoming_of_operatorAhead ahead
  have member : operator ∈ [Scaling.times.operator, Scaling.divide.operator] :=
    List.mem_of_find?_eq_some ahead
  simp only [List.mem_cons, List.not_mem_nil, or_false] at member
  rcases member with rfl | rfl
  · exact ⟨.times, rfl, found⟩
  · exact ⟨.divide, rfl, found⟩

theorem operatorAhead_of_scaling {scaling : Scaling}
    (found : start.upcoming = some scaling.symbol.char) :
    operatorAhead multiplicative start = some scaling.operator := by
  have table : multiplicative = [Scaling.times.operator, Scaling.divide.operator] := rfl
  cases scaling <;>
    simp [operatorAhead, table, found, Scaling.operator, Scaling.symbol, Symbol.char]

end Reckoner.Grammar
