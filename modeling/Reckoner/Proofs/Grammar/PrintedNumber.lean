import Reckoner.Proofs.Grammar.DecimalValue
import Reckoner.Proofs.Number.Formatting

/-!
Printed numbers as expressions. With seventeen or more digits a finite double is printed as a
decimal that it is the nearest double to, so a text without an exponent is evaluated to that very
double: the text is a number, behind a minus for a negative double.
-/
namespace Reckoner.NumberText

open Decimal (Writing)

variable {x : Float}

/-- With seventeen or more digits, and with more than there can be, a finite double is printed as a
number that reads back. -/
theorem exists_format (finite : Binary64.isFinite x = true) {precision : Int}
    (enough : 17 ≤ precision) : ∃ writing : Writing,
      (format (.int precision) (.float x)).toList =
          Numeral.signed (Binary64.isNegative x) writing.text ∧
        writing.decimal.nearestRank = Binary64.rank x := by
  by_cases met : precision ≤ maxPrecision
  · obtain ⟨writing, text, value, _⟩ := exists_significant finite precision.toNat
    refine ⟨writing, ?_, ?_⟩
    · rw [format_of_met (by omega) met, text]
    · rw [Decimal.nearestRank_eq_of_value_eq value]
      exact nearestRank_roundedDecimal (by omega) finite
  · obtain ⟨_, _, ⟨writing, _, rfl, value⟩, text⟩ := exists_shortest finite
    refine ⟨writing, ?_, ?_⟩
    · rw [format_of_unmet (by omega), text]
    · rw [Decimal.nearestRank_eq_of_value_eq value]
      exact Decimal.nearestRank_shortest (of_decide_eq_true finite)

theorem exponent_eq_none {negative : Bool} {writing : Writing}
    (plain : 'e' ∉ Numeral.signed negative writing.text) : writing.exponent = none := by
  cases part : writing.exponent with
  | none => rfl
  | some exponent =>
    have inside : 'e' ∈ writing.text := by
      rw [Writing.text, Writing.exponentPart, part]
      exact List.mem_append_right _ List.mem_cons_self
    refine absurd ?_ plain
    rw [Numeral.signed]
    split
    · exact List.mem_cons_of_mem _ inside
    · exact inside

end Reckoner.NumberText

namespace Reckoner.Grammar

open Scan Evaluator
open Decimal (Writing)

theorem exists_literal_of_writing {writing : Writing} (plain : writing.exponent = none) :
    ∃ literal : Literal, literal.text = writing.text ∧ literal.decimal = writing.decimal := by
  obtain ⟨whole, places, exponent, digits, present, leading⟩ := writing
  subst plain
  cases places with
  | nil =>
    refine ⟨⟨whole, none, digits, by simpa using present⟩, ?_, ?_⟩
    · simp [Literal.text, Writing.text, Writing.exponentPart, Decimal.fraction]
    · simp [Literal.decimal, Writing.decimal]
  | cons place places =>
    refine ⟨⟨whole, some (place :: places), digits, by simp⟩, ?_, ?_⟩
    · simp [Literal.text, Writing.text, Writing.exponentPart, Decimal.fraction]
    · simp [Literal.decimal, Writing.decimal]

def Literal.signed (negative : Bool) (literal : Literal) : Phrase .expression :=
  if negative then .term (.factor (.signed .minus (.primary (.number literal)))) else literal.phrase

namespace Literal

variable (negative : Bool) (literal : Literal)

theorem spells_signed :
    Spells (literal.signed negative).tokens (Numeral.signed negative literal.text) := by
  have number := literal.spells 0 0
  rw [spaces_zero, List.nil_append, List.append_nil] at number
  cases negative with
  | false => exact number
  | true => exact number.cons (not_isName_symbol .minus)

theorem nesting_signed : (literal.signed negative).nesting ≤ 2 := by
  cases negative with
  | false => exact one_le_two
  | true => exact le_refl 2

theorem value_signed :
    (literal.signed negative).value = Binary64.ofRank negative literal.decimal.nearestRank := by
  cases negative with
  | false => exact Decimal.toFloat_eq false literal.decimal
  | true =>
    have number : literal.decimal.nearestRank ≤ Binary64.infinityRank := Nat.min_le_left _ _
    change Binary64.negate (literal.decimal.toFloat false) = _
    rw [Decimal.toFloat_eq, Binary64.negate, Binary64.isNegative_ofRank false number,
      Binary64.rank_ofRank false number]
    rfl

end Literal

/-- A finite double that is printed with seventeen or more digits and without an exponent is read
back, whatever its sign. -/
theorem evaluate_format {bounds : Bounds} {limit : Option Int} (uncapped : bounds.maxLength ≤ 0)
    (room : 2 ≤ limit.getD bounds.maxDepth) (stacked : 2 ≤ bounds.stack) {x : Float}
    (finite : Binary64.isFinite x = true) {precision : Int} (enough : 17 ≤ precision)
    (plain : 'e' ∉ (NumberText.format (.int precision) (.float x)).toList) :
    (evaluate bounds (.text (NumberText.format (.int precision) (.float x))) limit).result =
      .ok x := by
  obtain ⟨writing, printed, nearest⟩ := NumberText.exists_format finite enough
  rw [printed] at plain
  obtain ⟨literal, text, decimal⟩ := exists_literal_of_writing (NumberText.exponent_eq_none plain)
  have spelled := literal.spells_signed (Binary64.isNegative x)
  rw [text, ← printed] at spelled
  have nesting := literal.nesting_signed (Binary64.isNegative x)
  rw [evaluate_of_uncapped uncapped, run_of_spells _ spelled (by omega), literal.value_signed,
    decimal, nearest, Binary64.ofRank_rank]

theorem evaluate_format_negative :
    NumberText.format (.int 17) (.float (.ofBits 0x8000000000000000)) = "-0" ∧
      (evaluate .standard (.text "-0") (some 2)).result = .ok (.ofBits 0x8000000000000000) ∧
      NumberText.format (.int 20) (.float (.ofBits 0xBFB999999999999A)) =
        "-0.10000000000000000555" ∧
      (evaluate .standard (.text "-0.10000000000000000555") none).result =
        .ok (.ofBits 0xBFB999999999999A) := by
  have zero : NumberText.format (.int 17) (.float (.ofBits 0x8000000000000000)) = "-0" := by
    decide +kernel
  have tenth : NumberText.format (.int 20) (.float (.ofBits 0xBFB999999999999A)) =
      "-0.10000000000000000555" := by
    decide +kernel
  have zeroRead := @evaluate_format .standard (some 2) (by decide) (by decide) (by decide)
    (.ofBits 0x8000000000000000) (by decide +kernel) 17 (by decide) (by rw [zero]; decide)
  have tenthRead := @evaluate_format .standard none (by decide) (by decide) (by decide)
    (.ofBits 0xBFB999999999999A) (by decide +kernel) 20 (by decide) (by rw [tenth]; decide)
  rw [zero] at zeroRead
  rw [tenth] at tenthRead
  exact ⟨zero, zeroRead, tenth, tenthRead⟩

end Reckoner.Grammar
