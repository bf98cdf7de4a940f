import Reckoner.CommandLine.Usage
import Reckoner.Proofs.Grammar.Wording
import Reckoner.Proofs.Json.Report

/-!
What is printed for the outcome of an evaluation. Below the message of a fault stand the expression
and a caret, and the caret points at the character that the fault reports.
-/
namespace Reckoner.CommandLine

open Evaluator Grammar
open Text (newline_not_mem_append newline_not_mem_toString)

theorem newline_not_mem_message {limit : Int} {text read : List Char} {place : Cursor}
    {fault : Fault} (passed : (Cursor.ofText text).Passes read place)
    (diagnosis : Diagnosis (Fault.atCursor (.tooDeep limit)) read place fault)
    (plain : '\n' ∉ text) : '\n' ∉ fault.message.toList := by
  obtain ⟨whole, _⟩ := Cursor.split_of_passes passed
  apply diagnosis.newline_not_mem_message
  cases diagnosis with
  | unexpected visible =>
    intro named
    have found : place.unread.head? = some '\n' := Cause.unexpected.inj named
    exact plain (whole ▸ List.mem_append_right _ (List.mem_of_head? found))
  | unclosed _ _ => exact nofun
  | malformed _ _ _ _ => exact nofun
  | nested => exact nofun

/-! Lines. -/

/-- The lines about a fault: its message and, if something of an expression can be shown, the
expression, and below it a caret at the character that the fault reports. -/
structure Explains (expression : String) (fault : Fault) (output : String) : Prop where
  message : '\n' ∉ expression.toList → '\n' ∉ fault.message.toList
  alone : expression = "" ∨ fault.code = "TOO_LONG" → output = lines ["Error: " ++ fault.message]
  pointed : expression ≠ "" → fault.code ≠ "TOO_LONG" → ∃ position,
    fault.position = some position ∧
    output = lines ["Error: " ++ fault.message, "  " ++ expression,
      String.ofList (List.replicate (2 + position) ' ' ++ ['^'])] ∧
    position ≤ expression.length ∧ (fault.char = none ↔ position = expression.length) ∧
    ("  " ++ expression).toList[2 + position]? = fault.char

/-- How the outcome of evaluating an expression is displayed: as one JSON line, or for humans as
the number or with an explanation of the fault. -/
def Displays (precision : Option Int) (format : OutputFormat) (expression : String)
    (outcome : Except Fault Float) (output : String) : Prop :=
  match format, outcome with
  | .json, outcome =>
    output = lines [(Result.ofEvaluation outcome).json] ∧
      '\n' ∉ (Result.ofEvaluation outcome).json.toList
  | .human, .ok value => output = lines [NumberText.format (.ofSetting precision) (.float value)]
  | .human, .error fault => Explains expression fault output

theorem lines_cons (text : String) (texts : List String) :
    lines (text :: texts) = text ++ "\n" ++ lines texts := by
  simp [lines]

theorem lines_nil : lines [] = "" := rfl

theorem printed_error (precision : Option Int) (expression : String) (fault : Fault) :
    (Result.ofEvaluation (.error fault)).printed precision .human expression =
      "Error: " ++ fault.message ++ "\n" ++
        Result.pointer expression (fault.position.map Int.ofNat) := rfl

theorem pointer_eq_lines {expression : String} (present : expression ≠ "") (position : Nat) :
    Result.pointer expression (some (position : Int)) =
      lines ["  " ++ expression, String.ofList (List.replicate (2 + position) ' ' ++ ['^'])] := by
  have spaces : List.replicate (2 + position) ' ' = ' ' :: ' ' :: List.replicate position ' ' := by
    rw [Nat.add_comm]
    rfl
  rw [Result.pointer, if_neg present, spaces]
  apply String.ext
  simp [lines, Result.caretLine]

theorem explains_ofInput {expression : String} {cause : Cause}
    (hidden : expression = "" ∨ cause.code = "TOO_LONG") (plain : '\n' ∉ cause.message.toList)
    (precision : Option Int) :
    Explains expression (Fault.ofInput cause)
      ((Result.ofEvaluation (.error (Fault.ofInput cause))).printed precision .human
        expression) where
  message := fun _ => plain
  alone := fun _ => by
    rw [printed_error, lines_cons, lines_nil]
    rfl
  pointed := fun present short => (hidden.elim present short).elim

theorem code_ne_of_kind {fault : Fault}
    (kind : fault.cause.kind ∈ [ErrorKind.grammar, .numberFormat, .nesting]) :
    fault.code ≠ "TOO_LONG" := by
  rw [Fault.code]
  cases cause : fault.cause <;> rw [cause] at kind <;>
    simp [Cause.kind, Cause.code, ErrorKind.defaultCode] at kind ⊢

theorem explains_diagnosis {limit : Int} {expression : String} {read : List Char} {place : Cursor}
    {fault : Fault} (passed : (Cursor.ofText expression.toList).Passes read place)
    (diagnosis : Diagnosis (Fault.atCursor (.tooDeep limit)) read place fault)
    (precision : Option Int) :
    Explains expression fault
      ((Result.ofEvaluation (.error fault)).printed precision .human expression) := by
  obtain ⟨named, char, kind, _⟩ := pinpoints_of_diagnosis passed diagnosis
  obtain ⟨whole, position⟩ := Cursor.split_of_passes passed
  have inside : place.position ≤ expression.length := by
    rw [← String.length_toList, whole, position, List.length_append]
    exact Nat.le_add_right _ _
  refine ⟨newline_not_mem_message passed diagnosis, ?_, ?_⟩
  · rintro (rfl | long)
    · rw [printed_error, named, lines_cons, lines_nil]
      rfl
    · exact absurd long (code_ne_of_kind kind)
  · intro present _
    refine ⟨place.position, named, ?_, inside, ?_, ?_⟩
    · rw [printed_error, named, lines_cons]
      exact congrArg _ (pointer_eq_lines present place.position)
    · rw [char, List.getElem?_eq_none_iff, String.length_toList]
      exact ⟨fun beyond => Nat.le_antisymm inside beyond, fun ends => Nat.le_of_eq ends.symm⟩
    · rw [char, String.toList_append, List.getElem?_append_right (Nat.le_add_right 2 _)]
      exact congrArg _ (Nat.add_sub_cancel_left 2 _)

theorem displays_json (precision : Option Int) (expression : String)
    (outcome : Except Fault Float) : Displays precision .json expression outcome
      ((Result.ofEvaluation outcome).printed precision .json expression) := by
  have line : (Result.ofEvaluation outcome).printed precision .json expression =
      lines [(Result.ofEvaluation outcome).json] := by
    rw [lines_cons, lines_nil, String.append_empty]
    rfl
  have single : '\n' ∉ (Result.ofEvaluation outcome).json.toList := by
    intro member
    have least := Json.le_of_mem_object (Result.isPlain_members outcome) member
    revert least
    decide
  cases outcome <;> exact ⟨line, single⟩

theorem displays_value (precision : Option Int) (expression : String) (value : Float) :
    Displays precision .human expression (.ok value)
      ((Result.ofEvaluation (.ok value)).printed precision .human expression) := by
  rw [Displays, lines_cons, lines_nil, String.append_empty]
  rfl

theorem displays_printed (bounds : Bounds) (precision : Option Int) (format : OutputFormat)
    (expression : String)
    (sufficient : ∀ fault, (evaluate bounds (.text expression) none).result = .error fault →
      fault.cause ≠ .stackExhausted) :
    Displays precision format expression (evaluate bounds (.text expression) none).result
      ((Result.ofEvaluation (evaluate bounds (.text expression) none).result).printed precision
        format expression) := by
  cases outcome : (evaluate bounds (.text expression) none).result with
  | ok value =>
    cases format with
    | json => exact displays_json precision expression (.ok value)
    | human => exact displays_value precision expression value
  | error fault =>
    cases format with
    | json => exact displays_json precision expression (.error fault)
    | human =>
      have cause := sufficient fault outcome
      rw [evaluate] at outcome
      rcases accept_text bounds.maxLength expression with accepted | refused
      · rw [accepted] at outcome
        obtain ⟨read, place, passed, diagnosis⟩ := 
          diagnosis_of_run bounds.nameable outcome cause
        exact explains_diagnosis passed diagnosis precision
      · rw [refused] at outcome
        obtain rfl := Except.error.inj outcome
        have plain : '\n' ∉ (Cause.tooLong bounds.maxLength).message.toList :=
          newline_not_mem_append (newline_not_mem_append (by decide)
            (newline_not_mem_toString bounds.maxLength)) (by decide)
        exact explains_ofInput (Or.inr rfl) plain precision

end Reckoner.CommandLine
