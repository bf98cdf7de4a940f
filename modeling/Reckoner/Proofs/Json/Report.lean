import Reckoner.Answer
import Reckoner.Proofs.Json.RoundTrip

/-!
The JSON line of a result of an evaluation. A strict reader gets every part of the result back from
it, and the members that do not apply are missing, so no two results have the same line.
-/
namespace Reckoner.Json

def Document.integer? : Document → Option Int
  | .number literal => literal.toInt?
  | _ => none

end Reckoner.Json

namespace Reckoner.Result

open Decimal (Writing)

def numberDocument (x : Float) : Json.Document :=
  if Binary64.isFinite x then .number (NumberText.shortest x)
  else .string (if Binary64.isNaN x then "nan" else if Binary64.isNegative x then "-inf" else "inf")

def memberNames (result : Result) : List String :=
  if result.ok then ["ok", "value"]
  else ["ok", "error", "error_code"] ++ if result.position.isSome then ["position"] else []

/-- Members tell everything about a result, and nothing else: a number, or a message, a code and, if
it is known, a place. -/
structure Reported (result : Result) (members : List (String × Json.Document)) : Prop where
  names : members.map (·.1) = result.memberNames
  ok : members.lookup "ok" = some (.bool result.ok)
  number : result.ok = true → ∃ x, result = ⟨true, some (.double x), none, none, none⟩ ∧
    members.lookup "value" = some (numberDocument x) ∧
    (Binary64.isFinite x = true → Numeral.real? (NumberText.shortest x).toList = some x)
  fault : result.ok = false → ∃ message code,
    result = ⟨false, none, some message, some code, result.position⟩ ∧
    members.lookup "error" = some (.string message) ∧
    members.lookup "error_code" = some (.string code)
  position : (members.lookup "position").bind Json.Document.integer? = result.position

def documents (result : Result) : List (String × Json.Document) :=
  result.members.map fun (name, value) => (name, value.document)

theorem document_toJson (x : Float) : (Number.double x).toJson.document = numberDocument x := by
  rw [Number.toJson, numberDocument]
  split
  next => rfl
  next infinite =>
    rw [NumberText.shortest, NumberText.orSpecial, if_neg infinite]
    rfl

theorem reported_documents (outcome : Except Fault Float) :
    (ofEvaluation outcome).Reported (ofEvaluation outcome).documents := by
  cases outcome with
  | ok x =>
    exact {
      names := rfl
      ok := rfl
      number := fun _ => ⟨x, rfl, congrArg some (document_toJson x), NumberText.real?_shortest⟩
      fault := fun failed => by cases failed
      position := rfl }
  | error fault =>
    obtain ⟨cause, position, char⟩ := fault
    cases position with
    | none => exact {
        names := rfl
        ok := rfl
        number := fun succeeded => by cases succeeded
        fault := fun _ => ⟨cause.message, cause.code, rfl, rfl, rfl⟩
        position := rfl }
    | some position => exact {
        names := rfl
        ok := rfl
        number := fun succeeded => by cases succeeded
        fault := fun _ => ⟨cause.message, cause.code, rfl, rfl, rfl⟩
        position := Int.toInt?_repr position }

/-! Numbers that are reported alike. -/

theorem eq_of_shortest_eq {x y : Float} (finite : Binary64.isFinite x = true)
    (finite' : Binary64.isFinite y = true)
    (same : NumberText.shortest x = NumberText.shortest y) : x = y := by
  have read := NumberText.real?_shortest finite
  rw [same, NumberText.real?_shortest finite'] at read
  exact (Option.some.inj read).symm

theorem eq_of_word_eq {x y : Float} (infinite : Binary64.isFinite x = false)
    (infinite' : Binary64.isFinite y = false)
    (same : (if Binary64.isNaN x then "nan" else if Binary64.isNegative x then "-inf" else "inf") =
      if Binary64.isNaN y then "nan" else if Binary64.isNegative y then "-inf" else "inf") :
    x = y := by
  cases nan : Binary64.isNaN x <;> cases nan' : Binary64.isNaN y
  · rw [nan, nan'] at same
    have sign : Binary64.isNegative x = Binary64.isNegative y := by
      cases sign : Binary64.isNegative x <;> cases sign' : Binary64.isNegative y <;>
        simp [sign, sign'] at same ⊢
    rw [Binary64.eq_infinity infinite nan, Binary64.eq_infinity infinite' nan', sign]
  · rw [nan, nan'] at same
    cases sign : Binary64.isNegative x <;> simp [sign] at same
  · rw [nan, nan'] at same
    cases sign : Binary64.isNegative y <;> simp [sign] at same
  · rw [Binary64.eq_notANumber nan, Binary64.eq_notANumber nan']

theorem numberDocument_injective {x y : Float} (same : numberDocument x = numberDocument y) :
    x = y := by
  cases finite : Binary64.isFinite x <;> cases finite' : Binary64.isFinite y <;>
    simp only [numberDocument, finite, finite', Bool.false_eq_true, ↓reduceIte,
      Json.Document.string.injEq, Json.Document.number.injEq, reduceCtorEq] at same
  · exact eq_of_word_eq finite finite' same
  · exact eq_of_shortest_eq finite finite' same

namespace Reported

variable {result result' : Result} {members : List (String × Json.Document)}

theorem ok_eq (reported : result.Reported members) (reported' : result'.Reported members) :
    result.ok = result'.ok := by
  have same := reported.ok.symm.trans reported'.ok
  exact Json.Document.bool.inj (Option.some.inj same)

theorem unique (reported : result.Reported members) (reported' : result'.Reported members) :
    result = result' := by
  have same := reported.ok_eq reported'
  cases outcome : result.ok with
  | true =>
    obtain ⟨x, fields, found, _⟩ := reported.number outcome
    obtain ⟨y, fields', found', _⟩ := reported'.number (same.symm.trans outcome)
    have number := numberDocument_injective (Option.some.inj (found.symm.trans found'))
    rw [fields, fields', number]
  | false =>
    obtain ⟨message, code, fields, found, coded⟩ := reported.fault outcome
    obtain ⟨message', code', fields', found', coded'⟩ := reported'.fault (same.symm.trans outcome)
    have text := Json.Document.string.inj (Option.some.inj (found.symm.trans found'))
    have coding := Json.Document.string.inj (Option.some.inj (coded.symm.trans coded'))
    have place := reported.position.symm.trans reported'.position
    rw [fields, fields', text, coding, place]

end Reported

/-! Members that are written as they are read. -/

theorem isPlain_shortest {x : Float} (finite : Binary64.isFinite x = true) :
    (Json.Scalar.number (NumberText.shortest x)).IsPlain := by
  obtain ⟨_, _, ⟨writing, _, rfl, _⟩, text⟩ := NumberText.exists_shortest finite
  exact ⟨Binary64.isNegative x, writing, text⟩

theorem isPlain_toString (place : Nat) : (Json.Scalar.number (toString (place : Int))).IsPlain := by
  have digits : ∀ c ∈ Nat.toDigits 10 place ++ [], c.isDigit = true := by
    intro c member
    rw [List.append_nil] at member
    exact Nat.isDigit_of_mem_toDigits (by decide) (by decide) member
  have leading : (Nat.toDigits 10 place).head? = some '0' → Nat.toDigits 10 place = ['0'] := by
    intro zero
    rcases Nat.eq_zero_or_pos place with rfl | positive
    · rfl
    · exact absurd zero (Numeral.head?_toDigits positive)
  refine ⟨false, ⟨Nat.toDigits 10 place, [], none, digits, Nat.toDigits_ne_nil, leading⟩, ?_⟩
  change (Nat.repr place).toList = _
  simp [Nat.repr, Numeral.signed, Writing.text, Writing.exponentPart, Decimal.fraction]

theorem isPlain_members (outcome : Except Fault Float) :
    ∀ entry ∈ (ofEvaluation outcome).members, entry.2.IsPlain := by
  intro entry member
  cases outcome with
  | ok x =>
    have cases : entry = ("ok", .bool true) ∨ entry = ("value", (Number.double x).toJson) := by
      simpa [members, optional, ofEvaluation] using member
    rcases cases with rfl | rfl
    · trivial
    · rw [Number.toJson]
      split
      next finite => exact isPlain_shortest finite
      next => trivial
  | error fault =>
    have cases : entry = ("ok", .bool false) ∨ entry = ("error", .string fault.message) ∨
        entry = ("error_code", .string fault.code) ∨
        ∃ place : Nat, entry = ("position", .number (toString (place : Int))) := by
      cases known : fault.position with
      | none =>
        have inside : entry = ("ok", .bool false) ∨ entry = ("error", .string fault.message) ∨
            entry = ("error_code", .string fault.code) := by
          simpa [members, optional, ofEvaluation, known, or_assoc] using member
        exact inside.imp_right (Or.imp_right Or.inl)
      | some place =>
        have inside : entry = ("ok", .bool false) ∨ entry = ("error", .string fault.message) ∨
            entry = ("error_code", .string fault.code) ∨
            entry = ("position", .number (toString (place : Int))) := by
          simpa [members, optional, ofEvaluation, known, or_assoc] using member
        exact inside.imp_right (Or.imp_right (Or.imp_right fun same => ⟨place, same⟩))
    rcases cases with rfl | rfl | rfl | ⟨place, rfl⟩
    · trivial
    · trivial
    · trivial
    · exact isPlain_toString place

theorem read_json (outcome : Except Fault Float) :
    Json.read (ofEvaluation outcome).json = some (.object (ofEvaluation outcome).documents) :=
  Json.read_object (isPlain_members outcome)

end Reckoner.Result

namespace Reckoner.Answer

/-- The JSON line of an answer is one line that a strict reader accepts and that tells everything
about the answer, so that answers with the same line are the same. -/
theorem json_evaluate (bounds : Bounds) (value : Value) :
    let result := (evaluate bounds value).value
    (∀ c ∈ result.json.toList, 0x20 ≤ c.toNat) ∧
    (∃ members, Json.read result.json = some (.object members) ∧ result.Reported members) ∧
    ∀ bounds' value', (evaluate bounds' value').value.json = result.json →
      (evaluate bounds' value').value = result := by
  intro result
  have read := Result.read_json (Evaluator.evaluate bounds value none).result
  have reported := Result.reported_documents (Evaluator.evaluate bounds value none).result
  refine ⟨fun c => Json.le_of_mem_object (Result.isPlain_members _), ⟨_, read, reported⟩, ?_⟩
  intro bounds' value' same
  have read' := Result.read_json (Evaluator.evaluate bounds' value' none).result
  have reported' := Result.reported_documents (Evaluator.evaluate bounds' value' none).result
  have documents := read'.symm.trans ((congrArg Json.read same).trans read)
  rw [Json.Document.object.inj (Option.some.inj documents)] at reported'
  exact reported'.unique reported

end Reckoner.Answer
