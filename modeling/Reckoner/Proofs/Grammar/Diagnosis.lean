import Reckoner.Proofs.Grammar.Parenthesis
import Reckoner.Proofs.Grammar.Soundness

/-!
What a fault says about its place. A factor begins where no number and no name goes on, and this is
kept from each factor to those inside it; so a malformed number and a name are read from their first
character on, and the parenthesis that is reported as unclosed is the innermost one that is open.
-/
namespace Reckoner.Grammar

open Scan Evaluator
open Cursor (Passes)

def callee (before : List Char) : Option String :=
  if calledName before = [] then none else some (String.ofList (calledName before))

/-- What a fault says about its place and about the text that was read in front of it. -/
inductive Diagnosis (tooDeep : Cursor → Fault) (read : List Char) (place : Cursor) : Fault → Prop
    where
  | unexpected (visible : place.unread.head? ≠ some ' ') :
      Diagnosis tooDeep read place (Fault.atCursor (.unexpected place.unread.head?) place)
  | unclosed {before : List Char} {others : List (List Char)}
      (innermost : openings read = before :: others)
      (other : ∀ c ∈ [' ', ')', '+', '-', '*', '/', '^'], place.unread.head? ≠ some c) :
      Diagnosis tooDeep read place (Fault.atCursor (.unclosed (callee before)) place)
  | malformed {token : List Char} {behind : Cursor}
      (taken : place.takeWhile Cursor.isNumberChar = (token, behind)) (present : token ≠ [])
      (apart : ∀ c, read.getLast? = some c → Cursor.isNumberChar c = false)
      (unreadable : Numeral.decimal? token = none) :
      Diagnosis tooDeep read place (Fault.atCursor (.malformedNumber (String.ofList token)) place)
  | nested : Diagnosis tooDeep read place (tooDeep place)

def Diagnosed (tooDeep : Cursor → Fault) (read : List Char) (start : Cursor) (fault : Fault) :
    Prop :=
  ∃ text place, start.Passes text place ∧ Diagnosis tooDeep (read ++ text) place fault

variable {tooDeep : Cursor → Fault} {inner : Scan Float} {room : Nat} {read text : List Char}
  {start middle last : Cursor} {value : Float} {fault : Fault}

theorem Diagnosis.here (diagnosis : Diagnosis tooDeep read start fault) :
    Diagnosed tooDeep read start fault := by
  refine ⟨[], start, Passes.nil start, ?_⟩
  rw [List.append_nil]
  exact diagnosis

theorem Diagnosed.after (diagnosed : Diagnosed tooDeep (read ++ text) middle fault)
    (passed : start.Passes text middle) : Diagnosed tooDeep read start fault := by
  obtain ⟨more, place, further, diagnosis⟩ := diagnosed
  rw [List.append_assoc] at diagnosis
  exact ⟨_, place, passed.append further, diagnosis⟩

/-! Where factors begin. -/

/-- What is read next at a cursor goes on with no number and no name, and is no call. -/
structure Fresh (read : List Char) (start : Cursor) : Prop where
  number : ∀ c, read.getLast? = some c → Cursor.isNumberChar c = false
  name : ∀ c d, start.unread.head? = some d → Cursor.isLetter d = true →
    read.getLast? = some c → Cursor.isLetter c = false
  call : start.upcoming = some '(' → calledName read = []

theorem fresh_nil (start : Cursor) : Fresh [] start :=
  ⟨by simp, by simp, fun _ => by simp [calledName]⟩

def leaders : List Char := ['+', '-', '*', '/', '^', '(']

theorem fresh_leader {c : Char} (leads : c ∈ leaders) (read : List Char) (start : Cursor) :
    Fresh (read ++ [c]) start := by
  have plain : Cursor.isNumberChar c = false ∧ Cursor.isLetter c = false ∧ c ≠ ' ' := by
    simp only [leaders, List.mem_cons, List.not_mem_nil, or_false] at leads
    rcases leads with rfl | rfl | rfl | rfl | rfl | rfl <;> decide
  refine ⟨?_, ?_, fun _ => calledName_other read plain.2.2 plain.2.1⟩
  · intro c' ends
    rw [List.getLast?_concat] at ends
    exact Option.some.inj ends ▸ plain.1
  · intro c' d _ _ ends
    rw [List.getLast?_concat] at ends
    exact Option.some.inj ends ▸ plain.2.1

theorem Fresh.spaces {count : Nat} (fresh : Fresh read start)
    (passed : start.Passes (spaces count) middle) :
    Fresh (read ++ Reckoner.spaces count) middle := by
  cases count with
  | zero =>
    rw [(Passes.nil start).last_eq passed] at fresh
    rw [spaces_zero, List.append_nil]
    exact fresh
  | succ count =>
    have blank : ∀ c, (read ++ Reckoner.spaces (count + 1)).getLast? = some c → c = ' ' := by
      intro c ends
      rw [← spaces_append count 1, ← List.append_assoc] at ends
      exact (Option.some.inj ((List.getLast?_concat ..).symm.trans ends)).symm
    refine ⟨fun c ends => ?_, fun c d _ _ ends => ?_, fun opening => ?_⟩
    · rw [blank c ends]
      decide
    · rw [blank c ends]
      decide
    · rw [calledName_spaces]
      apply fresh.call
      rw [Cursor.upcoming_congr (Cursor.skipSpaces_of_passes passed), opening]

theorem not_isNumberChar_of_isLetter {c : Char} (letter : Cursor.isLetter c = true) :
    Cursor.isNumberChar c = false := by
  apply Bool.eq_false_iff.mpr
  intro digit
  rw [Cursor.not_isLetter_of_isNumberChar digit] at letter
  cases letter

theorem fresh_name {letters : List Char} (read : List Char)
    (taken : start.takeWhile Cursor.isLetter = (letters, middle)) (present : letters ≠ [])
    (other : middle.upcoming ≠ some '(') : Fresh (read ++ letters) middle := by
  have stops := @Cursor.takeWhile_stops start Cursor.isLetter
  have letter := @Cursor.holds_of_mem_takeWhile start Cursor.isLetter
  rw [taken] at stops letter
  refine ⟨fun c ends => ?_, fun c d head letter' _ => ?_, fun opening => absurd opening other⟩
  · rw [List.getLast?_append_of_ne_nil _ present] at ends
    exact not_isNumberChar_of_isLetter (letter (List.mem_of_getLast? ends))
  · rw [stops head] at letter'
    cases letter'

/-! What an expression leaves unread. -/

section

variable {first : Operator} {others : List Operator} {operand : Scan Float}

theorem upcoming_ne_of_yields_chain {c : Char} (forward : Advances operand)
    (ends : ∀ {start last : Cursor} {value : Float}, Yields operand start value last →
      last.upcoming ≠ some c)
    (run : Yields (chain (first :: others) operand) start value last) :
    last.upcoming ≠ some c := by
  obtain ⟨place, reached, _, rfl⟩ := (yields_chain forward).mp run
  rw [Cursor.upcoming_skipSpaces]
  cases reached with
  | operand run => exact ends run
  | operator _ _ run => exact ends run

theorem upcoming_ne_symbol_of_yields_chain {operator : Operator} (forward : Advances operand)
    (member : operator ∈ first :: others)
    (run : Yields (chain (first :: others) operand) start value last) :
    last.upcoming ≠ some operator.symbol := by
  obtain ⟨place, _, ahead, rfl⟩ := (yields_chain forward).mp run
  rw [Cursor.upcoming_skipSpaces]
  simpa using List.find?_eq_none.mp ahead operator member

end

theorem upcoming_ne_of_yields_term (reads : ReadsFactors inner room)
    (run : Yields (term inner) start value last) :
    ∀ c ∈ ['*', '/', '^'], last.upcoming ≠ some c := by
  have times := upcoming_ne_symbol_of_yields_chain reads.advances (List.mem_cons_self ..) run
  have divide := upcoming_ne_symbol_of_yields_chain reads.advances
    (List.mem_cons_of_mem _ (List.mem_cons_self ..)) run
  have caret := upcoming_ne_of_yields_chain reads.advances (fun run => (reads.parsed run).2) run
  simpa using ⟨times, divide, caret⟩

theorem upcoming_ne_of_yields_expression (reads : ReadsFactors inner room)
    (run : Yields (expression inner) start value last) :
    ∀ c ∈ ['+', '-', '*', '/', '^'], last.upcoming ≠ some c := by
  have forward := advances_term reads.advances
  have plus := upcoming_ne_symbol_of_yields_chain forward (List.mem_cons_self ..) run
  have minus := upcoming_ne_symbol_of_yields_chain forward
    (List.mem_cons_of_mem _ (List.mem_cons_self ..)) run
  have inside : ∀ c ∈ ['*', '/', '^'], last.upcoming ≠ some c := fun c member =>
    upcoming_ne_of_yields_chain forward
      (fun run => upcoming_ne_of_yields_term reads run c member) run
  simpa using ⟨plus, minus, by simpa using inside⟩

/-! Productions. -/

structure DiagnosesFactors (tooDeep : Cursor → Fault) (inner : Scan Float) (room : Nat) : Prop where
  reads : ReadsFactors inner room
  diagnosed : ∀ {read : List Char} {start : Cursor} {fault : Fault}, Fresh read start →
    Fails inner start fault → Diagnosed tooDeep read start fault

theorem diagnosed_chain {first : Operator} {others : List Operator} {operand : Scan Float}
    (leads : ∀ operator ∈ first :: others, operator.symbol ∈ leaders) (forward : Advances operand)
    (operands : ∀ {read : List Char} {start : Cursor} {fault : Fault}, Fresh read start →
      Fails operand start fault → Diagnosed tooDeep read start fault)
    (fresh : Fresh read start) (failed : Fails (chain (first :: others) operand) start fault) :
    Diagnosed tooDeep read start fault := by
  rcases (fails_chain forward).mp failed with
    failed | ⟨x, place, operator, reached, ahead, failed⟩
  · exact operands fresh failed
  · obtain ⟨text, passed⟩ := reached.passes forward
    obtain ⟨count, sign⟩ := Cursor.passes_advance_of_upcoming (upcoming_of_operatorAhead ahead)
    have leader := leads operator (List.mem_of_find?_eq_some ahead)
    refine Diagnosed.after (operands ?_ failed) (passed.append sign)
    rw [← List.append_assoc, ← List.append_assoc]
    exact fresh_leader leader _ _

theorem diagnosed_expression (diagnoses : DiagnosesFactors tooDeep inner room)
    (fresh : Fresh read start) (failed : Fails (expression inner) start fault) :
    Diagnosed tooDeep read start fault := by
  have forward := diagnoses.reads.advances
  refine diagnosed_chain ?_ (advances_term forward) (fun fresh failed => ?_) fresh failed
  · simp [leaders]
  · refine diagnosed_chain ?_ forward diagnoses.diagnosed fresh failed
    simp [leaders]

theorem diagnosed_enclosed {argumentOf : Option String}
    (diagnoses : DiagnosesFactors tooDeep inner room) (opening : start.upcoming = some '(')
    (called : callee read = argumentOf)
    (failed : Fails (enclosed inner argumentOf) start.skipSpaces.advance fault) :
    Diagnosed tooDeep read start fault := by
  obtain ⟨count, passed⟩ := Cursor.passes_advance_of_upcoming opening
  apply Diagnosed.after ?_ passed
  rw [← List.append_assoc]
  rcases fails_enclosed.mp failed with failed | ⟨x, place, run, missing, rfl⟩
  · exact diagnosed_expression diagnoses (fresh_leader (by decide) _ _) failed
  · obtain ⟨phrase, ⟨text, inside, spelled⟩, _⟩ := parsed_expression diagnoses.reads run
    obtain ⟨more, blank⟩ := Cursor.passes_skipSpaces place
    have closed := (phrase.closed spelled).append (Closed.spaces more)
    have innermost := (closed _).trans (openings_opening (read ++ spaces count))
    have same : callee (read ++ spaces count) = argumentOf := by
      rw [callee, calledName_spaces, ← callee, called]
    rw [← same]
    refine ⟨_, _, inside.append blank, .unclosed innermost ?_⟩
    intro c member
    rcases List.mem_cons.mp member with rfl | member
    · exact place.upcoming_ne_space
    · rcases List.mem_cons.mp member with rfl | member
      · exact missing
      · exact upcoming_ne_of_yields_expression diagnoses.reads run c member

theorem diagnosed_number {c : Char} (fresh : Fresh read start)
    (found : start.unread.head? = some c) (digit : Cursor.isNumberChar c = true)
    (failed : Fails number start fault) : Diagnosed tooDeep read start fault := by
  obtain ⟨unreadable, rfl⟩ := fails_number.mp failed
  obtain ⟨rest, text⟩ := List.head?_eq_some_iff.mp found
  have present : (start.takeWhile Cursor.isNumberChar).1 ≠ [] := by
    simp [Cursor.takeWhile, text, digit]
  exact Diagnosis.here (.malformed rfl present fresh.number unreadable)

theorem diagnosed_application {c : Char} (diagnoses : DiagnosesFactors tooDeep inner room)
    (fresh : Fresh read start) (found : start.unread.head? = some c)
    (letter : Cursor.isLetter c = true) (failed : Fails (application inner) start fault) :
    Diagnosed tooDeep read start fault := by
  obtain ⟨name, middle, taken⟩ := exists_name found letter
  have passed := Cursor.passes_takeWhile start Cursor.isLetter
  rw [taken] at passed
  apply Diagnosed.after ?_ passed
  rcases (fails_application taken).mp failed with ⟨opening, failed⟩ | ⟨other, failed⟩
  · have called : calledName (read ++ name.letters) = name.letters :=
      calledName_letters name.someLetter name.letter fun d ends => fresh.name d c found letter ends
    refine diagnosed_enclosed diagnoses opening ?_ failed
    rw [callee, called, if_neg name.someLetter]
  · obtain ⟨count, blank⟩ := Cursor.passes_skipSpaces middle
    have begins := (fresh_name read taken name.someLetter other).spaces blank
    exact (diagnoses.diagnosed begins failed).after blank

theorem diagnosed_primary (diagnoses : DiagnosesFactors tooDeep inner room)
    (fresh : Fresh read start) (failed : Fails (primary inner) start fault) :
    Diagnosed tooDeep read start fault := by
  obtain ⟨count, blank⟩ := Cursor.passes_skipSpaces start
  rcases primary_cases inner start with opening | ⟨c, found, digit⟩ | ⟨c, found, letter⟩ | refused
  · rw [Fails, primary_apply_of_parenthesis opening] at failed
    exact diagnosed_enclosed diagnoses opening (if_pos (fresh.call opening)) failed
  · rw [Fails, primary_apply_of_number found digit] at failed
    exact (diagnosed_number (fresh.spaces blank) found digit failed).after blank
  · rw [Fails, primary_apply_of_letter found letter] at failed
    exact (diagnosed_application diagnoses (fresh.spaces blank) found letter failed).after blank
  · rw [Fails, refused] at failed
    rw [← fails_refuse.mp failed]
    exact (Diagnosis.here (.unexpected start.skipSpaces_stops)).after blank

theorem diagnosed_powered (diagnoses : DiagnosesFactors tooDeep inner room)
    (fresh : Fresh read start) (failed : Fails (powered inner) start fault) :
    Diagnosed tooDeep read start fault := by
  rcases fails_powered.mp failed with failed | ⟨base, place, run, caret, failed⟩
  · exact diagnosed_primary diagnoses fresh failed
  · obtain ⟨text, passed⟩ := advances_primary diagnoses.reads.advances _ _ _ run
    obtain ⟨count, sign⟩ := Cursor.passes_advance_of_upcoming caret
    refine (diagnoses.diagnosed ?_ failed).after (passed.append sign)
    rw [← List.append_assoc, ← List.append_assoc]
    exact fresh_leader (by decide) _ _

theorem diagnosed_factor_succ (diagnoses : DiagnosesFactors tooDeep (factor tooDeep room) room)
    (fresh : Fresh read start) (failed : Fails (factor tooDeep (room + 1)) start fault) :
    Diagnosed tooDeep read start fault := by
  have behind : ∀ {c : Char}, c ∈ leaders → start.upcoming = some c →
      Fails (factor tooDeep room) start.skipSpaces.advance fault →
        Diagnosed tooDeep read start fault := by
    intro c leads found failed
    obtain ⟨count, sign⟩ := Cursor.passes_advance_of_upcoming found
    refine (diagnoses.diagnosed ?_ failed).after sign
    rw [← List.append_assoc]
    exact fresh_leader leads _ _
  by_cases plus : start.upcoming = some '+'
  · rw [Fails, factor_apply_of_plus plus] at failed
    exact behind (by decide) plus failed
  · by_cases minus : start.upcoming = some '-'
    · rw [Fails, factor_apply_of_minus minus] at failed
      exact behind (by decide) minus (fails_map.mp failed)
    · rw [Fails, factor_apply_of_unsigned plus minus] at failed
      obtain ⟨count, blank⟩ := Cursor.passes_skipSpaces start
      exact (diagnosed_powered diagnoses (fresh.spaces blank) failed).after blank

theorem diagnosesFactors (tooDeep : Cursor → Fault) (room : Nat) :
    DiagnosesFactors tooDeep (factor tooDeep room) room := by
  induction room with
  | zero =>
    refine ⟨readsFactors tooDeep 0, fun _ failed => ?_⟩
    rw [← fails_refuse.mp failed]
    exact Diagnosis.here .nested
  | succ room ih => exact ⟨readsFactors tooDeep (room + 1), diagnosed_factor_succ ih⟩

theorem diagnosed_whole (failed : Fails (whole tooDeep room) start fault) :
    Diagnosed tooDeep [] start fault := by
  have diagnoses := diagnosesFactors tooDeep room
  rcases fails_whole.mp failed with failed | ⟨x, place, run, _, rfl⟩
  · exact diagnosed_expression diagnoses (fresh_nil start) failed
  · have forward := advances_term diagnoses.reads.advances
    obtain ⟨text, passed⟩ := advances_expression diagnoses.reads.advances _ _ _ run
    have visible := place.skipSpaces_stops
    rw [skipSpaces_of_yields_chain forward run] at visible
    exact ⟨text, place, passed, .unexpected visible⟩

end Reckoner.Grammar
