import Reckoner.Proofs.Reading.Lookahead

/-!
A factor without room bars the way. Whatever is written behind the text that was read until it was
refused, even where it goes on with a name or makes a call of it, no value comes out.
-/
namespace Reckoner.Evaluator

open Scan

def Hopeless (step : Scan Float) : Prop := ∀ start value last, ¬Yields step start value last

/-- Something was read before a fault, and no text that begins with it has a value. -/
def Barred (step : Scan Float) (start : Cursor) (fault : Fault) : Prop :=
  ∃ text stop, text ≠ [] ∧ start.Passes text stop ∧ StopsAt fault stop ∧
    ∀ other last, other.position = start.position → other.Passes text last →
      ∀ value goal, ¬Yields step other value goal

/-- A step that has failed at its start is hopeless, else its way is barred. -/
inductive Blocked (step : Scan Float) (start : Cursor) (fault : Fault) : Prop where
  | here (stops : StopsAt fault start) (hopeless : Hopeless step)
  | behind (barred : Barred step start fault)

variable {step step' : Scan Float} {start next : Cursor} {text : List Char} {fault : Fault}

theorem position_eq_of_passes {other next' : Cursor} (same : other.position = start.position)
    (passed : start.Passes text next) (passed' : other.Passes text next') :
    next'.position = next.position := by
  rw [passed'.position_eq, same, passed.position_eq]

theorem Barred.after (barred : Barred step next fault) (passed : start.Passes text next)
    (needs : ∀ other next', other.Passes text next' → other.position = start.position →
      Alike next' next → ∀ value goal, Yields step' other value goal →
        ∃ value' goal', Yields step next' value' goal') : Barred step' start fault := by
  obtain ⟨more, stop, present, further, stops, never⟩ := barred
  refine ⟨text ++ more, stop, List.append_ne_nil_of_right_ne_nil text present,
    passed.append further, stops, ?_⟩
  intro other last same whole value goal run
  obtain ⟨next', before, behind⟩ := whole.split
  have position := position_eq_of_passes same passed before
  have alike := Alike.of_passes_ne_nil present position behind further
  obtain ⟨value', goal', run'⟩ := needs other next' before same alike value goal run
  exact never next' last position behind value' goal' run'

theorem Blocked.after (blocked : Blocked step next fault) (present : text ≠ [])
    (passed : start.Passes text next)
    (needs : ∀ other next', other.Passes text next' → other.position = start.position →
      ∀ value goal, Yields step' other value goal →
        ∃ value' goal', Yields step next' value' goal') : Barred step' start fault := by
  cases blocked with
  | here stops hopeless =>
    refine ⟨text, next, present, passed, stops, fun other last same whole value goal run => ?_⟩
    obtain ⟨value', goal', run'⟩ := needs other last whole same value goal run
    exact hopeless last value' goal' run'
  | behind barred =>
    exact barred.after passed fun other next' whole same _ => needs other next' whole same

theorem Blocked.after_symbol {place : Cursor} {c : Char}
    (blocked : Blocked step place.skipSpaces.advance fault) (passed : start.Passes text place)
    (ahead : place.upcoming = some c)
    (needs : ∀ other middle, other.Passes text middle → Alike middle place →
      middle.upcoming = some c → ∀ value goal, Yields step' other value goal →
        ∃ value' goal', Yields step middle.skipSpaces.advance value' goal') :
    Barred step' start fault := by
  obtain ⟨mark, present, passed', eaten⟩ := Cursor.exists_text_of_upcoming ahead
  have present' := List.append_ne_nil_of_right_ne_nil text present
  refine blocked.after present' (passed.append passed') ?_
  intro other next' whole same
  obtain ⟨middle, before, behind⟩ := whole.split
  have position := position_eq_of_passes same passed before
  have alike := Alike.of_passes_ne_nil present position behind passed'
  obtain ⟨found, rfl⟩ := eaten middle next' behind
  exact needs other middle before alike found

theorem Blocked.after_first {c : Char} (blocked : Blocked step start.skipSpaces.advance fault)
    (ahead : start.upcoming = some c)
    (needs : ∀ other, other.upcoming = some c → ∀ value goal, Yields step' other value goal →
      ∃ value' goal', Yields step other.skipSpaces.advance value' goal') :
    Barred step' start fault := by
  refine blocked.after_symbol (.nil start) ahead ?_
  intro other middle nothing _ found
  obtain rfl := (Cursor.Passes.nil other).last_eq nothing
  exact needs other found

theorem Blocked.mono (blocked : Blocked step start fault)
    (needs : ∀ other value goal, Yields step' other value goal →
      ∃ value' goal', Yields step other value' goal') : Blocked step' start fault := by
  cases blocked with
  | here stops hopeless =>
    refine .here stops fun other value goal run => ?_
    obtain ⟨value', goal', run'⟩ := needs other value goal run
    exact hopeless other value' goal' run'
  | behind barred =>
    refine .behind (barred.after (.nil start) fun other next' passed _ _ value goal run => ?_)
    rw [← (Cursor.Passes.nil other).last_eq passed]
    exact needs other value goal run

structure Blocks (step : Scan Float) : Prop where
  forward : Advances step
  settled : ∀ start, Settled step start
  blocked : ∀ {start : Cursor} {fault : Fault}, Fails step start fault →
    fault.cause.kind = .nesting → Blocked step start fault

/-! Loops. -/

section

variable {first : Operator} {others : List Operator} {operand : Scan Float} {place : Cursor}
  {value : Float}

theorem Reached.settled {operators : List Operator} (settled : ∀ start, Settled operand start)
    (reached : Reached operators operand start value place) :
    ∃ text, start.Passes text place ∧ ∀ other last, other.Passes text last → Alike last place →
      Reached operators operand other value last := by
  induction reached with
  | operand run =>
    obtain ⟨text, passed, again⟩ := (settled _).yields run
    exact ⟨text, passed, fun other last passed' alike => .operand (again other last passed' alike)⟩
  | @operator value right middle last operator _ ahead run ih =>
    obtain ⟨text, passed, again⟩ := ih
    obtain ⟨mark, _, passed', eaten⟩ :=
      Cursor.exists_text_of_upcoming (upcoming_of_operatorAhead ahead)
    obtain ⟨rest, further, again'⟩ := (settled _).yields run
    refine ⟨_, passed.append (passed'.append further), fun other goal whole alike => ?_⟩
    obtain ⟨middle', before, behind⟩ := whole.split
    obtain ⟨next', marked, behind⟩ := behind.split
    have alike' := alike.of_passes behind further
    obtain ⟨found, rfl⟩ := eaten middle' next' marked
    have ahead' : operatorAhead operators middle' = some operator := by
      rw [operatorAhead_congr (found.trans (upcoming_of_operatorAhead ahead).symm), ahead]
    exact (again other middle' before (alike'.of_passes marked passed')).operator ahead'
      (again' _ goal behind alike)

theorem blocked_chain (blocks : Blocks operand)
    (failed : Fails (chain (first :: others) operand) start fault)
    (nested : fault.cause.kind = .nesting) :
    Blocked (chain (first :: others) operand) start fault := by
  rcases (fails_chain blocks.forward).mp failed with
    failed | ⟨x, place, operator, reached, ahead, failed⟩
  · refine (blocks.blocked failed nested).mono fun other value goal run => ?_
    obtain ⟨y, middle, run', _⟩ := yields_bind.mp run
    exact ⟨y, middle, run'⟩
  · obtain ⟨text, passed, again⟩ := reached.settled blocks.settled
    have found := upcoming_of_operatorAhead ahead
    refine .behind ((blocks.blocked failed nested).after_symbol passed found ?_)
    intro other middle before alike found' value goal run
    have ahead' : operatorAhead (first :: others) middle = some operator := by
      rw [operatorAhead_congr (found'.trans found.symm), ahead]
    rw [Yields, (again other middle before alike).result_eq blocks.forward,
      further_apply blocks.forward, ahead'] at run
    obtain ⟨y, last, run', _⟩ := yields_bind.mp run
    exact ⟨y, last, run'⟩

theorem Blocks.chain (blocks : Blocks operand) :
    Blocks (Evaluator.chain (first :: others) operand) where
  forward := advances_chain blocks.forward
  settled := settled_chain blocks.forward blocks.settled
  blocked := blocked_chain blocks

end

/-! Productions. -/

section

variable {inner : Scan Float} {argumentOf : Option String}

theorem blocked_enclosed (blocks : Blocks inner)
    (failed : Fails (enclosed inner argumentOf) start fault)
    (nested : fault.cause.kind = .nesting) : Blocked (enclosed inner argumentOf) start fault := by
  rcases fails_enclosed.mp failed with failed | ⟨x, place, _, _, rfl⟩
  · have blocked : Blocked (expression inner) start fault :=
      blocks.chain.chain.blocked failed nested
    refine blocked.mono fun other value goal run => ?_
    obtain ⟨place, run', _⟩ := yields_enclosed.mp run
    exact ⟨value, place, run'⟩
  · cases nested

theorem Hopeless.enclosed (hopeless : Hopeless inner) :
    Hopeless (Evaluator.enclosed inner argumentOf) := by
  intro start value last run
  obtain ⟨_, run, _⟩ := yields_enclosed.mp run
  obtain ⟨_, _, run, _⟩ := yields_bind.mp run
  obtain ⟨_, _, run, _⟩ := yields_bind.mp run
  exact hopeless _ _ _ run

theorem Hopeless.application (hopeless : Hopeless inner) :
    Hopeless (Evaluator.application inner) := by
  intro start value last run
  obtain ⟨_, _, ⟨_, run⟩ | ⟨_, run⟩⟩ := (yields_application rfl).mp run
  · exact hopeless.enclosed _ _ _ run
  · exact hopeless _ _ _ run

theorem barred_application {c : Char} (blocks : Blocks inner)
    (found : start.unread.head? = some c) (letter : Cursor.isLetter c = true)
    (failed : Fails (application inner) start fault) (nested : fault.cause.kind = .nesting) :
    Barred (application inner) start fault := by
  rcases taken : start.takeWhile Cursor.isLetter with ⟨letters, middle⟩
  have passed := Cursor.passes_takeWhile start Cursor.isLetter
  rw [taken] at passed
  have present : letters ≠ [] := by
    intro empty
    obtain ⟨rest, text⟩ := List.head?_eq_some_iff.mp found
    simp [Cursor.takeWhile, text, letter, empty] at taken
  rcases (fails_application taken).mp failed with ⟨ahead, failed⟩ | ⟨other, failed⟩
  · refine (blocked_enclosed blocks failed nested).after_symbol passed ahead ?_
    intro other middle' before alike found' value goal run
    have taken' := takeWhile_of_alike taken before alike
    obtain ⟨x, _, ⟨_, run⟩ | ⟨shut, _⟩⟩ := (yields_application taken').mp run
    · exact ⟨x, goal, run⟩
    · exact absurd found' shut
  · obtain ⟨count, blank⟩ := Cursor.passes_skipSpaces middle
    have present' := List.append_ne_nil_of_left_ne_nil present (spaces count)
    cases blocks.blocked failed nested with
    | here stops hopeless =>
      -- There is no room for any argument, so that the name may go on as it likes.
      refine (Blocked.here stops hopeless).after present' (passed.append blank) ?_
      exact fun other next' _ _ value goal run => absurd run (hopeless.application _ _ _)
    | behind barred =>
      -- Something of the argument was read, which keeps the name and what it applies to.
      refine barred.after (passed.append blank) ?_
      intro other' next' whole same alike value goal run
      obtain ⟨middle', before, behind⟩ := whole.split
      have taken' := takeWhile_of_alike taken before (alike.of_passes behind blank)
      obtain ⟨rfl, shown⟩ := skipSpaces_of_alike behind alike
      obtain ⟨x, _, ⟨opening, _⟩ | ⟨_, run⟩⟩ := (yields_application taken').mp run
      · exact absurd (shown.symm.trans opening) other
      · exact ⟨x, goal, run⟩

theorem barred_primary (blocks : Blocks inner) (failed : Fails (primary inner) start fault)
    (nested : fault.cause.kind = .nesting) : Barred (primary inner) start fault := by
  rcases primary_cases inner start with opening | ⟨c, found, digit⟩ | ⟨c, found, letter⟩ | refused
  · rw [Fails, primary_apply_of_parenthesis opening] at failed
    refine (blocked_enclosed blocks failed nested).after_first opening ?_
    intro other found value goal run
    rw [Yields, primary_apply_of_parenthesis found] at run
    exact ⟨value, goal, run⟩
  · rw [Fails, primary_apply_of_number found digit] at failed
    obtain ⟨_, rfl⟩ := fails_number.mp failed
    cases nested
  · rw [Fails, primary_apply_of_letter found letter] at failed
    obtain ⟨count, blank⟩ := Cursor.passes_skipSpaces start
    refine (barred_application blocks found letter failed nested).after blank ?_
    intro other next' whole _ alike value goal run
    obtain ⟨rfl, shown⟩ := skipSpaces_of_alike whole alike
    rw [Yields, primary_apply_of_letter (shown.trans found) letter] at run
    exact ⟨value, goal, run⟩
  · rw [Fails, refused] at failed
    rw [← fails_refuse.mp failed] at nested
    cases nested

theorem barred_powered (blocks : Blocks inner) (failed : Fails (powered inner) start fault)
    (nested : fault.cause.kind = .nesting) : Barred (powered inner) start fault := by
  rcases fails_powered.mp failed with failed | ⟨base, place, run, caret, failed⟩
  · refine (barred_primary blocks failed nested).after (.nil start) ?_
    intro other next' nothing _ _ value goal run
    obtain ⟨base, place, run', _⟩ := yields_powered.mp run
    rw [← (Cursor.Passes.nil other).last_eq nothing]
    exact ⟨base, place, run'⟩
  · obtain ⟨text, passed, again⟩ := (settled_primary blocks.forward blocks.settled start).yields run
    refine (blocks.blocked failed nested).after_symbol passed caret ?_
    intro other middle before alike found value goal run
    obtain ⟨base', place', run', ends⟩ := yields_powered.mp run
    obtain ⟨_, rfl⟩ := run'.unique (again other middle before alike)
    rcases ends with ⟨_, x, run, _⟩ | ⟨missing, _⟩
    · exact ⟨x, goal, run⟩
    · exact absurd found missing

theorem barred_factor_succ {tooDeep : Cursor → Fault} {room : Nat}
    (blocks : Blocks (factor tooDeep room)) (failed : Fails (factor tooDeep (room + 1)) start fault)
    (nested : fault.cause.kind = .nesting) : Barred (factor tooDeep (room + 1)) start fault := by
  by_cases plus : start.upcoming = some '+'
  · rw [Fails, factor_apply_of_plus plus] at failed
    refine (blocks.blocked failed nested).after_first plus ?_
    intro other found value goal run
    rw [Yields, factor_apply_of_plus found] at run
    exact ⟨value, goal, run⟩
  · by_cases minus : start.upcoming = some '-'
    · rw [Fails, factor_apply_of_minus minus] at failed
      refine (blocks.blocked (fails_map.mp failed) nested).after_first minus ?_
      intro other found value goal run
      rw [Yields, factor_apply_of_minus found] at run
      obtain ⟨x, run', _⟩ := yields_map.mp run
      exact ⟨x, goal, run'⟩
    · rw [Fails, factor_apply_of_unsigned plus minus] at failed
      obtain ⟨count, blank⟩ := Cursor.passes_skipSpaces start
      refine (barred_powered blocks failed nested).after blank ?_
      intro other next' whole _ alike value goal run
      obtain ⟨rfl, shown⟩ := skipSpaces_of_alike whole alike
      rw [Yields, factor_apply_of_unsigned (shown ▸ plus) (shown ▸ minus)] at run
      exact ⟨value, goal, run⟩

theorem blocks_factor (limit : Int) (stack room : Nat) :
    Blocks (factor (nestingFault limit stack) room) := by
  induction room with
  | zero =>
    refine ⟨advances_factor _ 0, settled_factor limit stack 0, fun failed _ => .here ?_ ?_⟩
    · rw [← fails_refuse.mp failed]
      exact stopsAt_nestingFault limit stack _
    · exact fun _ _ _ run => not_yields_refuse run
  | succ room ih =>
    exact ⟨advances_factor _ (room + 1), settled_factor limit stack (room + 1),
      fun failed nested => .behind (barred_factor_succ ih failed nested)⟩

theorem blocked_whole {limit : Int} {stack room : Nat}
    (failed : Fails (whole (nestingFault limit stack) room) start fault)
    (nested : fault.cause.kind = .nesting) :
    Blocked (whole (nestingFault limit stack) room) start fault := by
  rcases fails_whole.mp failed with failed | ⟨x, place, _, _, rfl⟩
  · have blocked : Blocked (expression (factor (nestingFault limit stack) room)) start fault :=
      (blocks_factor limit stack room).chain.chain.blocked failed nested
    refine blocked.mono fun other value goal run => ?_
    exact ⟨value, goal, (yields_whole.mp run).1⟩
  · cases nested

end

end Reckoner.Evaluator
