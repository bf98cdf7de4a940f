import Reckoner.Proofs.Grammar.Soundness

/-!
What has been read when the evaluator stops could still have become a phrase. The open productions
are completed from the inside out: a missing operand by a zero, an open parenthesis by a closing
one. A factor refused for want of room is completed in the same way and needs one more room.
-/
namespace Reckoner.Grammar

open Scan Evaluator
open Cursor (Passes)

def Started (tokens : List Token) (start stop : Cursor) : Prop :=
  ∃ read later, start.Passes read stop ∧ Spells tokens (read ++ later)

def Begun (kind : Kind) (room : Nat) (start stop : Cursor) : Prop :=
  ∃ phrase : Phrase kind, Started phrase.tokens start stop ∧ phrase.nesting ≤ room

section

variable {tokens others : List Token} {text : List Char} {start middle stop : Cursor}

namespace Started

theorem of_spells (spelled : Spells tokens text) (start : Cursor) : Started tokens start start :=
  ⟨[], text, Passes.nil start, spelled⟩

theorem skipSpaces_left (started : Started tokens start.skipSpaces stop) :
    Started tokens start stop := by
  obtain ⟨read, later, passed, spelled⟩ := started
  obtain ⟨count, blank⟩ := Cursor.passes_skipSpaces start
  refine ⟨_, later, blank.append passed, ?_⟩
  rw [List.append_assoc]
  exact spelled.indent count

theorem symbol {mark : Symbol} (found : start.upcoming = some mark.char)
    (started : Started tokens start.skipSpaces.advance stop) :
    Started (.symbol mark :: tokens) start stop := by
  obtain ⟨read, later, passed, spelled⟩ := started
  apply skipSpaces_left
  exact ⟨_, later, (Cursor.passes_advance found).append passed,
    spelled.cons (not_isName_symbol mark)⟩

theorem behind (covered : Covers tokens start middle) (started : Started others middle stop)
    (plain : ¬BeginsWithName others) : Started (tokens ++ others) start stop := by
  obtain ⟨before, passed, spelled⟩ := covered
  obtain ⟨read, later, passed', spelled'⟩ := started
  refine ⟨_, later, passed.append passed', ?_⟩
  rw [List.append_assoc]
  exact spelled.append spelled' plain

theorem append (started : Started tokens start stop) (spelled : Spells others text)
    (plain : ¬BeginsWithName others) : Started (tokens ++ others) start stop := by
  obtain ⟨read, later, passed, spelled'⟩ := started
  refine ⟨read, later ++ text, passed, ?_⟩
  rw [← List.append_assoc]
  exact spelled'.append spelled plain

theorem upcoming {token : Token} (started : Started (token :: tokens) start stop)
    (moved : start ≠ stop) (visible : start.unread.head? ≠ some ' ') :
    start.upcoming = token.text.head? := by
  obtain ⟨read, later, passed, spelled⟩ := started
  cases read with
  | nil => exact absurd ((Passes.nil start).last_eq passed) moved
  | cons c read =>
    have head : start.unread.head? = some c := by rw [passed.unread_eq]; rfl
    have whole := Cursor.passes_of_append 0 (c :: read ++ later) []
    have shown := (spelled.ahead whole).1
    rw [Cursor.upcoming_of_head (by simpa [head] using visible)] at shown
    rw [Cursor.upcoming_of_head visible, head, ← shown]
    rfl

theorem name_of_plain {run : Name} (passed : start.Passes run.letters middle)
    (plain : ¬BeginsWithName tokens) (started : Started tokens middle stop) :
    Started (.name run :: tokens) start stop := by
  obtain ⟨read, later, passed', spelled⟩ := started
  refine ⟨_, later, passed.append passed', ?_⟩
  rw [List.append_assoc]
  exact .token 0 (fun _ begins => absurd begins plain) spelled

theorem name {run : Name} (passed : start.Passes run.letters middle)
    (stops : ∀ c, middle.unread.head? = some c → Cursor.isLetter c = false)
    (started : Started tokens middle.skipSpaces stop) (moved : middle.skipSpaces ≠ stop) :
    Started (.name run :: tokens) start stop := by
  obtain ⟨read, later, passed', spelled⟩ := started
  obtain ⟨count, blank⟩ := Cursor.passes_skipSpaces middle
  have further := blank.append passed'
  cases read with
  | nil => exact absurd ((Passes.nil _).last_eq passed') moved
  | cons c read =>
    have named : Spells (.name run :: tokens)
        (run.letters ++ (spaces count ++ (c :: read ++ later))) := by
      refine (spelled.indent count).name fun c' head => stops c' ?_
      rw [further.unread_eq, ← head]
      cases count <;> rfl
    exact ⟨_, later, passed.append further, by simpa using named⟩

end Started

end

/-! Productions. -/

def zero : Literal := Literal.single '0' rfl

theorem started_zero (start : Cursor) : Started [.number zero] start start :=
  .of_spells ((Spells.blank 0).cons (not_isName_number zero)) start

theorem begun_zero (room : Nat) (start : Cursor) : Begun (.primary false) room start start :=
  ⟨.number zero, started_zero start, Nat.zero_le room⟩

section

variable {inner : Scan Float} {room spare : Nat} {start middle stop : Cursor} {value : Float}
  {fault : Fault}

theorem Begun.skipSpaces_left {kind : Kind} (begun : Begun kind room start.skipSpaces stop) :
    Begun kind room start stop := by
  obtain ⟨phrase, started, fits⟩ := begun
  exact ⟨phrase, started.skipSpaces_left, fits⟩

/-- A fault that may be completed with some spare room: any but a malformed number, and for want
of room only if there is spare room. -/
structure Completable (fault : Fault) (spare : Nat) : Prop where
  other : fault.cause.kind ≠ .numberFormat
  named : fault ≠ Fault.ofInput .unwritableLimit
  spared : fault.cause.kind = .nesting → 0 < spare

/-- A step reads factors, and what it has read when it stops begins one. -/
structure BeginsFactors (inner : Scan Float) (room spare : Nat) : Prop where
  reads : ReadsFactors inner room
  begun : ∀ {start : Cursor} {fault : Fault}, Fails inner start fault → Completable fault spare →
    ∃ stop, StopsAt fault stop ∧ ∃ opens, Begun (.factor opens) (room + spare) start stop

theorem begun_term (begins : BeginsFactors inner room spare)
    (failed : Fails (term inner) start fault) (completable : Completable fault spare) :
    ∃ stop, StopsAt fault stop ∧ Begun .term (room + spare) start stop := by
  rcases (fails_chain begins.reads.advances).mp failed with
    failed | ⟨x, place, operator, reached, ahead, failed⟩
  · obtain ⟨stop, stops, _, phrase, started, fits⟩ := begins.begun failed completable
    exact ⟨stop, stops, .factor phrase, started, fits⟩
  · -- The factors in front of the last operator are complete, so their tree is known.
    obtain ⟨stop, stops, _, right, started, fits⟩ := begins.begun failed completable
    obtain ⟨left, covered, fits', _⟩ := parsed_term_of_reached begins.reads reached
    obtain ⟨scaling, _, found⟩ := exists_scaling_of_operatorAhead ahead
    have whole := Started.behind covered (started.symbol found) (not_beginsWithName_symbol _ _)
    exact ⟨stop, stops, .product left scaling right, whole,
      Nat.max_le.mpr ⟨Nat.le_add_right_of_le fits', fits⟩⟩

theorem begun_expression (begins : BeginsFactors inner room spare)
    (failed : Fails (expression inner) start fault) (completable : Completable fault spare) :
    ∃ stop, StopsAt fault stop ∧ Begun .expression (room + spare) start stop := by
  rcases (fails_chain (advances_term begins.reads.advances)).mp failed with
    failed | ⟨x, place, operator, reached, ahead, failed⟩
  · obtain ⟨stop, stops, phrase, started, fits⟩ := begun_term begins failed completable
    exact ⟨stop, stops, .term phrase, started, fits⟩
  · obtain ⟨stop, stops, right, started, fits⟩ := begun_term begins failed completable
    obtain ⟨left, covered, fits', _⟩ := parsed_expression_of_reached begins.reads reached
    obtain ⟨sign, _, found⟩ := exists_sign_of_operatorAhead ahead
    have whole := Started.behind covered (started.symbol found) (not_beginsWithName_symbol _ _)
    exact ⟨stop, stops, .sum left sign right, whole,
      Nat.max_le.mpr ⟨Nat.le_add_right_of_le fits', fits⟩⟩

theorem started_enclosed {argumentOf : Option String} (begins : BeginsFactors inner room spare)
    (found : start.upcoming = some '(')
    (failed : Fails (enclosed inner argumentOf) start.skipSpaces.advance fault)
    (completable : Completable fault spare) :
    ∃ stop, StopsAt fault stop ∧ ∃ phrase : Phrase .expression,
      Started (.symbol .opening :: (phrase.tokens ++ [.symbol .closing])) start stop ∧
        phrase.nesting ≤ room + spare := by
  have closing : Spells [.symbol .closing] [')'] :=
    (Spells.blank 0).cons (not_isName_symbol .closing)
  rcases fails_enclosed.mp failed with failed | ⟨x, place, run, _, rfl⟩
  · obtain ⟨stop, stops, phrase, started, fits⟩ := begun_expression begins failed completable
    have whole := started.append closing (not_beginsWithName_symbol _ _)
    exact ⟨stop, stops, phrase, whole.symbol found, fits⟩
  · obtain ⟨phrase, covered, fits, _⟩ := parsed_expression begins.reads run
    have whole := Started.behind covered.skipSpaces_right (.of_spells closing place.skipSpaces)
      (not_beginsWithName_symbol _ _)
    exact ⟨place.skipSpaces, stopsAt_atCursor _ _, phrase, whole.symbol found,
      Nat.le_add_right_of_le fits⟩

theorem begun_application {c : Char} (begins : BeginsFactors inner room spare)
    (found : start.unread.head? = some c) (letter : Cursor.isLetter c = true)
    (failed : Fails (application inner) start fault) (completable : Completable fault spare) :
    ∃ stop, StopsAt fault stop ∧ (Begun (.primary false) (room + spare) start stop ∨
      Begun (.factor false) (room + spare + 1) start stop) := by
  obtain ⟨name, middle, taken⟩ := exists_name found letter
  have passed := Cursor.passes_takeWhile start Cursor.isLetter
  have ends := @Cursor.takeWhile_stops start Cursor.isLetter
  rw [taken] at passed ends
  rcases (fails_application taken).mp failed with ⟨ahead, failed⟩ | ⟨other, failed⟩
  · obtain ⟨stop, stops, phrase, started, fits⟩ := started_enclosed begins ahead failed completable
    have called := started.name_of_plain passed (not_beginsWithName_symbol _ _)
    exact ⟨stop, stops, Or.inl ⟨.call name phrase, called, fits⟩⟩
  · obtain ⟨stop, stops, opens, phrase, started, fits⟩ := begins.begun failed completable
    refine ⟨stop, stops, Or.inr ?_⟩
    by_cases moved : middle.skipSpaces = stop
    · -- Nothing of the argument was read, so that it need not begin as `phrase` does.
      have positive := phrase.nesting_pos (by simp)
      have blank : Started [.number zero] middle stop := by
        rw [← moved]
        exact (started_zero middle.skipSpaces).skipSpaces_left
      have named := blank.name_of_plain passed (not_beginsWithName_cons (not_isName_number _))
      refine ⟨.application name (.primary (.number zero)), named, ?_⟩
      exact Nat.succ_le_succ (Nat.le_trans positive fits)
    · cases opens with
      | true =>
        -- Else the parenthesis would have been met behind the name, and made a call of it.
        obtain ⟨others, tokens⟩ := phrase.tokens_of_opens
        rw [tokens] at started
        have shown := started.upcoming moved middle.skipSpaces_stops
        rw [Cursor.upcoming_skipSpaces] at shown
        exact absurd shown other
      | false =>
        exact ⟨.application name phrase, started.name passed @ends moved, Nat.succ_le_succ fits⟩

theorem begun_primary (begins : BeginsFactors inner room spare)
    (failed : Fails (primary inner) start fault) (completable : Completable fault spare) :
    ∃ stop, StopsAt fault stop ∧ ((∃ opens, Begun (.primary opens) (room + spare) start stop) ∨
      Begun (.factor false) (room + spare + 1) start stop) := by
  rcases primary_cases inner start with opening | ⟨c, found, digit⟩ | ⟨c, found, letter⟩ | refused
  · rw [Fails, primary_apply_of_parenthesis opening] at failed
    obtain ⟨stop, stops, phrase, started, fits⟩ :=
      started_enclosed begins opening failed completable
    exact ⟨stop, stops, Or.inl ⟨true, .enclosed phrase, started, fits⟩⟩
  · rw [Fails, primary_apply_of_number found digit] at failed
    obtain ⟨_, rfl⟩ := fails_number.mp failed
    exact absurd rfl completable.other
  · rw [Fails, primary_apply_of_letter found letter] at failed
    obtain ⟨stop, stops, begun | begun⟩ :=
      begun_application begins found letter failed completable
    · exact ⟨stop, stops, Or.inl ⟨false, begun.skipSpaces_left⟩⟩
    · exact ⟨stop, stops, Or.inr begun.skipSpaces_left⟩
  · rw [Fails, refused] at failed
    have same := fails_refuse.mp failed
    refine ⟨start.skipSpaces, same ▸ stopsAt_atCursor _ _, Or.inl ⟨false, ?_⟩⟩
    exact (begun_zero _ start.skipSpaces).skipSpaces_left

theorem begun_powered (begins : BeginsFactors inner room spare)
    (failed : Fails (powered inner) start fault) (completable : Completable fault spare) :
    ∃ stop, StopsAt fault stop ∧ ∃ opens, Begun (.factor opens) (room + spare + 1) start stop := by
  rcases fails_powered.mp failed with failed | ⟨base, place, run, caret, failed⟩
  · obtain ⟨stop, stops, ⟨opens, phrase, started, fits⟩ | begun⟩ :=
      begun_primary begins failed completable
    · exact ⟨stop, stops, opens, .primary phrase, started, Nat.succ_le_succ fits⟩
    · exact ⟨stop, stops, false, begun⟩
  · obtain ⟨stop, stops, _, exponent, started, fits⟩ := begins.begun failed completable
    rcases parsed_primary begins.reads run with ⟨opens, phrase, covered, fits', _⟩ | ⟨_, other⟩
    · have found : place.upcoming = some Symbol.caret.char := caret
      have whole := Started.behind covered (started.symbol found) (not_beginsWithName_symbol _ _)
      exact ⟨stop, stops, opens, .power phrase exponent, whole,
        Nat.succ_le_succ (Nat.max_le.mpr ⟨Nat.le_add_right_of_le fits', fits⟩)⟩
    · exact absurd caret other

theorem begun_factor_succ {tooDeep : Cursor → Fault}
    (begins : BeginsFactors (factor tooDeep room) room spare)
    (failed : Fails (factor tooDeep (room + 1)) start fault)
    (completable : Completable fault spare) :
    ∃ stop, StopsAt fault stop ∧ ∃ opens, Begun (.factor opens) (room + 1 + spare) start stop := by
  rw [Nat.add_right_comm]
  by_cases plus : start.upcoming = some '+'
  · rw [Fails, factor_apply_of_plus plus] at failed
    obtain ⟨stop, stops, _, phrase, started, fits⟩ := begins.begun failed completable
    have found : start.upcoming = some Sign.plus.symbol.char := plus
    exact ⟨stop, stops, false, .signed .plus phrase, started.symbol found, Nat.succ_le_succ fits⟩
  · by_cases minus : start.upcoming = some '-'
    · rw [Fails, factor_apply_of_minus minus] at failed
      obtain ⟨stop, stops, _, phrase, started, fits⟩ :=
        begins.begun (fails_map.mp failed) completable
      have found : start.upcoming = some Sign.minus.symbol.char := minus
      exact ⟨stop, stops, false, .signed .minus phrase, started.symbol found,
        Nat.succ_le_succ fits⟩
    · rw [Fails, factor_apply_of_unsigned plus minus] at failed
      obtain ⟨stop, stops, opens, begun⟩ := begun_powered begins failed completable
      exact ⟨stop, stops, opens, begun.skipSpaces_left⟩

theorem beginsFactors {tooDeep : Cursor → Fault} (stops : ∀ place, StopsAt (tooDeep place) place)
    (nested : ∀ place, (tooDeep place).cause.kind = .nesting ∨
      tooDeep place = Fault.ofInput .unwritableLimit) (room spare : Nat) :
    BeginsFactors (factor tooDeep room) room spare := by
  induction room with
  | zero =>
    refine ⟨readsFactors tooDeep 0, fun {start fault} failed completable => ?_⟩
    have same := fails_refuse.mp failed
    have spared := completable.spared
      ((nested start).elim (same ▸ ·) fun unnamed => absurd (same ▸ unnamed) completable.named)
    refine ⟨start, same ▸ stops start, false, .primary (.number zero), started_zero start, ?_⟩
    exact Nat.le_add_left_of_le spared
  | succ room ih =>
    exact ⟨readsFactors tooDeep (room + 1), begun_factor_succ ih⟩

theorem begun_whole {tooDeep : Cursor → Fault}
    (begins : BeginsFactors (factor tooDeep room) room spare)
    (failed : Fails (whole tooDeep room) start fault) (completable : Completable fault spare) :
    ∃ stop, StopsAt fault stop ∧ Begun .expression (room + spare) start stop := by
  rcases fails_whole.mp failed with failed | ⟨x, place, run, _, rfl⟩
  · exact begun_expression begins failed completable
  · obtain ⟨phrase, ⟨text, passed, spelled⟩, fits, _⟩ := parsed_expression begins.reads run
    have whole : Started phrase.tokens start place := ⟨text, [], passed, by simpa using spelled⟩
    exact ⟨place, stopsAt_atCursor _ _, phrase, whole, Nat.le_add_right_of_le fits⟩

end

end Reckoner.Grammar
