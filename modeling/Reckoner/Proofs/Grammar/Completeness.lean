import Reckoner.Proofs.Grammar.Coverage
import Reckoner.Proofs.Grammar.Literal
import Reckoner.Proofs.Grammar.Operator
import Reckoner.Proofs.Reading.Production

/-!
Every phrase of the grammar is evaluated, however it is spelled: to its value if it fits into the
room that there is, and to the fault of a factor without room if it does not. The induction is on
the phrase, for every text behind it that begins with a character that may follow it.
-/
namespace Reckoner.Grammar

open Scan Evaluator
open Cursor (Passes)

/-- What may follow a phrase, spaces apart. A sum may be continued by a sign, and so on. -/
def Kind.followers : Kind → List Char
  | .expression => [')', '+', '-']
  | .term | .factor _ => [')', '+', '-', '*', '/']
  | .primary _ => [')', '+', '-', '*', '/', '^']

def FollowedBy (followers : List Char) (goal : Cursor) : Prop :=
  ∀ c, goal.upcoming = some c → c ∈ followers

/-- A step that fits ends somewhere, at the goal up to spaces. One that does not fit fails for want
of room. -/
structure Meets (tooDeep : Cursor → Fault) (fits : Prop) (step : Scan Float) (start : Cursor)
    (ends : Cursor → Prop) (goal : Cursor) : Prop where
  ends : fits → ∃ last, ends last ∧ last.skipSpaces = goal.skipSpaces
  refused : ¬fits → ∃ place, Fails step start (tooDeep place)

def Kind.step (inner : Scan Float) : Kind → Scan Float
  | .expression => Evaluator.expression inner
  | .term => Evaluator.term inner
  | .factor _ => inner
  | .primary _ => Evaluator.primary inner

/-- Sums and products are loops, in one of whose states a phrase ends. -/
def Kind.Ends (inner : Scan Float) (start : Cursor) (value : Float) : Kind → Cursor → Prop
  | .expression => Reached additive (Evaluator.term inner) start value
  | .term => Reached multiplicative inner start value
  | .factor _ => Yields inner start value
  | .primary _ => Yields (Evaluator.primary inner) start value

/-- However a phrase is written, and whatever stands behind a character that may follow it, it is
read to its end or refused for want of room. -/
def Complete (tooDeep : Cursor → Fault) {kind : Kind} (phrase : Phrase kind) : Prop :=
  ∀ (room : Nat) (start goal : Cursor) (text : List Char), start.Passes text goal →
    Spells phrase.tokens text → FollowedBy kind.followers goal →
    Meets tooDeep (phrase.nesting ≤ room) (kind.step (factor tooDeep room)) start
      (kind.Ends (factor tooDeep room) start phrase.value) goal

section

variable {tooDeep : Cursor → Fault} {fits fits' : Prop} {room : Nat} {start middle goal : Cursor}
  {step inner : Scan Float} {value x y : Float} {text : List Char}

theorem FollowedBy.mono {few many : List Char} (followed : FollowedBy few goal)
    (included : ∀ c ∈ few, c ∈ many) : FollowedBy many goal :=
  fun c found => included c (followed c found)

theorem followedBy_of_upcoming {followers : List Char} {c : Char}
    (found : goal.upcoming = some c) (member : c ∈ followers) : FollowedBy followers goal := by
  intro other found'
  rw [found] at found'
  cases found'
  exact member

theorem FollowedBy.upcoming_ne {followers : List Char} {c : Char}
    (followed : FollowedBy followers goal) (other : c ∉ followers) : goal.upcoming ≠ some c :=
  fun found => other (followed c found)

theorem FollowedBy.stops {opens : Bool} (followed : FollowedBy (Kind.primary opens).followers goal)
    (c : Char) (head : goal.unread.head? = some c) : Cursor.isNumberChar c = false := by
  by_cases blank : c = ' '
  · rw [blank]
    decide
  · have found : goal.upcoming = some c := by
      rw [Cursor.upcoming_of_head (by rw [head]; simpa using blank), head]
    have member := followed c found
    simp only [Kind.followers, List.mem_cons, List.not_mem_nil, or_false] at member
    rcases member with rfl | rfl | rfl | rfl | rfl | rfl <;> decide

/-! Loops. -/

variable {first next : Operator} {others : List Operator}

theorem Meets.operand (forward : Advances step)
    (met : Meets tooDeep fits step start (Yields step start x) goal) :
    Meets tooDeep fits (chain (first :: others) step) start
      (Reached (first :: others) step start x) goal where
  ends := by
    intro holds
    obtain ⟨last, run, same⟩ := met.ends holds
    exact ⟨last, .operand run, same⟩
  refused := by
    intro fails
    obtain ⟨place, failed⟩ := met.refused fails
    exact ⟨place, (fails_chain forward).mpr (Or.inl failed)⟩

theorem Meets.operator (forward : Advances step)
    (left : Meets tooDeep fits (chain (first :: others) step) start
      (Reached (first :: others) step start x) middle)
    (ahead : operatorAhead (first :: others) middle = some next)
    (right : Meets tooDeep fits' step middle.skipSpaces.advance
      (Yields step middle.skipSpaces.advance y) goal) :
    Meets tooDeep (fits ∧ fits') (chain (first :: others) step) start
      (Reached (first :: others) step start (next.apply x y)) goal where
  ends := by
    intro holds
    obtain ⟨place, reached, same⟩ := left.ends holds.1
    obtain ⟨last, run, same'⟩ := right.ends holds.2
    rw [← operatorAhead_congr (Cursor.upcoming_congr same)] at ahead
    rw [← same] at run
    exact ⟨last, reached.operator ahead run, same'⟩
  refused := by
    intro fails
    -- If the operands so far fit, it is the next one that does not.
    by_cases holds : fits
    · obtain ⟨place, reached, same⟩ := left.ends holds
      obtain ⟨refusal, failed⟩ := right.refused (fun holds' => fails ⟨holds, holds'⟩)
      rw [← operatorAhead_congr (Cursor.upcoming_congr same)] at ahead
      rw [← same] at failed
      exact ⟨refusal, (fails_chain forward).mpr (Or.inr ⟨x, place, next, reached, ahead, failed⟩)⟩
    · exact left.refused holds

theorem Meets.chain (forward : Advances step)
    (met : Meets tooDeep fits (chain (first :: others) step) start
      (Reached (first :: others) step start x) goal)
    (ahead : operatorAhead (first :: others) goal = none) :
    Meets tooDeep fits (Evaluator.chain (first :: others) step) start
      (Yields (Evaluator.chain (first :: others) step) start x) goal where
  ends := by
    intro holds
    obtain ⟨place, reached, same⟩ := met.ends holds
    rw [← operatorAhead_congr (Cursor.upcoming_congr same)] at ahead
    refine ⟨place.skipSpaces, (yields_chain forward).mpr ⟨place, reached, ahead, rfl⟩, ?_⟩
    rw [Cursor.skipSpaces_skipSpaces, same]
  refused := met.refused

theorem operatorAhead_of_followedBy {operators : List Operator} {followers : List Char}
    (followed : FollowedBy followers goal)
    (apart : ∀ operator ∈ operators, operator.symbol ∉ followers) :
    operatorAhead operators goal = none := by
  apply List.find?_eq_none.mpr
  intro operator member
  simpa using followed.upcoming_ne (apart operator member)

theorem Complete.term {phrase : Phrase .term} (complete : Complete tooDeep phrase)
    (passed : start.Passes text goal) (spelled : Spells phrase.tokens text)
    (followed : FollowedBy Kind.expression.followers goal) :
    Meets tooDeep (phrase.nesting ≤ room) (Evaluator.term (factor tooDeep room)) start
      (Yields (Evaluator.term (factor tooDeep room)) start phrase.value) goal := by
  have met := complete room start goal text passed spelled
    (followed.mono (by simp [Kind.followers]))
  exact Meets.chain (advances_factor tooDeep room) met
    (operatorAhead_of_followedBy followed (by simp [Kind.followers]))

theorem Complete.expression {phrase : Phrase .expression} (complete : Complete tooDeep phrase)
    (passed : start.Passes text goal) (spelled : Spells phrase.tokens text)
    (followed : FollowedBy [')'] goal) :
    Meets tooDeep (phrase.nesting ≤ room) (Evaluator.expression (factor tooDeep room)) start
      (Yields (Evaluator.expression (factor tooDeep room)) start phrase.value) goal := by
  have met := complete room start goal text passed spelled
    (followed.mono (by simp [Kind.followers]))
  exact Meets.chain (advances_term (advances_factor tooDeep room)) met
    (operatorAhead_of_followedBy followed (by simp))

theorem complete_term {only : Phrase .term} (complete : Complete tooDeep only) :
    Complete tooDeep (.term only) := by
  intro room start goal text passed spelled followed
  exact Meets.operand (advances_term (advances_factor tooDeep room))
    (complete.term passed spelled followed)

theorem complete_sum {left : Phrase .expression} {sign : Sign} {right : Phrase .term}
    (complete : Complete tooDeep left) (complete' : Complete tooDeep right) :
    Complete tooDeep (.sum left sign right) := by
  intro room start goal text passed spelled followed
  obtain ⟨before, after, rfl, first, second⟩ := spelled.split
  obtain ⟨middle, passed, passed'⟩ := passed.split
  obtain ⟨found, rest, further, third⟩ := second.symbol_ahead passed'
  have met := complete room start middle before passed first
    (followedBy_of_upcoming found (by cases sign <;> decide))
  have met' := @Complete.term _ room _ _ _ _ complete' further third followed
  have both := Meets.operator (advances_term (advances_factor tooDeep room)) met
    (operatorAhead_of_sign found) met'
  rw [← Nat.max_le] at both
  exact both

theorem complete_factor {opens : Bool} {only : Phrase (.factor opens)}
    (complete : Complete tooDeep only) : Complete tooDeep (.factor only) := by
  intro room start goal text passed spelled followed
  exact Meets.operand (advances_factor tooDeep room)
    (complete room start goal text passed spelled followed)

theorem complete_product {opens : Bool} {left : Phrase .term} {scaling : Scaling}
    {right : Phrase (.factor opens)} (complete : Complete tooDeep left)
    (complete' : Complete tooDeep right) : Complete tooDeep (.product left scaling right) := by
  intro room start goal text passed spelled followed
  obtain ⟨before, after, rfl, first, second⟩ := spelled.split
  obtain ⟨middle, passed, passed'⟩ := passed.split
  obtain ⟨found, rest, further, third⟩ := second.symbol_ahead passed'
  have met := complete room start middle before passed first
    (followedBy_of_upcoming found (by cases scaling <;> decide))
  have met' := complete' room _ goal rest further third followed
  have both := Meets.operator (advances_factor tooDeep room) met (operatorAhead_of_scaling found)
    met'
  rw [← Nat.max_le] at both
  exact both

/-! Factors. -/

theorem Meets.transfer {step' : Scan Float} {start' : Cursor} {ends ends' : Cursor → Prop}
    (met : Meets tooDeep fits step start ends goal) (yields : ∀ last, ends last → ends' last)
    (fails : ∀ fault, Fails step start fault → Fails step' start' fault) :
    Meets tooDeep fits step' start' ends' goal where
  ends := by
    intro holds
    obtain ⟨last, run, same⟩ := met.ends holds
    exact ⟨last, yields last run, same⟩
  refused := by
    intro fails'
    obtain ⟨place, failed⟩ := met.refused fails'
    exact ⟨place, fails _ failed⟩

theorem meets_zero {ends : Cursor → Prop} (never : ¬fits) :
    Meets tooDeep fits (factor tooDeep 0) start ends goal :=
  ⟨fun holds => absurd holds never, fun _ => ⟨start, rfl⟩⟩

theorem Meets.of_apply_eq {step' : Scan Float} {start' : Cursor} (same : step' start' = step start)
    (met : Meets tooDeep fits step start (Yields step start x) goal) :
    Meets tooDeep fits step' start' (Yields step' start' x) goal :=
  met.transfer (fun _ run => (congrArg Outcome.result same).trans run)
    (fun _ failed => (congrArg Outcome.result same).trans failed)

theorem Meets.map (change : Float → Float)
    (met : Meets tooDeep fits step start (Yields step start x) goal) :
    Meets tooDeep fits (step >>= fun y => pure (change y)) start
      (Yields (step >>= fun y => pure (change y)) start (change x)) goal :=
  met.transfer (fun _ run => yields_map.mpr ⟨x, run, rfl⟩) (fun _ failed => fails_map.mpr failed)

theorem complete_signed {opens : Bool} {sign : Sign} {inner : Phrase (.factor opens)}
    (complete : Complete tooDeep inner) : Complete tooDeep (.signed sign inner) := by
  intro room start goal text passed spelled followed
  cases room with
  | zero => exact meets_zero (Nat.not_succ_le_zero _)
  | succ room =>
    obtain ⟨found, rest, further, spelled⟩ := spelled.symbol_ahead passed
    have met := complete room _ goal rest further spelled followed
    rw [Phrase.nesting, Nat.add_le_add_iff_right]
    cases sign with
    | plus => exact met.of_apply_eq (factor_apply_of_plus found)
    | minus => exact (met.map Binary64.negate).of_apply_eq (factor_apply_of_minus found)

theorem Meets.powered
    (met : Meets tooDeep fits (primary inner) start (Yields (primary inner) start x) goal)
    (other : goal.upcoming ≠ some '^') :
    Meets tooDeep fits (Evaluator.powered inner) start
      (Yields (Evaluator.powered inner) start x) goal where
  ends := by
    intro holds
    obtain ⟨place, run, same⟩ := met.ends holds
    rw [← Cursor.upcoming_congr same] at other
    refine ⟨place.skipSpaces, yields_powered.mpr ⟨x, place, run, Or.inr ⟨other, rfl, rfl⟩⟩, ?_⟩
    rw [Cursor.skipSpaces_skipSpaces, same]
  refused := by
    intro fails
    obtain ⟨place, failed⟩ := met.refused fails
    exact ⟨place, fails_powered.mpr (Or.inl failed)⟩

theorem Meets.power
    (base : Meets tooDeep fits (primary inner) start (Yields (primary inner) start x) middle)
    (ahead : middle.upcoming = some '^')
    (exponent : Meets tooDeep fits' inner middle.skipSpaces.advance
      (Yields inner middle.skipSpaces.advance y) goal) :
    Meets tooDeep (fits ∧ fits') (Evaluator.powered inner) start
      (Yields (Evaluator.powered inner) start (x.pow y)) goal where
  ends := by
    intro holds
    obtain ⟨place, run, same⟩ := base.ends holds.1
    obtain ⟨last, run', same'⟩ := exponent.ends holds.2
    rw [← Cursor.upcoming_congr same] at ahead
    rw [← same] at run'
    exact ⟨last, yields_powered.mpr ⟨x, place, run, Or.inl ⟨ahead, y, run', rfl⟩⟩, same'⟩
  refused := by
    intro fails
    by_cases holds : fits
    · obtain ⟨place, run, same⟩ := base.ends holds
      obtain ⟨refusal, failed⟩ := exponent.refused (fun holds' => fails ⟨holds, holds'⟩)
      rw [← Cursor.upcoming_congr same] at ahead
      rw [← same] at failed
      exact ⟨refusal, fails_powered.mpr (Or.inr ⟨x, place, run, ahead, failed⟩)⟩
    · obtain ⟨refusal, failed⟩ := base.refused holds
      exact ⟨refusal, fails_powered.mpr (Or.inl failed)⟩

theorem Meets.factor
    (met : Meets tooDeep fits (Evaluator.powered (Evaluator.factor tooDeep room)) start.skipSpaces
      (Yields (Evaluator.powered (Evaluator.factor tooDeep room)) start.skipSpaces x) goal)
    (unsigned : ∀ sign : Sign, start.upcoming ≠ some sign.symbol.char) :
    Meets tooDeep fits (Evaluator.factor tooDeep (room + 1)) start
      (Yields (Evaluator.factor tooDeep (room + 1)) start x) goal :=
  met.of_apply_eq (factor_apply_of_unsigned (unsigned .plus) (unsigned .minus))

theorem complete_primary {opens : Bool} {only : Phrase (.primary opens)}
    (complete : Complete tooDeep only) : Complete tooDeep (.primary only) := by
  intro room start goal text passed spelled followed
  cases room with
  | zero => exact meets_zero (Nat.not_succ_le_zero _)
  | succ room =>
    obtain ⟨rest, further, spelled'⟩ := spelled.skipSpaces only.tokens_ne_nil passed
    have met := complete room _ goal rest further spelled'
      (followed.mono (by simp [Kind.followers]))
    rw [Phrase.nesting, Nat.add_le_add_iff_right]
    have powered := met.powered (followed.upcoming_ne (by simp [Kind.followers]))
    exact powered.factor (spelled.unsigned_ahead passed)

theorem complete_power {opens opens' : Bool} {base : Phrase (.primary opens)}
    {exponent : Phrase (.factor opens')} (complete : Complete tooDeep base)
    (complete' : Complete tooDeep exponent) : Complete tooDeep (.power base exponent) := by
  intro room start goal text passed spelled followed
  cases room with
  | zero => exact meets_zero (Nat.not_succ_le_zero _)
  | succ room =>
    obtain ⟨before, after, rfl, first, second⟩ := spelled.split
    obtain ⟨middle, passed, passed'⟩ := passed.split
    obtain ⟨found, rest, further, third⟩ := second.symbol_ahead passed'
    obtain ⟨blankless, further', first'⟩ := first.skipSpaces base.tokens_ne_nil passed
    have met := complete room _ middle blankless further' first'
      (followedBy_of_upcoming found (by simp [Kind.followers, Symbol.char]))
    have met' := complete' room _ goal rest further third followed
    rw [Phrase.nesting, Nat.add_le_add_iff_right, Nat.max_le]
    exact (met.power found met').factor (first.unsigned_ahead passed)

/-! Numbers, parentheses and names. -/

theorem complete_number (literal : Literal) : Complete tooDeep (.number literal) := by
  intro room start goal text passed spelled followed
  obtain ⟨found, middle, taken, same⟩ := spelled.number_ahead passed followed.stops
  obtain ⟨c, rest, shown, _⟩ := (Token.number literal).text_eq_cons
  have head : literal.text.head? = some c := by rw [show literal.text = c :: rest from shown]; rfl
  have digit := literal.isNumberChar_of_mem (List.mem_of_mem_head? head)
  have run : Yields number start.skipSpaces literal.value middle := by
    rw [yields_number, taken]
    exact ⟨literal.decimal, decimal?_text literal, rfl, rfl⟩
  refine Meets.of_apply_eq (primary_apply_of_number (found.trans head) digit) ?_
  exact ⟨fun _ => ⟨middle, run, same⟩, fun fails => absurd (Nat.zero_le room) fails⟩

theorem meets_enclosed {phrase : Phrase .expression} {argumentOf : Option String}
    (complete : Complete tooDeep phrase) (passed : start.Passes text goal)
    (spelled : Spells (phrase.tokens ++ [.symbol .closing]) text) :
    Meets tooDeep (phrase.nesting ≤ room) (enclosed (factor tooDeep room) argumentOf) start
      (Yields (enclosed (factor tooDeep room) argumentOf) start phrase.value) goal := by
  obtain ⟨before, after, rfl, first, second⟩ := spelled.split
  obtain ⟨middle, passed, passed'⟩ := passed.split
  obtain ⟨found, rest, further, third⟩ := second.symbol_ahead passed'
  have met := @Complete.expression _ room _ _ _ _ complete passed first
    (followedBy_of_upcoming found (by simp [Symbol.char]))
  cases third with
  | blank count =>
    constructor
    · intro fits
      obtain ⟨place, run, same⟩ := met.ends fits
      refine ⟨middle.skipSpaces.advance, ?_, Cursor.skipSpaces_of_passes further⟩
      rw [← Cursor.upcoming_congr same] at found
      rw [← same]
      exact yields_enclosed.mpr ⟨place, run, found, rfl⟩
    · intro unfit
      obtain ⟨place, failed⟩ := met.refused unfit
      exact ⟨place, fails_enclosed.mpr (Or.inl failed)⟩

theorem complete_enclosed {inner : Phrase .expression} (complete : Complete tooDeep inner) :
    Complete tooDeep (.enclosed inner) := by
  intro room start goal text passed spelled followed
  obtain ⟨found, rest, further, spelled⟩ := spelled.symbol_ahead passed
  exact (meets_enclosed complete further spelled).of_apply_eq (primary_apply_of_parenthesis found)

theorem Meets.conclude {name : String} {place : Nat}
    (met : Meets tooDeep fits step start (Yields step start x) goal) :
    Meets tooDeep fits (step >>= Evaluator.conclude name place) start
      (Yields (step >>= Evaluator.conclude name place) start ((Function.ofName name).apply x))
      goal :=
  met.transfer (fun _ run => yields_conclude.mpr ⟨x, run, rfl⟩)
    (fun _ failed => fails_conclude.mpr failed)

theorem primary_apply_of_name {name : Name} (found : start.upcoming = name.letters.head?) :
    primary inner start = application inner start.skipSpaces := by
  obtain ⟨c, rest, shown⟩ := List.exists_cons_of_ne_nil name.someLetter
  rw [shown] at found
  exact primary_apply_of_letter found (name.letter c (by simp [shown]))

theorem complete_call {name : Name} {argument : Phrase .expression}
    (complete : Complete tooDeep argument) : Complete tooDeep (.call name argument) := by
  intro room start goal text passed spelled followed
  obtain ⟨found, middle, rest, taken, further, spelled⟩ := spelled.name_ahead passed (by simp)
  obtain ⟨opening, rest, further, spelled⟩ := spelled.symbol_ahead further
  have met := @meets_enclosed _ room _ _ _ _ (some (String.ofList name.letters)) complete further
    spelled
  have applied := met.conclude.of_apply_eq (application_apply_of_parenthesis taken opening)
  exact applied.of_apply_eq (primary_apply_of_name found)

theorem complete_application {name : Name} {argument : Phrase (.factor false)}
    (complete : Complete tooDeep argument) : Complete tooDeep (.application name argument) := by
  intro room start goal text passed spelled followed
  cases room with
  | zero => exact meets_zero (Nat.not_succ_le_zero _)
  | succ room =>
    obtain ⟨found, middle, rest, taken, further, spelled⟩ :=
      spelled.name_ahead passed argument.tokens_ne_nil
    -- No parenthesis follows the name, so that it is no call.
    obtain ⟨token, others, tokens, other⟩ := argument.tokens_of_not_opens
    have shut : middle.upcoming ≠ some '(' := by
      rw [tokens] at spelled
      rw [(spelled.ahead further).1]
      intro opening
      exact other (@Token.eq_symbol_of_head _ .opening opening)
    obtain ⟨rest, further, spelled⟩ := spelled.skipSpaces argument.tokens_ne_nil further
    have met := complete room _ goal rest further spelled followed
    have applied := met.conclude.of_apply_eq (application_apply_of_ne_parenthesis taken shut)
    have named : start.skipSpaces.upcoming = name.letters.head? := by
      rw [Cursor.upcoming_skipSpaces, found]
    have apply : primary (factor tooDeep room) start.skipSpaces =
        application (factor tooDeep room) start.skipSpaces := by
      rw [primary_apply_of_name named, Cursor.skipSpaces_skipSpaces]
    have based := applied.of_apply_eq apply
    rw [Phrase.nesting, Nat.add_le_add_iff_right]
    refine (based.powered (followed.upcoming_ne (by simp [Kind.followers]))).factor ?_
    -- A name begins with a letter and with no sign.
    intro sign ahead
    exact Token.noConfusion (@Token.eq_symbol_of_head (.name name) _ (found.symm.trans ahead))

theorem complete {kind : Kind} (phrase : Phrase kind) : Complete tooDeep phrase := by
  induction phrase with
  | term only ih => exact complete_term ih
  | sum left sign right ih ih' => exact complete_sum ih ih'
  | factor only ih => exact complete_factor ih
  | product left scaling right ih ih' => exact complete_product ih ih'
  | signed sign inner ih => exact complete_signed ih
  | primary only ih => exact complete_primary ih
  | power base exponent ih ih' => exact complete_power ih ih'
  | application name argument ih => exact complete_application ih
  | enclosed inner ih => exact complete_enclosed ih
  | number literal => exact complete_number literal
  | call name argument ih => exact complete_call ih

end

end Reckoner.Grammar
