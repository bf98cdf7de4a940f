import Reckoner.Proofs.Grammar.Diagnosis
import Reckoner.Proofs.Grammar.Evaluation

/-!
What a production leaves in front of the cursor, and to whom an exponent belongs. No production
stops in front of a character that it would have read on with. So a factor has taken the exponent
behind it, and nothing is left for a name in front of that factor to be raised to.
-/
namespace Reckoner.Grammar

open Scan Evaluator
open Cursor (Passes)

/-- A cursor stands at the end, or in front of a character that is none of the given ones. -/
def ClearOf (marks : List Char) (cursor : Cursor) : Prop :=
  ∀ c ∈ marks, cursor.unread.head? ≠ some c

section

variable {tooDeep : Cursor → Fault} {room : Nat} {start last : Cursor} {value : Float}

theorem clearOf_cons {marks : List Char} (skipped : last.skipSpaces = last)
    (others : ∀ c ∈ marks, last.upcoming ≠ some c) : ClearOf (' ' :: marks) last := by
  have visible := last.skipSpaces_stops
  rw [skipped] at visible
  intro c member
  rcases List.mem_cons.mp member with rfl | member
  · exact visible
  · rw [← Cursor.upcoming_of_head visible]
    exact others c member

theorem skipSpaces_of_yields_powered {inner : Scan Float}
    (ends : ∀ {start last : Cursor} {value : Float}, Yields inner start value last →
      last.skipSpaces = last)
    (run : Yields (powered inner) start value last) : last.skipSpaces = last := by
  obtain ⟨base, place, _, ⟨_, x, run, _⟩ | ⟨_, _, rfl⟩⟩ := yields_powered.mp run
  · exact ends run
  · exact place.skipSpaces_skipSpaces

theorem skipSpaces_of_yields_factor (run : Yields (factor tooDeep room) start value last) :
    last.skipSpaces = last := by
  induction room generalizing start value last with
  | zero => exact absurd run not_yields_refuse
  | succ room ih =>
    by_cases plus : start.upcoming = some '+'
    · rw [Yields, factor_apply_of_plus plus] at run
      exact ih run
    · by_cases minus : start.upcoming = some '-'
      · rw [Yields, factor_apply_of_minus minus] at run
        obtain ⟨x, inner, _⟩ := yields_map.mp run
        exact ih inner
      · rw [Yields, factor_apply_of_unsigned plus minus] at run
        exact skipSpaces_of_yields_powered ih run

/-- What stands behind each production that has ended in a value. Behind a name and a factor no
exponent is met. -/
structure Lookahead (tooDeep : Cursor → Fault) (room : Nat) : Prop where
  factor : ∀ start value last, Yields (factor tooDeep room) start value last →
    ClearOf [' ', '^'] last
  term : ∀ start value last, Yields (term (Evaluator.factor tooDeep room)) start value last →
    ClearOf [' ', '*', '/', '^'] last
  expression : ∀ start value last,
    Yields (expression (Evaluator.factor tooDeep room)) start value last →
      ClearOf [' ', '+', '-', '*', '/', '^'] last
  application : ∀ start c value last, start.upcoming = some c → Cursor.isLetter c = true →
    (start.skipSpaces.takeWhile Cursor.isLetter).2.upcoming ≠ some '(' →
      Yields (primary (Evaluator.factor tooDeep room)) start value last →
        ClearOf [' ', '^'] last ∧ last.eat ['^'] = (false, last)

theorem clearOf_of_yields_factor (run : Yields (factor tooDeep room) start value last) :
    ClearOf [' ', '^'] last := by
  have exponent := ((readsFactors tooDeep room).parsed run).2
  exact clearOf_cons (skipSpaces_of_yields_factor run) (by simpa using exponent)

theorem lookahead (tooDeep : Cursor → Fault) (room : Nat) : Lookahead tooDeep room where
  factor := fun _ _ _ run => clearOf_of_yields_factor run
  term := fun _ _ _ run => clearOf_cons
    (skipSpaces_of_yields_chain (advances_factor tooDeep room) run)
    (upcoming_ne_of_yields_term (readsFactors tooDeep room) run)
  expression := fun _ _ _ run => clearOf_cons
    (skipSpaces_of_yields_chain (advances_term (advances_factor tooDeep room)) run)
    (upcoming_ne_of_yields_expression (readsFactors tooDeep room) run)
  application := by
    intro start c value last found letter shut run
    rw [Yields, primary_apply_of_letter found letter] at run
    obtain ⟨x, _, ⟨opening, _⟩ | ⟨_, run⟩⟩ := (yields_application rfl).mp run
    · exact absurd opening shut
    · have clear := clearOf_of_yields_factor run
      have skipped := skipSpaces_of_yields_factor run
      have missed : last.upcoming ≠ some '^' := by
        rw [Cursor.upcoming, skipped]
        exact clear '^' (by simp)
      exact ⟨clear, by rw [Cursor.eat_eq, if_neg missed, skipped]⟩

end

/-! Exponents. -/

/-- A factor with an exponent behind it, which goes to the last primary of the factor. -/
def Phrase.raised : {opens opens' : Bool} → Phrase (.factor opens) → Phrase (.factor opens') →
    Phrase (.factor opens)
  | _, _, signed sign inner, exponent => .signed sign (inner.raised exponent)
  | _, _, primary only, exponent => .power only exponent
  | _, _, power base inner, exponent => .power base (inner.raised exponent)
  | _, _, application name argument, exponent => .application name (argument.raised exponent)

theorem Phrase.tokens_raised {opens opens' : Bool} (factor : Phrase (.factor opens))
    (exponent : Phrase (.factor opens')) :
    (factor.raised exponent).tokens = factor.tokens ++ .symbol .caret :: exponent.tokens := by
  match factor with
  | signed sign inner => simp [raised, tokens, tokens_raised inner]
  | primary only => simp [raised, tokens]
  | power base inner => simp [raised, tokens, tokens_raised inner]
  | application name argument => simp [raised, tokens, tokens_raised argument]

/-- Two ways to write a factor are read alike wherever they stand: in any room, and in front of
anything that may follow a factor, both end in one value behind their own text, or both are refused
for want of room. -/
def ReadAlike (tokens tokens' : List Token) : Prop :=
  ∀ (tooDeep : Cursor → Fault) (room : Nat) (start goal start' goal' : Cursor)
    (text text' : List Char),
    start.Passes text goal → Spells tokens text → FollowedBy (Kind.factor false).followers goal →
    start'.Passes text' goal' → Spells tokens' text' →
      FollowedBy (Kind.factor false).followers goal' →
    (∃ value, Yields (factor tooDeep room) start value goal.skipSpaces ∧
      Yields (factor tooDeep room) start' value goal'.skipSpaces) ∨
    ∃ place place', Fails (factor tooDeep room) start (tooDeep place) ∧
      Fails (factor tooDeep room) start' (tooDeep place')

theorem yields_factor_of_meets {tooDeep : Cursor → Fault} {fits : Prop} {room : Nat}
    {start goal : Cursor} {value : Float}
    (met : Meets tooDeep fits (factor tooDeep room) start
      (Yields (factor tooDeep room) start value) goal) (holds : fits) :
    Yields (factor tooDeep room) start value goal.skipSpaces := by
  obtain ⟨last, run, same⟩ := met.ends holds
  rw [skipSpaces_of_yields_factor run] at same
  exact same ▸ run

theorem readAlike_of_phrases {first second : Phrase (.factor false)}
    (nesting : first.nesting = second.nesting) (value : first.value = second.value) :
    ReadAlike first.tokens second.tokens := by
  intro tooDeep room start goal start' goal' text text' passed spelled followed passed' spelled'
    followed'
  have met := @complete tooDeep _ first room start goal text passed spelled followed
  have met' := @complete tooDeep _ second room start' goal' text' passed' spelled' followed'
  rw [← nesting, ← value] at met'
  by_cases fits : first.nesting ≤ room
  · exact Or.inl ⟨first.value, yields_factor_of_meets met fits, yields_factor_of_meets met' fits⟩
  · obtain ⟨place, failed⟩ := met.refused fits
    obtain ⟨place', failed'⟩ := met'.refused fits
    exact Or.inr ⟨place, place', failed, failed'⟩

def inParentheses (name : Name) (argument : List Token) : List Token :=
  .name name :: .symbol .opening :: (argument ++ [.symbol .closing])

/-- Two texts stand for what a name makes of the value of a third one, or are both refused for want
of room. -/
def ApplyAlike (limit : Int) (stack : Nat) (name : Name) (argument text text' : String) : Prop :=
  (∃ value, (run limit stack argument).result = .ok value ∧
      (run limit stack text).result = .ok (name.function.apply value) ∧
      (run limit stack text').result = .ok (name.function.apply value)) ∨
    ∃ place place', (run limit stack text).result = .error (nestingFault limit stack place) ∧
      (run limit stack text').result = .error (nestingFault limit stack place')

theorem applyAlike_of_spells {limit : Int} {stack : Nat} (name : Name)
    (factor : Phrase (.factor false)) {argument text text' : String}
    (spelled : Spells factor.tokens argument.toList)
    (spelled' : Spells (.name name :: factor.tokens) text.toList)
    (spelled'' : Spells (inParentheses name factor.tokens) text'.toList) :
    ApplyAlike limit stack name argument text text' := by
  obtain ⟨applied, same⟩ : ∃ tree : Phrase .expression,
    tree = .term (.factor (.application name factor)) := ⟨_, rfl⟩
  obtain ⟨called, same'⟩ : ∃ tree : Phrase .expression,
    tree = .term (.factor (.primary (.call name (.term (.factor factor))))) := ⟨_, rfl⟩
  have nesting : applied.nesting = factor.nesting + 1 := by rw [same]; rfl
  have nesting' : called.nesting = factor.nesting + 1 := by rw [same']; rfl
  have covered : Spells applied.tokens text.toList := by rw [same]; exact spelled'
  have covered' : Spells called.tokens text'.toList := by rw [same']; exact spelled''
  by_cases fits : factor.nesting + 1 ≤ min limit.toNat stack
  · have alone := @run_of_spells limit stack argument (.term (.factor factor)) spelled
      (Nat.le_of_succ_le fits)
    have free := run_of_spells applied covered (nesting.le.trans fits)
    have bound := run_of_spells called covered' (nesting'.le.trans fits)
    rw [same] at free
    rw [same'] at bound
    exact Or.inl ⟨factor.value, alone, free, bound⟩
  · obtain ⟨place, free⟩ := run_of_spells_of_unfit applied covered (nesting ▸ fits)
    obtain ⟨place', bound⟩ := run_of_spells_of_unfit called covered' (nesting' ▸ fits)
    exact Or.inr ⟨place, place', free, bound⟩

/-- No production stops in front of a space or of a character that it would have read on with. So an
exponent behind a name and a factor belongs to the factor, as if the power stood in parentheses. -/
theorem lookahead_and_exponents :
    (∀ tooDeep room, Lookahead tooDeep room) ∧
      ∀ (name : Name) (argument : Phrase (.factor false)) (opens : Bool)
        (exponent : Phrase (.factor opens)),
        let power := argument.tokens ++ .symbol .caret :: exponent.tokens
        ReadAlike (.name name :: power) (inParentheses name power) ∧
          ∀ (limit : Int) (stack : Nat) (bare text text' : String), Spells power bare.toList →
            Spells (.name name :: power) text.toList →
              Spells (inParentheses name power) text'.toList →
                ApplyAlike limit stack name bare text text' := by
  refine ⟨lookahead, fun name argument opens exponent => ?_⟩
  rw [← Phrase.tokens_raised]
  refine ⟨?_, fun limit stack bare text text' => applyAlike_of_spells name _⟩
  exact @readAlike_of_phrases (.application name (argument.raised exponent))
    (.primary (.call name (.term (.factor (argument.raised exponent))))) rfl rfl

def sine : Name := ⟨['s', 'i', 'n'], List.all_eq_true.mp rfl, List.cons_ne_nil _ _⟩

def three : Phrase (.factor false) := .primary (.number (.single '3' rfl))

theorem spells_negatedCube {tokens : List Token} {text : List Char} (rest : Spells tokens text) :
    Spells ((Phrase.signed .minus three).tokens ++ .symbol .caret :: (three.tokens ++ tokens))
      ('-' :: '3' :: '^' :: '3' :: text) :=
  (((rest.cons (not_isName_number _)).cons (not_isName_symbol .caret)).cons
    (not_isName_number (.single '3' rfl))).cons (not_isName_symbol .minus)

theorem lookahead_and_exponents_sine : ∃ value, (run 100 1000 "-3^3").result = .ok value ∧
    (run 100 1000 "sin -3^3").result = .ok (sine.function.apply value) ∧
    (run 100 1000 "sin(-3^3)").result = .ok (sine.function.apply value) := by
  have bare := spells_negatedCube (.blank 0)
  have free : Spells (.name sine :: _) "sin -3^3".toList :=
    (bare.indent 1).name fun c first => by cases first; rfl
  have closing := (Spells.blank 0).cons (not_isName_symbol .closing)
  have bound : Spells (.name sine :: _) "sin(-3^3)".toList :=
    ((spells_negatedCube closing).cons (not_isName_symbol .opening)).name
      fun c first => by cases first; rfl
  obtain ⟨_, applied⟩ :=
    lookahead_and_exponents.2 sine (.signed .minus three) false three
  rcases applied 100 1000 "-3^3" "sin -3^3" "sin(-3^3)" bare free bound with
    ended | ⟨place, _, refused, _⟩
  · exact ended
  · have some : (run 100 1000 "sin -3^3").result.toBool = true := rfl
    rw [refused] at some
    cases some

end Reckoner.Grammar
