import Reckoner.Proofs.Grammar.Coverage
import Reckoner.Proofs.Grammar.Literal
import Reckoner.Proofs.Grammar.Operator
import Reckoner.Proofs.Reading.Production

/-!
Whatever is evaluated is a phrase of the grammar. No tree is ever built while an expression is
read, so it is recovered here from the run: each production that ends in a value has passed the
tokens of a phrase with that value, which fits into the room that there was.
-/
namespace Reckoner.Grammar

open Scan Evaluator

variable {inner : Scan Float} {room : Nat} {start middle last : Cursor} {value : Float}

/-- Between two cursors lies a phrase of a kind with a value, which fits into some room. -/
def Parsed (kind : Kind) (room : Nat) (start : Cursor) (value : Float) (last : Cursor) : Prop :=
  ∃ phrase : Phrase kind, Covers phrase.tokens start last ∧ phrase.nesting ≤ room ∧
    phrase.value = value

theorem Parsed.skipSpaces_left {kind : Kind}
    (parsed : Parsed kind room start.skipSpaces value last) :
    Parsed kind room start value last := by
  obtain ⟨phrase, covered, fits, same⟩ := parsed
  exact ⟨phrase, covered.skipSpaces_left, fits, same⟩

theorem Parsed.skipSpaces_right {kind : Kind} (parsed : Parsed kind room start value last) :
    Parsed kind room start value last.skipSpaces := by
  obtain ⟨phrase, covered, fits, same⟩ := parsed
  exact ⟨phrase, covered.skipSpaces_right, fits, same⟩

structure ReadsFactors (inner : Scan Float) (room : Nat) : Prop where
  advances : Advances inner
  parsed : ∀ {start last : Cursor} {value : Float}, Yields inner start value last →
    (∃ opens, Parsed (.factor opens) room start value last) ∧ last.upcoming ≠ some '^'

theorem parsed_term_of_reached (reads : ReadsFactors inner room)
    (reached : Reached multiplicative inner start value last) :
    Parsed .term room start value last := by
  induction reached with
  | operand run =>
    obtain ⟨⟨_, phrase, covered, fits, same⟩, _⟩ := reads.parsed run
    exact ⟨.factor phrase, covered, fits, same⟩
  | operator _ ahead run ih =>
    obtain ⟨left, covered, fits, rfl⟩ := ih
    obtain ⟨scaling, rfl, found⟩ := exists_scaling_of_operatorAhead ahead
    obtain ⟨⟨_, right, covered', fits', rfl⟩, _⟩ := reads.parsed run
    have whole := covered.between found covered'
    exact ⟨.product left scaling right, whole, Nat.max_le.mpr ⟨fits, fits'⟩, rfl⟩

theorem parsed_term (reads : ReadsFactors inner room) (run : Yields (term inner) start value last) :
    Parsed .term room start value last := by
  obtain ⟨place, reached, _, rfl⟩ := (yields_chain reads.advances).mp run
  exact (parsed_term_of_reached reads reached).skipSpaces_right

theorem parsed_expression_of_reached (reads : ReadsFactors inner room)
    (reached : Reached additive (term inner) start value last) :
    Parsed .expression room start value last := by
  induction reached with
  | operand run =>
    obtain ⟨phrase, covered, fits, same⟩ := parsed_term reads run
    exact ⟨.term phrase, covered, fits, same⟩
  | operator _ ahead run ih =>
    obtain ⟨left, covered, fits, rfl⟩ := ih
    obtain ⟨sign, rfl, found⟩ := exists_sign_of_operatorAhead ahead
    obtain ⟨right, covered', fits', rfl⟩ := parsed_term reads run
    have whole := covered.between found covered'
    exact ⟨.sum left sign right, whole, Nat.max_le.mpr ⟨fits, fits'⟩, rfl⟩

theorem parsed_expression (reads : ReadsFactors inner room)
    (run : Yields (expression inner) start value last) :
    Parsed .expression room start value last := by
  obtain ⟨place, reached, _, rfl⟩ := (yields_chain (advances_term reads.advances)).mp run
  exact (parsed_expression_of_reached reads reached).skipSpaces_right

theorem covers_enclosed {argumentOf : Option String} (reads : ReadsFactors inner room)
    (found : start.upcoming = some '(')
    (run : Yields (enclosed inner argumentOf) start.skipSpaces.advance value last) :
    ∃ phrase : Phrase .expression,
      Covers (.symbol .opening :: (phrase.tokens ++ [.symbol .closing])) start last ∧
        phrase.nesting ≤ room ∧ phrase.value = value := by
  obtain ⟨place, inside, closing, rfl⟩ := yields_enclosed.mp run
  obtain ⟨phrase, covered, fits, same⟩ := parsed_expression reads inside
  have found' : place.upcoming = some Symbol.closing.char := closing
  have whole := covered.between found' (Covers.nil _)
  exact ⟨phrase, whole.symbol found, fits, same⟩

theorem parsed_number (run : Yields number start value last) :
    Parsed (.primary false) room start value last := by
  obtain ⟨decimal, read, rfl, rfl⟩ := yields_number.mp run
  obtain ⟨literal, text, rfl⟩ :=
    exists_literal_of_decimal? (fun c member => Cursor.holds_of_mem_takeWhile member) read
  have passed := Cursor.passes_takeWhile start Cursor.isNumberChar
  rw [← text] at passed
  exact ⟨.number literal, Covers.number passed, Nat.zero_le _, rfl⟩

theorem exists_name {c : Char} (found : start.unread.head? = some c)
    (letter : Cursor.isLetter c = true) :
    ∃ (name : Name) (middle : Cursor),
      start.takeWhile Cursor.isLetter = (name.letters, middle) := by
  refine ⟨⟨_, fun c member => Cursor.holds_of_mem_takeWhile member, ?_⟩, _, rfl⟩
  intro empty
  obtain ⟨rest, text⟩ := List.head?_eq_some_iff.mp found
  simp [Cursor.takeWhile, text, letter] at empty

theorem parsed_application {c : Char} (reads : ReadsFactors inner room)
    (found : start.unread.head? = some c) (letter : Cursor.isLetter c = true)
    (run : Yields (application inner) start value last) :
    Parsed (.primary false) room start value last ∨
      (Parsed (.factor false) (room + 1) start value last ∧ last.upcoming ≠ some '^') := by
  obtain ⟨name, middle, taken⟩ := exists_name found letter
  have passed := Cursor.passes_takeWhile start Cursor.isLetter
  have stops := @Cursor.takeWhile_stops start Cursor.isLetter
  rw [taken] at passed stops
  obtain ⟨x, rfl, within⟩ := (yields_application taken).mp run
  rcases within with ⟨ahead, within⟩ | ⟨other, within⟩
  · obtain ⟨phrase, covered, fits, rfl⟩ := covers_enclosed reads ahead within
    exact Or.inl ⟨.call name phrase, Covers.name passed @stops covered, fits, rfl⟩
  · obtain ⟨⟨opens, phrase, covered, fits, rfl⟩, noExponent⟩ := reads.parsed within
    have covered' := covered.skipSpaces_left
    cases opens with
    | true =>
      obtain ⟨others, tokens⟩ := phrase.tokens_of_opens
      rw [tokens] at covered'
      exact absurd covered'.upcoming other
    | false =>
      exact Or.inr ⟨⟨.application name phrase, Covers.name passed @stops covered',
        Nat.succ_le_succ fits, rfl⟩, noExponent⟩

theorem parsed_primary (reads : ReadsFactors inner room)
    (run : Yields (primary inner) start value last) :
    (∃ opens, Parsed (.primary opens) room start value last) ∨
      (Parsed (.factor false) (room + 1) start value last ∧ last.upcoming ≠ some '^') := by
  rcases primary_cases inner start with opening | ⟨c, found, digit⟩ | ⟨c, found, letter⟩ | refused
  · rw [Yields, primary_apply_of_parenthesis opening] at run
    obtain ⟨phrase, covered, fits, same⟩ := covers_enclosed reads opening run
    exact Or.inl ⟨true, .enclosed phrase, covered, fits, same⟩
  · rw [Yields, primary_apply_of_number found digit] at run
    exact Or.inl ⟨false, (parsed_number run).skipSpaces_left⟩
  · rw [Yields, primary_apply_of_letter found letter] at run
    rcases parsed_application reads found letter run with parsed | ⟨parsed, noExponent⟩
    · exact Or.inl ⟨false, parsed.skipSpaces_left⟩
    · exact Or.inr ⟨parsed.skipSpaces_left, noExponent⟩
  · rw [Yields, refused] at run
    exact absurd run not_yields_refuse

theorem parsed_powered (reads : ReadsFactors inner room)
    (run : Yields (powered inner) start value last) :
    (∃ opens, Parsed (.factor opens) (room + 1) start value last) ∧ last.upcoming ≠ some '^' := by
  obtain ⟨base, place, first, ends⟩ := yields_powered.mp run
  rcases parsed_primary reads first with ⟨opens, phrase, covered, fits, rfl⟩ | ⟨parsed, noExponent⟩
  · rcases ends with ⟨caret, x, second, rfl⟩ | ⟨other, rfl, rfl⟩
    · obtain ⟨⟨_, exponent, covered', fits', rfl⟩, noExponent⟩ := reads.parsed second
      have found : place.upcoming = some Symbol.caret.char := caret
      have whole := covered.between found covered'
      exact ⟨⟨opens, .power phrase exponent, whole,
        Nat.succ_le_succ (Nat.max_le.mpr ⟨fits, fits'⟩), rfl⟩, noExponent⟩
    · rw [Cursor.upcoming_skipSpaces]
      exact ⟨⟨opens, .primary phrase, covered.skipSpaces_right, Nat.succ_le_succ fits, rfl⟩, other⟩
  · -- The factor that the name applies to has taken every exponent.
    rcases ends with ⟨caret, _⟩ | ⟨other, rfl, rfl⟩
    · exact absurd caret noExponent
    · rw [Cursor.upcoming_skipSpaces]
      exact ⟨⟨false, parsed.skipSpaces_right⟩, other⟩

theorem parsed_factor_succ {tooDeep : Cursor → Fault}
    (reads : ReadsFactors (factor tooDeep room) room)
    (run : Yields (factor tooDeep (room + 1)) start value last) :
    (∃ opens, Parsed (.factor opens) (room + 1) start value last) ∧ last.upcoming ≠ some '^' := by
  by_cases plus : start.upcoming = some '+'
  · rw [Yields, factor_apply_of_plus plus] at run
    obtain ⟨⟨_, phrase, covered, fits, rfl⟩, noExponent⟩ := reads.parsed run
    have found : start.upcoming = some Sign.plus.symbol.char := plus
    exact ⟨⟨false, .signed .plus phrase, covered.symbol found, Nat.succ_le_succ fits, rfl⟩,
      noExponent⟩
  · by_cases minus : start.upcoming = some '-'
    · rw [Yields, factor_apply_of_minus minus] at run
      obtain ⟨x, inside, rfl⟩ := yields_map.mp run
      obtain ⟨⟨_, phrase, covered, fits, rfl⟩, noExponent⟩ := reads.parsed inside
      have found : start.upcoming = some Sign.minus.symbol.char := minus
      exact ⟨⟨false, .signed .minus phrase, covered.symbol found, Nat.succ_le_succ fits, rfl⟩,
        noExponent⟩
    · rw [Yields, factor_apply_of_unsigned plus minus] at run
      obtain ⟨⟨opens, parsed⟩, noExponent⟩ := parsed_powered reads run
      exact ⟨⟨opens, parsed.skipSpaces_left⟩, noExponent⟩

theorem readsFactors (tooDeep : Cursor → Fault) (room : Nat) :
    ReadsFactors (factor tooDeep room) room := by
  induction room with
  | zero => exact ⟨advances_factor tooDeep 0, fun run => absurd run not_yields_refuse⟩
  | succ room ih => exact ⟨advances_factor tooDeep (room + 1), parsed_factor_succ ih⟩

end Reckoner.Grammar
