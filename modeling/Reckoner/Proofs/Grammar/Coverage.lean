import Reckoner.Proofs.Grammar.Spelling

/-!
Spellings at cursors. In front of a spelling a cursor finds its first token; and what a cursor has
passed is a spelling of the tokens that were found one after the other.
-/
namespace Reckoner.Grammar

open Cursor (Passes)

variable {tokens others : List Token} {text : List Char} {start middle last : Cursor}

namespace Spells

theorem ahead {token : Token} (spelled : Spells (token :: tokens) text)
    (passed : start.Passes text last) :
    start.upcoming = token.text.head? ∧
      ∃ rest, start.skipSpaces.Passes (token.text ++ rest) last ∧ Spells tokens rest ∧
        (token.IsName → BeginsWithName tokens → rest.head? = some ' ') := by
  cases spelled with
  | @token count token tokens rest apart spelled =>
    obtain ⟨c, others, same, visible⟩ := token.text_eq_cons
    rw [same, List.cons_append] at passed
    obtain ⟨found, whole, _⟩ := Cursor.upcoming_of_passes passed visible
    refine ⟨by rw [found, same]; rfl, rest, ?_, spelled, apart⟩
    rw [same]
    exact whole

theorem skipSpaces (spelled : Spells tokens text) (present : tokens ≠ [])
    (passed : start.Passes text last) :
    ∃ rest, start.skipSpaces.Passes rest last ∧ Spells tokens rest := by
  obtain ⟨token, others, rfl⟩ := List.exists_cons_of_ne_nil present
  obtain ⟨_, rest, whole, spelled, apart⟩ := spelled.ahead passed
  exact ⟨_, whole, .token 0 apart spelled⟩

theorem unsigned_ahead {opens : Bool} {phrase : Phrase (.primary opens)}
    (spelled : Spells phrase.tokens text) (passed : start.Passes text last) (sign : Sign) :
    start.upcoming ≠ some sign.symbol.char := by
  obtain ⟨token, others, tokens, other⟩ := phrase.tokens_of_primary
  rw [tokens] at spelled
  obtain ⟨found, _⟩ := spelled.ahead passed
  intro ahead
  rw [found] at ahead
  exact other sign (Token.eq_symbol_of_head ahead)

theorem symbol_ahead {mark : Symbol} (spelled : Spells (.symbol mark :: tokens) text)
    (passed : start.Passes text last) :
    start.upcoming = some mark.char ∧
      ∃ rest, start.skipSpaces.advance.Passes rest last ∧ Spells tokens rest := by
  obtain ⟨found, rest, whole, spelled, _⟩ := spelled.ahead passed
  obtain ⟨next, one, further⟩ := whole.split
  have step := Cursor.passes_advance found
  have same : start.skipSpaces.advance = next := step.last_eq one
  exact ⟨found, rest, same ▸ further, spelled⟩

theorem head_not_letter (spelled : Spells tokens text) (present : tokens ≠ [])
    (apart : BeginsWithName tokens → text.head? = some ' ') :
    ∃ c, text.head? = some c ∧ Cursor.isLetter c = false := by
  cases spelled with
  | blank => exact absurd rfl present
  | @token count token tokens rest _ _ =>
    cases count with
    | succ count => exact ⟨' ', rfl, by decide⟩
    | zero =>
      cases token with
      | symbol mark => exact ⟨mark.char, rfl, by cases mark <;> decide⟩
      | number literal =>
        obtain ⟨c, others, same, _⟩ := (Token.number literal).text_eq_cons
        refine ⟨c, by rw [same]; rfl, Cursor.not_isLetter_of_isNumberChar ?_⟩
        apply literal.isNumberChar_of_mem
        rw [show literal.text = c :: others from same]
        exact List.mem_cons_self
      | name run =>
        have space := apart ⟨run, tokens, rfl⟩
        obtain ⟨c, others, same, visible⟩ := (Token.name run).text_eq_cons
        rw [same] at space
        exact absurd (Option.some.inj space) visible

theorem name_ahead {run : Name} (spelled : Spells (.name run :: tokens) text)
    (passed : start.Passes text last) (present : tokens ≠ []) :
    start.upcoming = run.letters.head? ∧
      ∃ middle rest, start.skipSpaces.takeWhile Cursor.isLetter = (run.letters, middle) ∧
        middle.Passes rest last ∧ Spells tokens rest := by
  obtain ⟨found, rest, whole, spelled, apart⟩ := spelled.ahead passed
  obtain ⟨middle, named, further⟩ := whole.split
  obtain ⟨c, head, other⟩ := spelled.head_not_letter present (apart ⟨run, rfl⟩)
  refine ⟨found, middle, rest, ?_, further, spelled⟩
  apply Cursor.takeWhile_of_passes _ named run.letter
  intro c' head'
  rw [further.unread_eq, List.head?_append, head] at head'
  cases head'
  exact other

theorem number_ahead {literal : Literal} (spelled : Spells [.number literal] text)
    (passed : start.Passes text last)
    (stops : ∀ c, last.unread.head? = some c → Cursor.isNumberChar c = false) :
    start.upcoming = literal.text.head? ∧
      ∃ middle, start.skipSpaces.takeWhile Cursor.isNumberChar = (literal.text, middle) ∧
        middle.skipSpaces = last.skipSpaces := by
  obtain ⟨found, rest, whole, spelled, _⟩ := spelled.ahead passed
  obtain ⟨middle, read, further⟩ := whole.split
  cases spelled with
  | blank count =>
    refine ⟨found, middle, ?_, Cursor.skipSpaces_of_passes further⟩
    apply Cursor.takeWhile_of_passes _ read fun c member => literal.isNumberChar_of_mem member
    intro c head
    rw [further.unread_eq] at head
    cases count with
    | zero => exact stops c head
    | succ count =>
      cases head
      decide

end Spells

/-- The text between two cursors spells the tokens. -/
def Covers (tokens : List Token) (start last : Cursor) : Prop :=
  ∃ text, start.Passes text last ∧ Spells tokens text

namespace Covers

theorem append (first : Covers tokens start middle) (second : Covers others middle last)
    (plain : ¬BeginsWithName others) : Covers (tokens ++ others) start last := by
  obtain ⟨before, passed, spelled⟩ := first
  obtain ⟨after, passed', spelled'⟩ := second
  exact ⟨_, passed.append passed', spelled.append spelled' plain⟩

theorem skipSpaces_left (covered : Covers tokens start.skipSpaces last) :
    Covers tokens start last := by
  obtain ⟨text, passed, spelled⟩ := covered
  obtain ⟨count, blank⟩ := Cursor.passes_skipSpaces start
  exact ⟨_, blank.append passed, spelled.indent count⟩

theorem skipSpaces_right (covered : Covers tokens start last) :
    Covers tokens start last.skipSpaces := by
  obtain ⟨text, passed, spelled⟩ := covered
  obtain ⟨count, blank⟩ := Cursor.passes_skipSpaces last
  have whole := spelled.append (.blank count) not_beginsWithName_nil
  rw [List.append_nil] at whole
  exact ⟨_, passed.append blank, whole⟩

theorem upcoming {token : Token} (covered : Covers (token :: tokens) start last) :
    start.upcoming = token.text.head? := by
  obtain ⟨text, passed, spelled⟩ := covered
  exact (spelled.ahead passed).1

theorem nil (start : Cursor) : Covers [] start start := ⟨[], Passes.nil start, .blank 0⟩

theorem symbol {mark : Symbol} (found : start.upcoming = some mark.char)
    (covered : Covers tokens start.skipSpaces.advance last) :
    Covers (.symbol mark :: tokens) start last := by
  obtain ⟨text, passed, spelled⟩ := covered
  apply skipSpaces_left
  exact ⟨_, (Cursor.passes_advance found).append passed, spelled.cons (not_isName_symbol mark)⟩

theorem between {mark : Symbol} (covered : Covers tokens start middle)
    (found : middle.upcoming = some mark.char)
    (further : Covers others middle.skipSpaces.advance last) :
    Covers (tokens ++ .symbol mark :: others) start last :=
  covered.append (further.symbol found) (not_beginsWithName_symbol _ _)

theorem number {literal : Literal} (passed : start.Passes literal.text last) :
    Covers [.number literal] start last := by
  refine ⟨_, passed, ?_⟩
  have spelled := (Spells.blank 0).cons (not_isName_number literal)
  simpa [Token.text] using spelled

theorem name {run : Name} (passed : start.Passes run.letters middle)
    (stops : ∀ c, middle.unread.head? = some c → Cursor.isLetter c = false)
    (covered : Covers tokens middle last) : Covers (.name run :: tokens) start last := by
  obtain ⟨text, passed', spelled⟩ := covered
  refine ⟨_, passed.append passed', spelled.name fun c head => stops c ?_⟩
  rw [passed'.unread_eq, List.head?_append, head]
  rfl

end Covers

end Reckoner.Grammar
