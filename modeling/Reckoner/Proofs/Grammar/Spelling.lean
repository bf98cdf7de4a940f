import Reckoner.Proofs.Grammar.Phrase
import Reckoner.Proofs.Reading.Span

/-!
How tokens are written: in order, with spaces around them as one likes, but for the space that
keeps two names apart. What a cursor finds in front of a spelling follows from its first token.
-/
namespace Reckoner.Grammar

def Token.IsName (token : Token) : Prop := ∃ run, token = .name run

def BeginsWithName (tokens : List Token) : Prop := ∃ run others, tokens = .name run :: others

/-- The texts that write tokens: any number of spaces stand in front of each and behind the last
one, and at least one between a name and a name that follows it. -/
inductive Spells : List Token → List Char → Prop where
  | blank (count : Nat) : Spells [] (spaces count)
  | token (count : Nat) {token : Token} {tokens : List Token} {text : List Char}
      (apart : token.IsName → BeginsWithName tokens → text.head? = some ' ')
      (rest : Spells tokens text) : Spells (token :: tokens) (spaces count ++ (token.text ++ text))

theorem Symbol.char_ne_space (mark : Symbol) : mark.char ≠ ' ' := by
  cases mark <;> decide

theorem isNumberChar_of_isDigit {c : Char} (digit : c.isDigit = true) :
    Cursor.isNumberChar c = true := by
  simp [Cursor.isNumberChar, digit]

theorem Literal.isNumberChar_of_mem {literal : Literal} {c : Char} (member : c ∈ literal.text) :
    Cursor.isNumberChar c = true := by
  have digits := literal.digits
  cases part : literal.fraction with
  | none =>
    rw [part] at digits
    simp only [Literal.text, part, Option.map_none, Option.getD_none, List.append_nil] at member
    exact isNumberChar_of_isDigit (digits c (List.mem_append_left _ member))
  | some fraction =>
    rw [part] at digits
    simp only [Literal.text, part, Option.map_some, Option.getD_some, List.mem_append,
      List.mem_cons] at member
    rcases member with whole | rfl | behind
    · exact isNumberChar_of_isDigit (digits c (List.mem_append_left _ whole))
    · rfl
    · exact isNumberChar_of_isDigit (digits c (List.mem_append_right _ behind))

theorem Literal.text_ne_nil (literal : Literal) : literal.text ≠ [] := by
  intro empty
  have parts := List.append_eq_nil_iff.mp empty
  have some := literal.someDigit
  cases part : literal.fraction with
  | none => simp [part, parts.1] at some
  | some fraction => simp [part] at parts

theorem Token.text_eq_cons (token : Token) :
    ∃ c rest, token.text = c :: rest ∧ c ≠ ' ' := by
  have visible : token.text ≠ [] ∧ ∀ c ∈ token.text, c ≠ ' ' := by
    cases token with
    | symbol mark => simpa [Token.text] using mark.char_ne_space
    | number literal =>
      refine ⟨literal.text_ne_nil, ?_⟩
      intro c member blank
      subst blank
      exact absurd (literal.isNumberChar_of_mem member) (by decide)
    | name run =>
      refine ⟨run.someLetter, ?_⟩
      intro c member blank
      subst blank
      exact absurd (run.letter _ member) (by decide)
  obtain ⟨c, rest, same⟩ := List.exists_cons_of_ne_nil visible.1
  exact ⟨c, rest, same, visible.2 c (by simp [same])⟩

theorem Token.eq_symbol_of_head {token : Token} {mark : Symbol}
    (found : token.text.head? = some mark.char) : token = .symbol mark := by
  have member : mark.char ∈ token.text := List.mem_of_mem_head? found
  cases token with
  | symbol other =>
    have same : mark.char = other.char := by simpa [Token.text] using member
    cases mark <;> cases other <;> first | rfl | exact absurd same (by decide)
  | number literal =>
    have digit := literal.isNumberChar_of_mem member
    cases mark <;> exact absurd digit (by decide)
  | name run =>
    have letter := run.letter _ member
    cases mark <;> exact absurd letter (by decide)

theorem not_beginsWithName_nil : ¬BeginsWithName [] := by
  intro given
  obtain ⟨_, _, same⟩ := given
  cases same

theorem not_isName_symbol (mark : Symbol) : ¬(Token.symbol mark).IsName := by
  intro given
  obtain ⟨_, same⟩ := given
  cases same

theorem not_isName_number (literal : Literal) : ¬(Token.number literal).IsName := by
  intro given
  obtain ⟨_, same⟩ := given
  cases same

theorem not_beginsWithName_cons {token : Token} {tokens : List Token} (plain : ¬token.IsName) :
    ¬BeginsWithName (token :: tokens) := by
  intro given
  obtain ⟨run, others, same⟩ := given
  exact plain ⟨run, (List.cons.inj same).1⟩

theorem not_beginsWithName_symbol (mark : Symbol) (tokens : List Token) :
    ¬BeginsWithName (.symbol mark :: tokens) := not_beginsWithName_cons (not_isName_symbol mark)

namespace Spells

variable {tokens others : List Token} {text rest : List Char}

theorem indent (count : Nat) (spelled : Spells tokens text) :
    Spells tokens (spaces count ++ text) := by
  cases spelled with
  | blank more =>
    rw [spaces_append]
    exact .blank _
  | token more apart rest =>
    rw [← List.append_assoc, spaces_append]
    exact .token _ apart rest

theorem cons {token : Token} (plain : ¬token.IsName) (spelled : Spells tokens text) :
    Spells (token :: tokens) (token.text ++ text) :=
  .token 0 (fun name => absurd name plain) spelled

theorem name {run : Name} (spelled : Spells tokens text)
    (stops : ∀ c, text.head? = some c → Cursor.isLetter c = false) :
    Spells (.name run :: tokens) (run.letters ++ text) := by
  refine .token 0 ?_ spelled
  intro _ begins
  obtain ⟨follower, tokens, rfl⟩ := begins
  cases spelled with
  | @token count _ _ rest _ _ =>
    cases count with
    | succ count => rfl
    | zero =>
      obtain ⟨c, others, same⟩ := List.exists_cons_of_ne_nil follower.someLetter
      have letter := follower.letter c (by simp [same])
      rw [stops c (by simp [Token.text, same])] at letter
      cases letter

theorem append (first : Spells tokens text) (second : Spells others rest)
    (plain : ¬BeginsWithName others) : Spells (tokens ++ others) (text ++ rest) := by
  induction first with
  | blank count => exact second.indent count
  | @token count token tokens text apart _ ih =>
    rw [List.append_assoc, List.append_assoc]
    refine .token count ?_ ih
    intro name begins
    obtain ⟨run, more, begins⟩ := begins
    cases tokens with
    | nil => exact absurd ⟨run, more, begins⟩ plain
    | cons follower tokens =>
      have space := apart name ⟨run, tokens, by simpa using And.left (List.cons.inj begins)⟩
      rw [List.head?_append, space]
      rfl

theorem ne_nil {token : Token} (spelled : Spells (token :: tokens) text) : text ≠ [] := by
  cases spelled with
  | token count apart rest =>
    obtain ⟨c, others, same, _⟩ := token.text_eq_cons
    simp [same]

theorem split (spelled : Spells (tokens ++ others) text) :
    ∃ before after, text = before ++ after ∧ Spells tokens before ∧ Spells others after := by
  induction tokens generalizing text with
  | nil => exact ⟨[], text, rfl, .blank 0, spelled⟩
  | cons token tokens ih =>
    cases spelled with
    | token count apart spelled =>
      obtain ⟨before, after, rfl, first, second⟩ := ih spelled
      refine ⟨spaces count ++ (token.text ++ before), after, by simp, .token count ?_ first, second⟩
      intro name begins
      obtain ⟨run, more, rfl⟩ := begins
      have space := apart name ⟨run, more ++ others, rfl⟩
      obtain ⟨c, more, same⟩ := List.exists_cons_of_ne_nil first.ne_nil
      simpa [same] using space

end Spells

end Reckoner.Grammar
