import Mathlib.Data.List.DropRight
import Reckoner.Proofs.Grammar.Coverage

/-!
The parentheses that a text leaves open, and the name in front of a parenthesis. A phrase closes
every parenthesis that it opens and none that stands in front of it.
-/
namespace Reckoner.Grammar

def openingsBackwards : List Char → List (List Char)
  | [] => []
  | c :: before =>
    if c = '(' then before.reverse :: openingsBackwards before
    else if c = ')' then (openingsBackwards before).tail
    else openingsBackwards before

/-- The text in front of each parenthesis that a text leaves open, that of the innermost one first.
A closing parenthesis closes the innermost one that is open. -/
def openings (text : List Char) : List (List Char) := openingsBackwards text.reverse

theorem openings_opening (text : List Char) : openings (text ++ ['(']) = text :: openings text := by
  simp [openings, openingsBackwards]

theorem openings_closing (text : List Char) :
    openings (text ++ [')']) = (openings text).tail := by
  simp [openings, openingsBackwards]

theorem openings_other {c : Char} (text : List Char) (opening : c ≠ '(') (closing : c ≠ ')') :
    openings (text ++ [c]) = openings text := by
  simp [openings, openingsBackwards, opening, closing]

def calledName (text : List Char) : List Char :=
  (text.rdropWhile (· = ' ')).rtakeWhile Cursor.isLetter

theorem calledName_spaces (text : List Char) (count : Nat) :
    calledName (text ++ spaces count) = calledName text := by
  induction count with
  | zero => rw [spaces_zero, List.append_nil]
  | succ count ih =>
    rw [← spaces_append count 1, ← List.append_assoc, ← ih]
    exact congrArg (List.rtakeWhile Cursor.isLetter) (List.rdropWhile_concat_pos _ _ ' ' rfl)

theorem calledName_other {c : Char} (text : List Char) (visible : c ≠ ' ')
    (other : Cursor.isLetter c = false) : calledName (text ++ [c]) = [] := by
  rw [calledName, List.rdropWhile_concat_neg _ _ c (by simpa using visible)]
  exact List.rtakeWhile_concat_neg _ _ c (by simp [other])

theorem calledName_letters {text letters : List Char} (present : letters ≠ [])
    (inside : ∀ c ∈ letters, Cursor.isLetter c = true)
    (stops : ∀ c, text.getLast? = some c → Cursor.isLetter c = false) :
    calledName (text ++ letters) = letters := by
  have visible : ∀ ends : text ++ letters ≠ [],
      ¬decide ((text ++ letters).getLast ends = ' ') = true := by
    intro ends blank
    rw [List.getLast_append_of_ne_nil _ present] at blank
    have letter := inside _ (List.getLast_mem present)
    rw [of_decide_eq_true blank] at letter
    exact absurd letter (by decide)
  have parts := @takeWhile_append_of_stops Cursor.isLetter letters.reverse text.reverse
    (fun c member => inside c (List.mem_reverse.mp member))
    (fun c head => stops c (by rwa [List.head?_reverse] at head))
  rw [calledName, List.rdropWhile_eq_self_iff.mpr visible, List.rtakeWhile, List.reverse_append,
    parts.1, List.reverse_reverse]

/-- A text that leaves the parentheses in front of it as they are and none of its own open. -/
def Closed (text : List Char) : Prop := ∀ read, openings (read ++ text) = openings read

namespace Closed

variable {text before after : List Char}

theorem nil : Closed [] := fun read => by rw [List.append_nil]

theorem append (first : Closed before) (second : Closed after) : Closed (before ++ after) := by
  intro read
  rw [← List.append_assoc, second, first]

theorem of_plain (plain : ∀ c ∈ text, c ≠ '(' ∧ c ≠ ')') : Closed text := by
  induction text with
  | nil => exact nil
  | cons c rest ih =>
    have here := plain c List.mem_cons_self
    have single : Closed [c] := fun read => openings_other read here.1 here.2
    exact single.append (ih fun c member => plain c (List.mem_cons_of_mem _ member))

theorem spaces (count : Nat) : Closed (spaces count) := by
  apply of_plain
  intro c member
  rw [eq_space_of_mem_spaces member]
  decide

theorem enclosed (inside : Closed text) : Closed ('(' :: (text ++ [')'])) := by
  intro read
  have parts : read ++ '(' :: (text ++ [')']) = read ++ ['('] ++ text ++ [')'] := by simp
  rw [parts, openings_closing, inside, openings_opening]
  rfl

end Closed

theorem Token.closed {token : Token} (plain : token ≠ .symbol .opening)
    (plain' : token ≠ .symbol .closing) : Closed token.text := by
  apply Closed.of_plain
  intro c member
  cases token with
  | symbol mark =>
    have same : c = mark.char := by simpa [Token.text] using member
    subst same
    cases mark <;> simp_all [Symbol.char]
  | number literal =>
    have digit := literal.isNumberChar_of_mem member
    constructor <;> intro same <;> subst same <;> exact absurd digit (by decide)
  | name run =>
    have letter := run.letter c member
    constructor <;> intro same <;> subst same <;> exact absurd letter (by decide)

namespace Spells

variable {token : Token} {tokens : List Token} {text : List Char}

theorem closed_cons (spelled : Spells (token :: tokens) text) (plain : token ≠ .symbol .opening)
    (plain' : token ≠ .symbol .closing) (others : ∀ rest, Spells tokens rest → Closed rest) :
    Closed text := by
  cases spelled with
  | token count _ rest =>
    exact (Closed.spaces count).append ((Token.closed plain plain').append (others _ rest))

theorem closed_enclosed
    (spelled : Spells (.symbol .opening :: (tokens ++ [.symbol .closing])) text)
    (inside : ∀ rest, Spells tokens rest → Closed rest) : Closed text := by
  cases spelled with
  | token count _ rest =>
    obtain ⟨before, after, rfl, first, second⟩ := rest.split
    cases second with
    | token count' _ rest' =>
      cases rest' with
      | blank count'' =>
        have within := ((inside _ first).append (Closed.spaces count')).enclosed
        have whole := (Closed.spaces count).append (within.append (Closed.spaces count''))
        simpa [Token.text, Symbol.char] using whole

end Spells

theorem Phrase.closed {kind : Kind} (phrase : Phrase kind) {text : List Char}
    (spelled : Spells phrase.tokens text) : Closed text := by
  induction phrase generalizing text with
  | term _ ih => exact ih spelled
  | factor _ ih => exact ih spelled
  | primary _ ih => exact ih spelled
  | sum _ sign _ left right =>
    obtain ⟨before, after, rfl, first, second⟩ := spelled.split
    refine (left first).append (second.closed_cons ?_ ?_ fun _ => right) <;>
      cases sign <;> simp [Sign.symbol]
  | product _ scaling _ left right =>
    obtain ⟨before, after, rfl, first, second⟩ := spelled.split
    refine (left first).append (second.closed_cons ?_ ?_ fun _ => right) <;>
      cases scaling <;> simp [Scaling.symbol]
  | signed sign _ inner =>
    refine spelled.closed_cons ?_ ?_ (fun _ => inner) <;> cases sign <;> simp [Sign.symbol]
  | power _ _ base exponent =>
    obtain ⟨before, after, rfl, first, second⟩ := spelled.split
    exact (base first).append (second.closed_cons (by simp) (by simp) fun _ => exponent)
  | application _ _ argument => exact spelled.closed_cons (by simp) (by simp) fun _ => argument
  | enclosed _ inner => exact spelled.closed_enclosed fun _ => inner
  | number _ =>
    refine spelled.closed_cons (by simp) (by simp) fun rest blank => ?_
    cases blank with
    | blank count => exact Closed.spaces count
  | call _ _ argument =>
    refine spelled.closed_cons (by simp) (by simp) fun rest called => ?_
    exact called.closed_enclosed fun _ => argument

end Reckoner.Grammar
