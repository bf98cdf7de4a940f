/-! A place in a text: how many characters lie behind it, and the characters still unread. -/
namespace Reckoner

/-- A place in a text. Beyond the end the position may grow further while nothing is unread. -/
structure Cursor where
  position : Nat
  unread : List Char
  deriving DecidableEq, Repr

namespace Cursor

def ofText (text : List Char) : Cursor := ⟨0, text⟩

def lookahead (cursor : Cursor) : List Char := cursor.unread.take 1

def atEnd (cursor : Cursor) : Bool := cursor.unread.isEmpty

def advance (cursor : Cursor) : Cursor := ⟨cursor.position + 1, cursor.unread.drop 1⟩

def takeWhile (cursor : Cursor) (holds : Char → Bool) : List Char × Cursor :=
  let taken := cursor.unread.takeWhile holds
  (taken, ⟨cursor.position + taken.length, cursor.unread.dropWhile holds⟩)

theorem takeWhile_append (cursor : Cursor) (holds : Char → Bool) :
    (cursor.takeWhile holds).1 ++ (cursor.takeWhile holds).2.unread = cursor.unread :=
  List.takeWhile_append_dropWhile

theorem takeWhile_position (cursor : Cursor) (holds : Char → Bool) :
    (cursor.takeWhile holds).2.position = cursor.position + (cursor.takeWhile holds).1.length := rfl

theorem holds_of_mem_takeWhile {cursor : Cursor} {holds : Char → Bool} {c : Char}
    (taken : c ∈ (cursor.takeWhile holds).1) : holds c = true :=
  List.all_eq_true.mp List.all_takeWhile c taken

theorem takeWhile_stops {cursor : Cursor} {holds : Char → Bool} {c : Char}
    (next : (cursor.takeWhile holds).2.unread.head? = some c) : holds c = false := by
  have stop := List.head?_dropWhile_not holds cursor.unread
  simp only [takeWhile] at next
  rw [next] at stop
  simpa using stop

/-- Only spaces are skipped; other white space is not. -/
def skipSpaces (cursor : Cursor) : Cursor := (cursor.takeWhile (· = ' ')).2

/-- Skips spaces, then steps over the lookahead if it is the wanted text. The empty text is met at
the end, and a text of two or more characters nowhere. -/
def eat (cursor : Cursor) (wanted : List Char) : Bool × Cursor :=
  let next := cursor.skipSpaces
  if next.lookahead = wanted then (true, next.advance) else (false, next)

theorem skipSpaces_stops (cursor : Cursor) : cursor.skipSpaces.unread.head? ≠ some ' ' := by
  intro next
  have stop := takeWhile_stops next
  simp at stop

theorem eat_of_lookahead {cursor : Cursor} {wanted : List Char}
    (met : cursor.skipSpaces.lookahead = wanted) :
    cursor.eat wanted = (true, cursor.skipSpaces.advance) := by
  simp [eat, met]

theorem eat_of_ne_lookahead {cursor : Cursor} {wanted : List Char}
    (missed : cursor.skipSpaces.lookahead ≠ wanted) :
    cursor.eat wanted = (false, cursor.skipSpaces) := by
  simp [eat, missed]

theorem lookahead_eq_singleton {cursor : Cursor} {c : Char} :
    cursor.lookahead = [c] ↔ cursor.unread.head? = some c := by
  cases h : cursor.unread <;> simp [lookahead, h]

def describe (cursor : Cursor) : String :=
  match cursor.unread with
  | [] => "end of input"
  | c :: _ => String.singleton c

def isNumberChar (c : Char) : Bool := c = '.' || c.isDigit

/-- A character of a name: an ASCII letter in lower case. -/
def isLetter (c : Char) : Bool := 'a' ≤ c && c ≤ 'z'

end Cursor

end Reckoner
