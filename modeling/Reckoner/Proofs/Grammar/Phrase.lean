import Reckoner.Binary64.Basic
import Reckoner.Cursor
import Reckoner.Function
import Reckoner.Numeral

/-!
The grammar of expressions as a type of trees. A tree knows its tokens, its value and how many
factors it holds open at once, each by recursion on the tree and without any text.
-/
namespace Reckoner.Grammar

/-- Digits with at most one point among them, and at least one digit. -/
structure Literal where
  whole : List Char
  fraction : Option (List Char)
  digits : ∀ c ∈ whole ++ fraction.getD [], c.isDigit = true
  someDigit : whole ++ fraction.getD [] ≠ []

namespace Literal

def text (literal : Literal) : List Char :=
  literal.whole ++ (literal.fraction.map ('.' :: ·)).getD []

def decimal (literal : Literal) : Decimal :=
  ⟨Numeral.ofDigits (literal.whole ++ literal.fraction.getD []),
    -((literal.fraction.getD []).length : Int)⟩

def value (literal : Literal) : Float := literal.decimal.toFloat false

def single (c : Char) (digit : c.isDigit = true) : Literal :=
  ⟨[c], none, by simpa using digit, by simp⟩

end Literal

structure Name where
  letters : List Char
  letter : ∀ c ∈ letters, Cursor.isLetter c = true
  someLetter : letters ≠ []

/-- Names outside the table of functions stand for the identity. -/
def Name.function (name : Name) : Function := Function.ofName (String.ofList name.letters)

theorem Name.function_eq_unknown_iff (name : Name) :
    name.function = .unknown ↔ String.ofList name.letters ∉ Function.knownNames := by
  constructor
  · intro outside member
    obtain ⟨function, known, named⟩ := List.mem_map.mp member
    have found : (Function.known.find? fun function =>
        function.name = String.ofList name.letters).isSome := by
      rw [List.find?_isSome]
      exact ⟨function, known, by simpa using named⟩
    obtain ⟨other, first⟩ := Option.isSome_iff_exists.mp found
    rw [Name.function, Function.ofName, first, Option.getD_some] at outside
    subst outside
    exact absurd (List.mem_of_find?_eq_some first) (by decide)
  · intro outside
    have absent : (Function.known.find? fun function =>
        function.name = String.ofList name.letters) = none := by
      rw [List.find?_eq_none]
      intro function known named
      exact outside (List.mem_map.mpr ⟨function, known, by simpa using named⟩)
    rw [Name.function, Function.ofName, absent, Option.getD_none]

inductive Symbol where
  | plus | minus | times | divide | caret | opening | closing
  deriving DecidableEq, Repr

def Symbol.char : Symbol → Char
  | plus => '+'
  | minus => '-'
  | times => '*'
  | divide => '/'
  | caret => '^'
  | opening => '('
  | closing => ')'

inductive Token where
  | symbol (mark : Symbol)
  | number (literal : Literal)
  | name (run : Name)

def Token.text : Token → List Char
  | symbol mark => [mark.char]
  | number literal => literal.text
  | name run => run.letters

inductive Sign where
  | plus | minus
  deriving DecidableEq, Repr

namespace Sign

def symbol : Sign → Symbol
  | plus => .plus
  | minus => .minus

def apply : Sign → Float → Float
  | plus, x => x
  | minus, x => Binary64.negate x

def combine : Sign → Float → Float → Float
  | plus, x, y => x + y
  | minus, x, y => x - y

end Sign

inductive Scaling where
  | times | divide
  deriving DecidableEq, Repr

namespace Scaling

def symbol : Scaling → Symbol
  | times => .times
  | divide => .divide

def combine : Scaling → Float → Float → Float
  | times, x, y => x * y
  | divide, x, y => x / y

end Scaling

/-- The kinds of phrases. Factors and primaries are told apart by whether they begin with an
opening parenthesis. -/
inductive Kind where
  | expression
  | term
  | factor (opens : Bool)
  | primary (opens : Bool)
  deriving DecidableEq, Repr

/-- The trees of the grammar. Sums and products lean to the left and powers to the right. A name
applies to an expression in parentheses, which is a primary, or to a factor that does not begin
with a parenthesis, and then an exponent is one of that factor. -/
inductive Phrase : Kind → Type where
  | term (only : Phrase .term) : Phrase .expression
  | sum (left : Phrase .expression) (sign : Sign) (right : Phrase .term) : Phrase .expression
  | factor {opens : Bool} (only : Phrase (.factor opens)) : Phrase .term
  | product {opens : Bool} (left : Phrase .term) (scaling : Scaling)
      (right : Phrase (.factor opens)) : Phrase .term
  | signed {opens : Bool} (sign : Sign) (inner : Phrase (.factor opens)) : Phrase (.factor false)
  | primary {opens : Bool} (only : Phrase (.primary opens)) : Phrase (.factor opens)
  | power {opens opens' : Bool} (base : Phrase (.primary opens))
      (exponent : Phrase (.factor opens')) : Phrase (.factor opens)
  | application (name : Name) (argument : Phrase (.factor false)) : Phrase (.factor false)
  | enclosed (inner : Phrase .expression) : Phrase (.primary true)
  | number (literal : Literal) : Phrase (.primary false)
  | call (name : Name) (argument : Phrase .expression) : Phrase (.primary false)

namespace Phrase

def tokens : {kind : Kind} → Phrase kind → List Token
  | _, term only => only.tokens
  | _, sum left sign right => left.tokens ++ .symbol sign.symbol :: right.tokens
  | _, factor only => only.tokens
  | _, product left scaling right => left.tokens ++ .symbol scaling.symbol :: right.tokens
  | _, signed sign inner => .symbol sign.symbol :: inner.tokens
  | _, primary only => only.tokens
  | _, power base exponent => base.tokens ++ .symbol .caret :: exponent.tokens
  | _, application name argument => .name name :: argument.tokens
  | _, enclosed inner => .symbol .opening :: (inner.tokens ++ [.symbol .closing])
  | _, number literal => [.number literal]
  | _, call name argument =>
      .name name :: .symbol .opening :: (argument.tokens ++ [.symbol .closing])

def value : {kind : Kind} → Phrase kind → Float
  | _, term only => only.value
  | _, sum left sign right => sign.combine left.value right.value
  | _, factor only => only.value
  | _, product left scaling right => scaling.combine left.value right.value
  | _, signed sign inner => sign.apply inner.value
  | _, primary only => only.value
  | _, power base exponent => base.value.pow exponent.value
  | _, application name argument => name.function.apply argument.value
  | _, enclosed inner => inner.value
  | _, number literal => literal.value
  | _, call name argument => name.function.apply argument.value

/-- The most factors that are open at once. -/
def nesting : {kind : Kind} → Phrase kind → Nat
  | _, term only => only.nesting
  | _, sum left _ right => max left.nesting right.nesting
  | _, factor only => only.nesting
  | _, product left _ right => max left.nesting right.nesting
  | _, signed _ inner => inner.nesting + 1
  | _, primary only => only.nesting + 1
  | _, power base exponent => max base.nesting exponent.nesting + 1
  | _, application _ argument => argument.nesting + 1
  | _, enclosed inner => inner.nesting
  | _, number _ => 0
  | _, call _ argument => argument.nesting

theorem nesting_pos {kind : Kind} (phrase : Phrase kind) (other : ∀ opens, kind ≠ .primary opens) :
    0 < phrase.nesting := by
  induction phrase with
  | term _ ih => exact ih (by simp)
  | sum _ _ _ ih _ => exact Nat.lt_of_lt_of_le (ih (by simp)) (Nat.le_max_left ..)
  | factor _ ih => exact ih (by simp)
  | product _ _ _ ih _ => exact Nat.lt_of_lt_of_le (ih (by simp)) (Nat.le_max_left ..)
  | signed _ _ _ => exact Nat.succ_pos _
  | primary _ _ => exact Nat.succ_pos _
  | power _ _ _ _ => exact Nat.succ_pos _
  | application _ _ _ => exact Nat.succ_pos _
  | enclosed _ _ => exact absurd rfl (other _)
  | number _ => exact absurd rfl (other _)
  | call _ _ _ => exact absurd rfl (other _)

theorem tokens_ne_nil {kind : Kind} (phrase : Phrase kind) : phrase.tokens ≠ [] := by
  induction phrase with
  | term _ ih => exact ih
  | factor _ ih => exact ih
  | primary _ ih => exact ih
  | _ => simp [tokens]

theorem tokens_of_opens (phrase : Phrase (.factor true)) :
    ∃ others, phrase.tokens = .symbol .opening :: others := by
  cases phrase with
  | primary only => cases only with | enclosed inner => exact ⟨_, rfl⟩
  | power base exponent => cases base with | enclosed inner => exact ⟨_, rfl⟩

theorem tokens_of_not_opens (phrase : Phrase (.factor false)) :
    ∃ token others, phrase.tokens = token :: others ∧ token ≠ .symbol .opening := by
  cases phrase with
  | signed sign inner => exact ⟨_, _, rfl, by cases sign <;> simp [Sign.symbol]⟩
  | primary only => cases only <;> exact ⟨_, _, rfl, by simp⟩
  | power base exponent => cases base <;> exact ⟨_, _, rfl, by simp⟩
  | application name argument => exact ⟨_, _, rfl, by simp⟩

theorem tokens_of_primary {opens : Bool} (phrase : Phrase (.primary opens)) :
    ∃ token others, phrase.tokens = token :: others ∧
      ∀ sign : Sign, token ≠ .symbol sign.symbol := by
  cases phrase with
  | enclosed inner => exact ⟨_, _, rfl, fun sign => by cases sign <;> simp [Sign.symbol]⟩
  | number literal => exact ⟨_, _, rfl, by simp⟩
  | call name argument => exact ⟨_, _, rfl, by simp⟩

end Phrase

end Reckoner.Grammar
