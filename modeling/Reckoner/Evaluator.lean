import Reckoner.Function
import Reckoner.Numeral
import Reckoner.Scan
import Reckoner.Settings
import Reckoner.Value.Basic

/-!
Evaluation of an expression while it is read, in one pass.

    expression := term (('+' | '-') term)*
    term       := factor (('*' | '/') factor)*
    factor     := '+' factor
                | '-' factor
                | '(' expression ')' ['^' factor]
                | number ['^' factor]
                | name '(' expression ')' ['^' factor]
                | name factor ['^' factor]

Every factor inside a factor uses up one unit of room, so the room bounds the recursion.
-/
namespace Reckoner.Evaluator

structure Operator where
  symbol : Char
  apply : Float → Float → Float

def additive : List Operator := [⟨'+', (· + ·)⟩, ⟨'-', (· - ·)⟩]

def multiplicative : List Operator := [⟨'*', (· * ·)⟩, ⟨'/', (· / ·)⟩]

def operator? : List Operator → Scan (Option Operator)
  | [] => pure none
  | operator :: others => do
    if ← Scan.eat operator.symbol then return some operator else operator? others

/-- Further operands, each behind an operator, applied from left to right. Every operator is a
character of its own, so one round for each unread character is enough. -/
def chainFrom (operators : List Operator) (operand : Scan Float) :
    (rounds : List Char) → Float → Scan Float
  | [], value => pure value
  | _ :: rounds, value => do
    match ← operator? operators with
    | some operator => chainFrom operators operand rounds (operator.apply value (← operand))
    | none => pure value

def chain (operators : List Operator) (operand : Scan Float) : Scan Float := do
  let first ← operand
  let cursor ← Scan.cursor
  chainFrom operators operand cursor.unread first

def term (factor : Scan Float) : Scan Float := chain multiplicative factor

def expression (factor : Scan Float) : Scan Float := chain additive (term factor)

/-- An expression up to its closing parenthesis; the opening one has been read. -/
def enclosed (factor : Scan Float) (argumentOf : Option String) : Scan Float := do
  let value ← expression factor
  if ← Scan.eat ')' then return value else Scan.refuse (Fault.atCursor (.unclosed argumentOf))

/-- A run of digits and points; a malformed one is reported at its start. -/
def number : Scan Float := do
  let start ← Scan.cursor
  let token ← Scan.takeWhile Cursor.isNumberChar
  match Numeral.decimal? token with
  | some value => return value.toFloat false
  | none => Scan.refuse fun _ => Fault.atCursor (.malformedNumber (String.ofList token)) start

def application (factor : Scan Float) : Scan Float := do
  let start ← Scan.cursor
  let name := String.ofList (← Scan.takeWhile Cursor.isLetter)
  let argument ← if ← Scan.eat '(' then enclosed factor (some name) else factor
  let function := Function.ofName name
  if function = .unknown then Scan.note ⟨name, start.position⟩
  return function.apply argument

/-- What an exponent may follow. -/
def primary (factor : Scan Float) : Scan Float := do
  if ← Scan.eat '(' then enclosed factor none
  else
    let cursor ← Scan.cursor
    match cursor.unread with
    | c :: _ =>
      if Cursor.isNumberChar c then number
      else if Cursor.isLetter c then application factor
      else Scan.unexpected
    | [] => Scan.unexpected

/-- A factor with room for `room` factors, itself included. Without room it is refused before
anything of it is read, leading spaces included. -/
def factor (tooDeep : Cursor → Fault) : (room : Nat) → Scan Float
  | 0 => Scan.refuse tooDeep
  | room + 1 => do
    let inner := factor tooDeep room
    if ← Scan.eat '+' then inner
    else if ← Scan.eat '-' then return Binary64.negate (← inner)
    else
      let base ← primary inner
      if ← Scan.eat '^' then return base.pow (← inner) else return base

def whole (tooDeep : Cursor → Fault) (room : Nat) : Scan Float := do
  let value ← expression (factor tooDeep room)
  let cursor ← Scan.cursor
  if cursor.atEnd then return value else Scan.unexpected

/-- The fault of a factor without room: the limit is named unless the stack ends first. -/
def nestingFault (limit : Int) (stack : Nat) (cursor : Cursor) : Fault :=
  if (stack : Int) < limit then ⟨.stackExhausted, some cursor.position, none⟩
  else if Numeral.isWritable limit then Fault.atCursor (.tooDeep limit) cursor
  else Fault.ofInput .unwritableLimit

structure Evaluation where
  notes : List Note
  result : Except Fault Float

/-- Evaluates a text with at most `limit` factors open at once, and at most as many as there is room
for on the stack. -/
def run (limit : Int) (stack : Nat) (text : String) : Evaluation :=
  let outcome :=
    whole (nestingFault limit stack) (min limit.toNat stack) (Cursor.ofText text.toList)
  ⟨outcome.notes, outcome.result.map (·.1)⟩

def accept (maxLength : Int) : Value → Except Fault String
  | .text content =>
    if 0 < maxLength ∧ maxLength < content.length then
      .error (Fault.ofInput (.tooLong maxLength))
    else .ok content
  | other => .error (Fault.ofInput (.wrongKind other.kindName))

/-- Evaluates a value within bounds; a limit of its own replaces their limit on open factors. -/
def evaluate (bounds : Bounds) (value : Value) (limit : Option Int) : Evaluation :=
  match accept bounds.maxLength value with
  | .error fault => ⟨[], .error fault⟩
  | .ok text => run (limit.getD bounds.maxDepth) bounds.stack text

end Reckoner.Evaluator
