import Reckoner.Proofs.Reading.Loop

/-!
The evaluator as a machine. What the productions do while they call one another is taken apart into
steps: a stack of frames says what is still to be done, and a counter says how many factors are in
progress. It goes up where a factor is entered and down where it is left, with a value or with a
fault. A step reads on, opens something or closes something; so it lowers what is left of the work.
-/
namespace Reckoner.Evaluator.Machine

inductive Production where
  | expression | term | factor
  deriving DecidableEq, Repr

inductive Level where
  | sum | product
  deriving DecidableEq, Repr

namespace Level

def operators : Level → List Operator
  | sum => additive
  | product => multiplicative

def operand : Level → Production
  | sum => .term
  | product => .factor

end Level

/-- What is still to be done with a value that is waited for. -/
inductive Frame where
  /-- To leave a factor, which was entered at a place. -/
  | factor (since : Cursor)
  /-- To look for an operator of a loop. -/
  | operator (level : Level)
  /-- To apply an operator whose left operand is known. -/
  | operand (operator : Operator) (left : Float)
  | negation
  /-- To look for an exponent. -/
  | base
  /-- To raise a base whose exponent is waited for. -/
  | exponent (base : Float)
  /-- To look for a closing parenthesis. -/
  | closing (argumentOf : Option String)
  | application (name : String) (position : Nat)
  /-- To look for the end of the text. -/
  | ending

/-- Where the factor was entered that a frame leaves. -/
def Frame.entrance? : Frame → Option Cursor
  | factor since => some since
  | _ => none

inductive Control where
  | enter (production : Production)
  /-- A factor has been counted, and nothing of it has been read. -/
  | begin
  | give (value : Float)
  | raise (fault : Fault)

structure State where
  control : Control
  frames : List Frame
  cursor : Cursor
  depth : Nat
  notes : List Note

namespace State

def entrances (state : State) : List Cursor := state.frames.filterMap Frame.entrance?

def enter (state : State) : Production → State
  | .expression =>
    { state with control := .enter .term, frames := .operator .sum :: state.frames }
  | .term => { state with control := .enter .factor, frames := .operator .product :: state.frames }
  | .factor =>
    { state with
      control := .begin, frames := .factor state.cursor :: state.frames, depth := state.depth + 1 }

def readNumber (state : State) : State :=
  let place := state.cursor.skipSpaces
  let token := (place.takeWhile Cursor.isNumberChar).1
  let behind := (place.takeWhile Cursor.isNumberChar).2
  match Numeral.decimal? token with
  | some decimal =>
    { state with
      control := .give (decimal.toFloat false), frames := .base :: state.frames, cursor := behind }
  | none =>
    { state with
      control := .raise (Fault.atCursor (.malformedNumber (String.ofList token)) place)
      cursor := behind }

def readName (state : State) : State :=
  let place := state.cursor.skipSpaces
  let name := String.ofList (place.takeWhile Cursor.isLetter).1
  let behind := (place.takeWhile Cursor.isLetter).2
  let frames := .application name place.position :: .base :: state.frames
  if behind.upcoming = some '(' then
    { state with
      control := .enter .expression, frames := .closing (some name) :: frames
      cursor := behind.skipSpaces.advance }
  else { state with control := .enter .factor, frames, cursor := behind.skipSpaces }

def refuse (state : State) : State :=
  let place := state.cursor.skipSpaces
  { state with
    control := .raise (Fault.atCursor (.unexpected place.unread.head?) place), cursor := place }

def begin (state : State) : State :=
  let behind := state.cursor.skipSpaces.advance
  match state.cursor.upcoming with
  | some '+' => { state with control := .enter .factor, cursor := behind }
  | some '-' =>
    { state with control := .enter .factor, frames := .negation :: state.frames, cursor := behind }
  | some '(' =>
    { state with
      control := .enter .expression, frames := .closing none :: .base :: state.frames
      cursor := behind }
  | some c =>
    if Cursor.isNumberChar c then state.readNumber
    else if Cursor.isLetter c then state.readName
    else state.refuse
  | none => state.refuse

def resume (state : State) (value : Float) : Frame → State
  | .factor _ => { state with control := .give value, depth := state.depth - 1 }
  | .operator level =>
    match operatorAhead level.operators state.cursor with
    | some operator =>
      { state with
        control := .enter level.operand
        frames := .operand operator value :: .operator level :: state.frames
        cursor := state.cursor.skipSpaces.advance }
    | none => { state with control := .give value, cursor := state.cursor.skipSpaces }
  | .operand operator left => { state with control := .give (operator.apply left value) }
  | .negation => { state with control := .give (Binary64.negate value) }
  | .base =>
    if state.cursor.upcoming = some '^' then
      { state with
        control := .enter .factor, frames := .exponent value :: state.frames
        cursor := state.cursor.skipSpaces.advance }
    else { state with control := .give value, cursor := state.cursor.skipSpaces }
  | .exponent base => { state with control := .give (base.pow value) }
  | .closing argumentOf =>
    if state.cursor.upcoming = some ')' then
      { state with control := .give value, cursor := state.cursor.skipSpaces.advance }
    else
      { state with
        control := .raise (Fault.atCursor (.unclosed argumentOf) state.cursor.skipSpaces)
        cursor := state.cursor.skipSpaces }
  | .application name position =>
    { state with
      control := .give ((Function.ofName name).apply value)
      notes := state.notes ++ if Function.ofName name = .unknown then [⟨name, position⟩] else [] }
  | .ending =>
    if state.cursor.atEnd then { state with control := .give value }
    else
      { state with
        control := .raise
          (Fault.atCursor (.unexpected state.cursor.unread.head?) state.cursor) }

def unwind (state : State) : Frame → State
  | .factor _ => { state with depth := state.depth - 1 }
  | _ => state

end State

def step (tooDeep : Cursor → Fault) (room : Nat) (state : State) : Option State :=
  match state.control, state.frames with
  | .enter production, _ => some (state.enter production)
  | .begin, _ =>
    some (if room < state.depth then { state with control := .raise (tooDeep state.cursor) }
      else state.begin)
  | .give value, frame :: frames => some ({ state with frames }.resume value frame)
  | .raise _, frame :: frames => some ({ state with frames }.unwind frame)
  | .give _, [] => none
  | .raise _, [] => none

def start (text : String) : State :=
  ⟨.enter .expression, [.ending], Cursor.ofText text.toList, 0, []⟩

inductive Steps (tooDeep : Cursor → Fault) (room : Nat) : Nat → State → State → Prop where
  | refl (state : State) : Steps tooDeep room 0 state state
  | step {count : Nat} {state next last : State} (taken : step tooDeep room state = some next)
      (others : Steps tooDeep room count next last) : Steps tooDeep room (count + 1) state last

/-- The end of a run, and the evaluation that it is one of. -/
inductive Ended : State → Evaluation → Prop where
  | value (x : Float) (cursor : Cursor) (depth : Nat) (notes : List Note) :
      Ended ⟨.give x, [], cursor, depth, notes⟩ ⟨notes, .ok x⟩
  | fault (fault : Fault) (cursor : Cursor) (depth : Nat) (notes : List Note) :
      Ended ⟨.raise fault, [], cursor, depth, notes⟩ ⟨notes, .error fault⟩

theorem Ended.frames_eq {state : State} {evaluation : Evaluation}
    (ended : Ended state evaluation) : state.frames = [] := by
  cases ended <;> rfl

theorem Ended.step_eq_none {tooDeep : Cursor → Fault} {room : Nat} {state : State}
    {evaluation : Evaluation} (ended : Ended state evaluation) :
    step tooDeep room state = none := by
  cases ended <;> rfl

/-! Ways from one cursor to another. -/

def Behind (first last : Cursor) : Prop := ∃ text, first.Passes text last

/-- Something other than spaces lies between two cursors. -/
def Consumed (first last : Cursor) : Prop := ∃ text, first.Passes text last ∧ ∃ c ∈ text, c ≠ ' '

section

variable {first middle last cursor : Cursor}

theorem Behind.refl (cursor : Cursor) : Behind cursor cursor := ⟨[], .nil cursor⟩

theorem Behind.trans (before : Behind first middle) (after : Behind middle last) :
    Behind first last := by
  obtain ⟨text, passed⟩ := before
  obtain ⟨more, further⟩ := after
  exact ⟨text ++ more, passed.append further⟩

theorem Behind.length_le (behind : Behind first last) :
    last.unread.length ≤ first.unread.length := by
  obtain ⟨text, passed⟩ := behind
  rw [passed.unread_eq, List.length_append]
  exact Nat.le_add_left _ _

theorem Consumed.behind (consumed : Consumed first last) : Behind first last := by
  obtain ⟨text, passed, _⟩ := consumed
  exact ⟨text, passed⟩

theorem Consumed.after (consumed : Consumed middle last) (before : Behind first middle) :
    Consumed first last := by
  obtain ⟨text, passed⟩ := before
  obtain ⟨more, further, c, member, visible⟩ := consumed
  exact ⟨text ++ more, passed.append further, c, List.mem_append_right _ member, visible⟩

theorem Consumed.before (consumed : Consumed first middle) (after : Behind middle last) :
    Consumed first last := by
  obtain ⟨text, passed, c, member, visible⟩ := consumed
  obtain ⟨more, further⟩ := after
  exact ⟨text ++ more, passed.append further, c, List.mem_append_left _ member, visible⟩

theorem Consumed.length_lt (consumed : Consumed first last) :
    last.unread.length < first.unread.length := by
  obtain ⟨text, passed, c, member, _⟩ := consumed
  have some := List.length_pos_of_mem member
  rw [passed.unread_eq, List.length_append]
  omega

theorem behind_skipSpaces (cursor : Cursor) : Behind cursor cursor.skipSpaces := by
  obtain ⟨count, passed⟩ := Cursor.passes_skipSpaces cursor
  exact ⟨_, passed⟩

theorem consumed_of_upcoming {c : Char} (found : cursor.upcoming = some c) :
    Consumed cursor cursor.skipSpaces.advance := by
  obtain ⟨count, passed⟩ := Cursor.passes_advance_of_upcoming found
  have visible : c ≠ ' ' := fun blank => cursor.upcoming_ne_space (blank ▸ found)
  exact ⟨_, passed, c, by simp, visible⟩

theorem consumed_takeWhile {holds : Char → Bool} {c : Char} (found : cursor.upcoming = some c)
    (inside : holds c = true) : Consumed cursor (cursor.skipSpaces.takeWhile holds).2 := by
  have visible : c ≠ ' ' := fun blank => cursor.upcoming_ne_space (blank ▸ found)
  obtain ⟨rest, text⟩ := List.head?_eq_some_iff.mp found
  have member : c ∈ (cursor.skipSpaces.takeWhile holds).1 := by
    simp [Cursor.takeWhile, text, inside]
  have taken : Consumed cursor.skipSpaces (cursor.skipSpaces.takeWhile holds).2 :=
    ⟨_, Cursor.passes_takeWhile _ holds, c, member, visible⟩
  exact taken.after (behind_skipSpaces cursor)

end

end Reckoner.Evaluator.Machine
