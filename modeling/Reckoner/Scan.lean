import Reckoner.Fault

/-!
Steps of reading a text once from left to right. A step starts at a cursor and ends in a value with
the cursor behind it, or in a fault; the notes taken on the way are kept in both cases.
-/
namespace Reckoner

/-- Says that a name outside the table of functions was applied, and where the name starts. -/
structure Note where
  name : String
  position : Nat
  deriving DecidableEq, Repr

structure Scan.Outcome (α : Type) where
  notes : List Note
  result : Except Fault (α × Cursor)

def Scan (α : Type) : Type := Cursor → Scan.Outcome α

namespace Scan

variable {α β : Type}

def Outcome.andThen (earlier : Outcome α) (next : α → Scan β) : Outcome β :=
  match earlier with
  | ⟨notes, .error fault⟩ => ⟨notes, .error fault⟩
  | ⟨notes, .ok (value, cursor)⟩ =>
    let later := next value cursor
    ⟨notes ++ later.notes, later.result⟩

instance : Monad Scan where
  pure value := fun cursor => ⟨[], .ok (value, cursor)⟩
  bind step next := fun cursor => (step cursor).andThen next

def refuse (fault : Cursor → Fault) : Scan α := fun cursor => ⟨[], .error (fault cursor)⟩

def move (step : Cursor → α × Cursor) : Scan α := fun cursor => ⟨[], .ok (step cursor)⟩

def cursor : Scan Cursor := move fun cursor => (cursor, cursor)

def eat (c : Char) : Scan Bool := move (·.eat [c])

def takeWhile (holds : Char → Bool) : Scan (List Char) := move (·.takeWhile holds)

def note (remark : Note) : Scan Unit := fun cursor => ⟨[remark], .ok ((), cursor)⟩

def Yields (step : Scan α) (start : Cursor) (value : α) (next : Cursor) : Prop :=
  (step start).result = .ok (value, next)

theorem yields_pure {value other : α} {start next : Cursor} :
    Yields (pure value) start other next ↔ value = other ∧ start = next := by
  simp [Yields, pure]

theorem yields_bind {step : Scan α} {after : α → Scan β} {start last : Cursor} {value : β} :
    Yields (step >>= after) start value last ↔
      ∃ middle next, Yields step start middle next ∧ Yields (after middle) next value last := by
  unfold Yields
  simp only [bind]
  rcases step start with ⟨notes, result⟩
  cases result with
  | error fault => simp [Outcome.andThen]
  | ok pair =>
    obtain ⟨middle, next⟩ := pair
    constructor
    · exact fun later => ⟨middle, next, rfl, later⟩
    · rintro ⟨_, _, same, later⟩
      cases same
      exact later

theorem yields_move {step : Cursor → α × Cursor} {start next : Cursor} {value : α} :
    Yields (move step) start value next ↔ step start = (value, next) := by
  simp [Yields, move]

theorem not_yields_refuse {fault : Cursor → Fault} {start next : Cursor} {value : α} :
    ¬Yields (refuse fault) start value next := by
  simp [Yields, refuse]

def unexpected : Scan α :=
  refuse fun cursor => Fault.atCursor (.unexpected cursor.unread.head?) cursor

end Scan

end Reckoner
