import Reckoner.Proofs.Reading.Span
import Reckoner.Scan

/-!
What one step of reading does at one cursor: that it ends in a fault, that it only moves forward,
and how two steps in a row behave once the first one is known.
-/
namespace Reckoner.Scan

variable {α β : Type}

def Fails (step : Scan α) (start : Cursor) (fault : Fault) : Prop :=
  (step start).result = .error fault

/-- A fault names the place where a step stopped, or none. -/
def StopsAt (fault : Fault) (stop : Cursor) : Prop :=
  ∀ position, fault.position = some position → position = stop.position

theorem stopsAt_atCursor (cause : Cause) (stop : Cursor) :
    StopsAt (Fault.atCursor cause stop) stop :=
  fun _ named => (Option.some.inj named).symm

theorem yields_or_fails (step : Scan α) (start : Cursor) :
    (∃ value last, Yields step start value last) ∨ ∃ fault, Fails step start fault := by
  unfold Yields Fails
  cases (step start).result with
  | error fault => exact Or.inr ⟨fault, rfl⟩
  | ok pair => exact Or.inl ⟨pair.1, pair.2, rfl⟩

theorem Yields.unique {step : Scan α} {start first second : Cursor} {value other : α}
    (one : Yields step start value first) (two : Yields step start other second) :
    value = other ∧ first = second := by
  have same := one.symm.trans two
  simpa using same

theorem Yields.not_fails {step : Scan α} {start last : Cursor} {value : α} {fault : Fault}
    (run : Yields step start value last) : ¬Fails step start fault := by
  intro failed
  have same := run.symm.trans failed
  cases same

theorem Yields.result_bind {step : Scan α} {after : α → Scan β} {start middle : Cursor} {value : α}
    (run : Yields step start value middle) :
    ((step >>= after) start).result = (after value middle).result := by
  have outcome : step start = ⟨(step start).notes, .ok (value, middle)⟩ := by
    rw [← show (step start).result = .ok (value, middle) from run]
  change ((step start).andThen after).result = _
  rw [outcome]
  rfl

theorem fails_bind {step : Scan α} {after : α → Scan β} {start : Cursor} {fault : Fault} :
    Fails (step >>= after) start fault ↔
      Fails step start fault ∨
        ∃ value middle, Yields step start value middle ∧ Fails (after value) middle fault := by
  rcases yields_or_fails step start with ⟨value, middle, run⟩ | ⟨other, failed⟩
  · rw [Fails, run.result_bind, ← Fails]
    constructor
    · exact fun later => Or.inr ⟨value, middle, run, later⟩
    · intro given
      rcases given with first | ⟨other, place, again, later⟩
      · exact absurd first run.not_fails
      · obtain ⟨rfl, rfl⟩ := run.unique again
        exact later
  · have outcome : step start = ⟨(step start).notes, .error other⟩ := by
      rw [← show (step start).result = .error other from failed]
    have whole : ((step >>= after) start).result = .error other := by
      change ((step start).andThen after).result = _
      rw [outcome]
      rfl
    constructor
    · intro later
      have same : other = fault := Except.error.inj (whole.symm.trans later)
      exact Or.inl (same ▸ failed)
    · intro given
      rcases given with first | ⟨value, place, run, _⟩
      · have same : other = fault := Except.error.inj (failed.symm.trans first)
        exact same ▸ whole
      · exact absurd failed run.not_fails

theorem not_fails_pure {value : α} {start : Cursor} {fault : Fault} :
    ¬Fails (pure value) start fault := by
  simp [Fails, pure]

theorem fails_refuse {cause : Cursor → Fault} {start : Cursor} {fault : Fault} :
    Fails (refuse cause : Scan α) start fault ↔ cause start = fault := by
  simp [Fails, refuse]

theorem cursor_bind_apply (after : Cursor → Scan β) (start : Cursor) :
    (cursor >>= after) start = after start start := rfl

theorem takeWhile_bind_apply (holds : Char → Bool) (after : List Char → Scan β) (start : Cursor) :
    (takeWhile holds >>= after) start =
      after (start.takeWhile holds).1 (start.takeWhile holds).2 := rfl

theorem eat_bind_apply (c : Char) (after : Bool → Scan β) (start : Cursor) :
    (eat c >>= after) start =
      if start.upcoming = some c then after true start.skipSpaces.advance
      else after false start.skipSpaces := by
  have step : (eat c >>= after) start = after (start.eat [c]).1 (start.eat [c]).2 := rfl
  rw [step, Cursor.eat_eq]
  split <;> rfl

theorem bind_apply_congr {step : Scan α} {first second : α → Scan β} {start : Cursor}
    (same : ∀ value middle, Yields step start value middle →
      first value middle = second value middle) :
    (step >>= first) start = (step >>= second) start := by
  change (step start).andThen first = (step start).andThen second
  rcases outcome : step start with ⟨notes, result⟩
  cases result with
  | error fault => rfl
  | ok pair =>
    have run : Yields step start pair.1 pair.2 := by rw [Yields, outcome]
    simp only [Outcome.andThen, same pair.1 pair.2 run]

def Advances (step : Scan α) : Prop :=
  ∀ start value last, Yields step start value last → ∃ text, start.Passes text last

theorem advances_pure (value : α) : Advances (pure value) := by
  intro start other last run
  obtain ⟨_, rfl⟩ := yields_pure.mp run
  exact ⟨[], Cursor.Passes.nil start⟩

theorem advances_refuse (cause : Cursor → Fault) : Advances (refuse cause : Scan α) :=
  fun _ _ _ run => absurd run not_yields_refuse

theorem advances_cursor : Advances cursor := by
  intro start value last run
  have same := yields_move.mp run
  cases same
  exact ⟨[], Cursor.Passes.nil start⟩

theorem advances_eat (c : Char) : Advances (eat c) := by
  intro start value last run
  have same := (Cursor.eat_eq start c).symm.trans (yields_move.mp run)
  by_cases ahead : start.upcoming = some c
  · rw [if_pos ahead] at same
    cases same
    obtain ⟨count, passed⟩ := Cursor.passes_advance_of_upcoming ahead
    exact ⟨_, passed⟩
  · rw [if_neg ahead] at same
    cases same
    obtain ⟨count, passed⟩ := Cursor.passes_skipSpaces start
    exact ⟨_, passed⟩

theorem Advances.bind {step : Scan α} {after : α → Scan β} (first : Advances step)
    (later : ∀ value, Advances (after value)) : Advances (step >>= after) := by
  intro start value last run
  obtain ⟨middle, place, one, two⟩ := yields_bind.mp run
  obtain ⟨before, passed⟩ := first _ _ _ one
  obtain ⟨behind, further⟩ := later _ _ _ _ two
  exact ⟨_, passed.append further⟩

theorem Advances.ite {yes no : Scan α} {condition : Prop} [Decidable condition]
    (first : Advances yes) (second : Advances no) : Advances (if condition then yes else no) := by
  split
  · exact first
  · exact second

end Reckoner.Scan
