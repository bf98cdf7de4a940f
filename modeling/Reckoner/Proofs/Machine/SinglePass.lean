import Reckoner.Proofs.Machine.Progress
import Reckoner.Proofs.Machine.Simulation

/-!
An evaluation is a single pass over its text. Its run comes to an end after a number of steps that
the length of the text bounds, never goes back, and counts the factors in progress as it should,
whatever the limit on them is.
-/
namespace Reckoner.Evaluator.Machine

open Scan

variable {tooDeep : Cursor → Fault} {room count : Nat} {state last : State} {text : String}

theorem consumed_of_yields {left : Nat} {production : Production} {start last : Cursor}
    {value : Float} (run : Yields (production.reading tooDeep left) start value last) :
    Consumed start last := by
  have comes := performs_reading tooDeep (Nat.zero_add left) production [] start []
  unfold Comes at comes
  unfold Yields at run
  generalize production.reading tooDeep left start = outcome at comes run
  rcases outcome with ⟨notes, _ | ⟨x, place⟩⟩
  · cases run
  · cases run
    obtain ⟨count, reached⟩ := comes
    have reads : State.Reads start ⟨.enter production, [], start, 0, []⟩ :=
      ⟨Behind.refl _, nofun⟩
    exact (reached.keeps Move.reads reads).consumed value rfl

theorem Steps.position_le (run : Steps tooDeep room count (start text) state) :
    state.cursor.position ≤ text.length := by
  obtain ⟨read, passed⟩ := run.behind
  obtain ⟨whole, position⟩ := Cursor.split_of_passes passed
  rw [position, ← String.length_toList, whole, List.length_append]
  exact Nat.le_add_right _ _

variable (tooDeep) in
/-- A production that is entered is left with the counter as it was, and with a value only if it has
consumed something. -/
theorem exists_call_of_enter {production : Production} (counted : state.Counted room)
    (entered : state.control = .enter production) :
    ∃ last, Call tooDeep room state.frames state last ∧ last.depth = state.depth ∧
      ((∃ value, last.control = .give value ∧ Consumed state.cursor last.cursor) ∨
        ∃ fault, last.control = .raise fault) := by
  obtain ⟨last, call⟩ := exists_call tooDeep room entered
  refine ⟨last, call, call.depth_eq counted, ?_⟩
  have returned := call.frames_eq.2
  cases control : last.control with
  | enter production =>
    rw [control] at returned
    exact returned.elim
  | begin =>
    rw [control] at returned
    exact returned.elim
  | give value => exact Or.inl ⟨value, rfl, call.consumed entered control⟩
  | raise fault => exact Or.inr ⟨fault, rfl⟩

/-- The run of an evaluation comes to its end, and in each of its states: the steps so far are
bounded by the length of the text; the cursor has not gone back and lies within the text; the
counter is the number of factors in progress and exceeds the limit by one at most; something has
been consumed between one of these factors and the next, and before an operand behind an operator;
and a production that is entered is left with the frames and the counter as they were. -/
theorem run_singlePass (limit : Int) (stack : Nat) (text : String) :
    let tooDeep := nestingFault limit stack
    let room := min limit.toNat stack
    (∃ count last, Steps tooDeep room count (start text) last ∧ Ended last (run limit stack text)) ∧
      (∀ count state, Steps tooDeep room count (start text) state →
        count ≤ 13 * text.length + 10 ∧
          Behind (Cursor.ofText text.toList) state.cursor ∧
          state.cursor.position ≤ text.length ∧
          state.depth = state.entrances.length ∧
          (state.depth : Int) ≤ max limit 0 + 1 ∧
          state.Nested ∧
          (∀ next, step tooDeep room state = some next → Behind state.cursor next.cursor ∧
            ∀ value production, state.control = .give value → next.control = .enter production →
              Consumed state.cursor next.cursor) ∧
          ∀ production, state.control = .enter production →
            ∃ last, Call tooDeep room state.frames state last ∧ last.frames = state.frames ∧
              last.depth = state.depth ∧
              ((∃ value, last.control = .give value ∧ Consumed state.cursor last.cursor) ∨
                ∃ fault, last.control = .raise fault)) ∧
      ∀ left production start value last,
        Yields (Production.reading tooDeep left production) start value last →
          Consumed start last := by
  intro tooDeep room
  refine ⟨exists_ended limit stack text, fun count state run => ?_,
    fun _ _ _ _ _ => consumed_of_yields⟩
  have counted := run.keeps Move.counted (counted_start text)
  have bound := run.add_work_le
  rw [work_start] at bound
  have within : room ≤ limit.toNat := Nat.min_le_left _ _
  have deepest := counted.depth_le
  refine ⟨by omega, run.behind, run.position_le, counted.depth_eq, by omega,
    run.keeps Move.nested (nested_start text), fun next taken => ?_, fun production entered => ?_⟩
  · have move := move_of_step taken
    exact ⟨move.behind, fun _ _ gave enters => move.consumed_of_enter gave enters⟩
  · obtain ⟨last, call, depth, ends⟩ := exists_call_of_enter tooDeep counted entered
    exact ⟨last, call, call.frames_eq.1, depth, ends⟩

/-- With two factors in progress where one is allowed, the run ends in a fault, and the counter is
back at zero. -/
theorem run_singlePass_tooDeep : ∃ count last, count ≤ 49 ∧
    Steps (nestingFault 1 1000) 1 count (start "--1") last ∧ Ended last (run 1 1000 "--1") ∧
      last.cursor.position ≤ 3 ∧ last.depth = 0 := by
  obtain ⟨⟨count, last, reached, ended⟩, states, _⟩ := run_singlePass 1 1000 "--1"
  obtain ⟨bound, _, within, depth, _⟩ := states count last reached
  refine ⟨count, last, bound, reached, ended, within, ?_⟩
  rw [depth, State.entrances, ended.frames_eq]
  rfl

end Reckoner.Evaluator.Machine
