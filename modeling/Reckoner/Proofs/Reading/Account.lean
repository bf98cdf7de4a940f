import Reckoner.Proofs.Reading.Production

/-!
How a step of reading ends, together with what has been noted by then. What is known of the notes so
far is carried through two steps in a row, and through the rounds of a loop.
-/
namespace Reckoner

namespace Scan

variable {α β : Type}

/-- An outcome is as expected: in one way for a value, in another for a fault. -/
def Outcome.Ends (outcome : Outcome α) (done : List Note → α → Cursor → Prop)
    (broken : List Note → Fault → Prop) : Prop :=
  match outcome with
  | ⟨notes, .ok (value, last)⟩ => done notes value last
  | ⟨notes, .error fault⟩ => broken notes fault

variable {step : Scan α} {after : α → Scan β} {start : Cursor}
  {done done' : List Note → α → Cursor → Prop} {finished : List Note → β → Cursor → Prop}
  {broken broken' : List Note → Fault → Prop}

theorem Outcome.Ends.mono {outcome : Outcome α} (ends : outcome.Ends done broken)
    (value : ∀ notes value last, done notes value last → done' notes value last)
    (fault : ∀ notes fault, broken notes fault → broken' notes fault) :
    outcome.Ends done' broken' := by
  rcases outcome with ⟨notes, _ | ⟨x, last⟩⟩
  · exact fault _ _ ends
  · exact value _ _ _ ends

theorem Outcome.Ends.and_yields (ends : (step start).Ends done broken) :
    (step start).Ends (fun notes value last => done notes value last ∧
      Yields step start value last) broken := by
  unfold Yields
  rcases outcome : step start with ⟨notes, _ | ⟨x, last⟩⟩
  · rw [outcome] at ends
    exact ends
  · rw [outcome] at ends
    exact ⟨ends, rfl⟩

theorem Outcome.Ends.bind (first : (step start).Ends done broken)
    (later : ∀ notes value last, done notes value last →
      (after value last).Ends (fun notes' => finished (notes ++ notes'))
        (fun notes' => broken' (notes ++ notes')))
    (stop : ∀ notes fault, broken notes fault → broken' notes fault) :
    ((step >>= after) start).Ends finished broken' := by
  change ((step start).andThen after).Ends finished broken'
  generalize step start = outcome at first ⊢
  rcases outcome with ⟨notes, _ | ⟨value, last⟩⟩
  · exact stop _ _ first
  · have ends := later _ _ _ first
    simp only [Outcome.andThen]
    generalize after value last = second at ends ⊢
    rcases second with ⟨notes', _ | ⟨value', last'⟩⟩
    · exact ends
    · exact ends

theorem ends_eat {c : Char} {after : Bool → Scan β}
    (met : start.upcoming = some c → (after true start.skipSpaces.advance).Ends finished broken)
    (missed : start.upcoming ≠ some c → (after false start.skipSpaces).Ends finished broken) :
    ((eat c >>= after) start).Ends finished broken := by
  rw [eat_bind_apply]
  split
  next ahead => exact met ahead
  next other => exact missed other

end Scan

namespace Evaluator

open Scan

variable {first : Operator} {others : List Operator} {operand : Scan Float} {start : Cursor}
  {holds : List Note → Float → Cursor → Prop} {broken : List Note → Fault → Prop}

theorem ends_further (forward : Advances operand)
    (round : ∀ notes value cursor operator, holds notes value cursor →
      operatorAhead (first :: others) cursor = some operator →
      (operand cursor.skipSpaces.advance).Ends
        (fun notes' right last => holds (notes ++ notes') (operator.apply value right) last)
        (fun notes' => broken (notes ++ notes')))
    (notes : List Note) (value : Float) (cursor : Cursor) (held : holds notes value cursor) :
    (further (first :: others) operand value cursor).Ends
      (fun notes' result last => ∃ place, holds (notes ++ notes') result place ∧
        last = place.skipSpaces)
      (fun notes' => broken (notes ++ notes')) := by
  induction value, cursor using loop_induction (first :: others) forward generalizing notes with
  | round value cursor ih =>
    rw [further_apply forward]
    cases ahead : operatorAhead (first :: others) cursor with
    | none => exact ⟨cursor, by rwa [List.append_nil], rfl⟩
    | some operator =>
      refine (round _ _ _ _ held ahead).and_yields.bind ?_ fun _ _ stopped => stopped
      intro notes' right last held'
      simp only [← List.append_assoc]
      exact ih _ _ _ ahead held'.2 _ held'.1

theorem ends_chain (forward : Advances operand) (initial : (operand start).Ends holds broken)
    (round : ∀ notes value cursor operator, holds notes value cursor →
      operatorAhead (first :: others) cursor = some operator →
      (operand cursor.skipSpaces.advance).Ends
        (fun notes' right last => holds (notes ++ notes') (operator.apply value right) last)
        (fun notes' => broken (notes ++ notes'))) :
    (chain (first :: others) operand start).Ends
      (fun notes result last => ∃ place, holds notes result place ∧ last = place.skipSpaces)
      broken := by
  rw [chain_eq]
  exact initial.bind (ends_further forward round) fun _ _ stopped => stopped

end Evaluator

end Reckoner
