import Reckoner.Evaluator
import Reckoner.Proofs.Reading.Step

/-!
The loop over operands joined by operators of one precedence, without its count of rounds: the
states that it reaches, and how it ends from one of them.
-/
namespace Reckoner.Evaluator

open Scan

def operatorAhead (operators : List Operator) (cursor : Cursor) : Option Operator :=
  operators.find? fun operator => cursor.upcoming = some operator.symbol

theorem operatorAhead_congr {operators : List Operator} {first second : Cursor}
    (same : first.upcoming = second.upcoming) :
    operatorAhead operators first = operatorAhead operators second := by
  simp only [operatorAhead, same]

theorem operatorAhead_skipSpaces (operators : List Operator) (cursor : Cursor) :
    operatorAhead operators cursor.skipSpaces = operatorAhead operators cursor :=
  operatorAhead_congr cursor.upcoming_skipSpaces

theorem upcoming_of_operatorAhead {operators : List Operator} {cursor : Cursor}
    {operator : Operator} (ahead : operatorAhead operators cursor = some operator) :
    cursor.upcoming = some operator.symbol := by
  simpa using List.find?_some ahead

theorem operatorAhead_of_end {operators : List Operator} {cursor : Cursor}
    (ended : cursor.unread = []) : operatorAhead operators cursor = none := by
  apply List.find?_eq_none.mpr
  intro operator _
  have nothing : cursor.upcoming = none := by
    rw [Cursor.upcoming_of_head (by simp [ended]), ended]
    rfl
  simp [nothing]

theorem operator?_apply (first : Operator) (others : List Operator) (start : Cursor) :
    operator? (first :: others) start =
      match operatorAhead (first :: others) start with
      | some operator => ⟨[], .ok (some operator, start.skipSpaces.advance)⟩
      | none => ⟨[], .ok (none, start.skipSpaces)⟩ := by
  induction others generalizing first start with
  | nil =>
    rw [operator?, eat_bind_apply]
    by_cases ahead : start.upcoming = some first.symbol
    · simp [operatorAhead, ahead, pure]
    · simp [operatorAhead, ahead, operator?, pure]
  | cons second others ih =>
    rw [operator?, eat_bind_apply]
    by_cases ahead : start.upcoming = some first.symbol
    · simp [operatorAhead, ahead, pure]
    · have same : operatorAhead (first :: second :: others) start =
          operatorAhead (second :: others) start := by
        simp [operatorAhead, List.find?_cons, ahead]
      rw [if_neg ahead, same]
      simp only [Bool.false_eq_true, ↓reduceIte]
      rw [ih, operatorAhead_skipSpaces, Cursor.skipSpaces_skipSpaces]

section

variable {first : Operator} {others : List Operator} {operand : Scan Float}

theorem chainFrom_cons_apply (round : Char) (rounds : List Char) (value : Float)
    (cursor : Cursor) :
    chainFrom (first :: others) operand (round :: rounds) value cursor =
      match operatorAhead (first :: others) cursor with
      | some operator =>
        (operand >>= fun right =>
          chainFrom (first :: others) operand rounds (operator.apply value right))
            cursor.skipSpaces.advance
      | none => ⟨[], .ok (value, cursor.skipSpaces)⟩ := by
  rw [chainFrom]
  change ((operator? (first :: others) cursor).andThen _) = _
  rw [operator?_apply]
  cases operatorAhead (first :: others) cursor <;> rfl

theorem length_lt_of_operatorAhead (forward : Advances operand) {operators : List Operator}
    {cursor last : Cursor} {operator : Operator} {right : Float}
    (ahead : operatorAhead operators cursor = some operator)
    (run : Yields operand cursor.skipSpaces.advance right last) :
    last.unread.length < cursor.unread.length := by
  obtain ⟨count, passed⟩ :=
    Cursor.passes_advance_of_upcoming (upcoming_of_operatorAhead ahead)
  obtain ⟨text, further⟩ := forward _ _ _ run
  have whole := congrArg List.length (passed.append further).unread_eq
  simp only [List.length_append, length_spaces, List.length_singleton] at whole
  omega

/-- Induction along the loop: what holds at a cursor if it holds behind each operator and operand
that come next holds everywhere, since less is unread there. -/
theorem loop_induction (operators : List Operator) (forward : Advances operand)
    {motive : Float → Cursor → Prop}
    (round : ∀ value cursor, (∀ operator right last,
        operatorAhead operators cursor = some operator →
        Yields operand cursor.skipSpaces.advance right last →
        motive (operator.apply value right) last) → motive value cursor)
    (value : Float) (cursor : Cursor) : motive value cursor := by
  induction size : cursor.unread.length using Nat.strongRecOn generalizing value cursor with
  | ind size ih =>
    refine round value cursor fun operator right last ahead run => ?_
    have shorter := length_lt_of_operatorAhead forward ahead run
    exact ih _ (size ▸ shorter) _ _ rfl

theorem chainFrom_eq (forward : Advances operand) (rounds others' : List Char) (value : Float)
    (cursor : Cursor) (enough : cursor.unread.length ≤ rounds.length)
    (enough' : cursor.unread.length ≤ others'.length) :
    chainFrom (first :: others) operand rounds value cursor =
      chainFrom (first :: others) operand others' value cursor := by
  -- On both counts of rounds at once; each operator uses up one round and at least one character.
  induction rounds generalizing others' value cursor with
  | nil =>
    have ended : cursor.unread = [] := List.length_eq_zero_iff.mp (Nat.le_zero.mp enough)
    cases others' with
    | nil => rfl
    | cons round others' =>
      rw [chainFrom_cons_apply, operatorAhead_of_end ended]
      rw [Cursor.skipSpaces_of_head (by simp [ended])]
      rfl
  | cons round rounds ih =>
    cases others' with
    | nil =>
      have ended : cursor.unread = [] := List.length_eq_zero_iff.mp (Nat.le_zero.mp enough')
      rw [chainFrom_cons_apply, operatorAhead_of_end ended]
      rw [Cursor.skipSpaces_of_head (by simp [ended])]
      rfl
    | cons round' others' =>
      rw [chainFrom_cons_apply, chainFrom_cons_apply]
      cases ahead : operatorAhead (first :: others) cursor with
      | none => rfl
      | some operator =>
        apply bind_apply_congr
        intro right last run
        have shorter := length_lt_of_operatorAhead forward ahead run
        simp only [List.length_cons] at enough enough'
        exact ih _ _ _ (by omega) (by omega)

def further (operators : List Operator) (operand : Scan Float) (value : Float) : Scan Float :=
  fun cursor => chainFrom operators operand cursor.unread value cursor

theorem chain_eq (operators : List Operator) (operand : Scan Float) :
    chain operators operand = operand >>= further operators operand := rfl

theorem further_apply (forward : Advances operand) (value : Float) (cursor : Cursor) :
    further (first :: others) operand value cursor =
      match operatorAhead (first :: others) cursor with
      | some operator =>
        (operand >>= fun right =>
          further (first :: others) operand (operator.apply value right)) cursor.skipSpaces.advance
      | none => ⟨[], .ok (value, cursor.skipSpaces)⟩ := by
  unfold further
  cases text : cursor.unread with
  | nil =>
    rw [operatorAhead_of_end text, Cursor.skipSpaces_of_head (by simp [text])]
    rfl
  | cons round rounds =>
    rw [chainFrom_cons_apply]
    cases ahead : operatorAhead (first :: others) cursor with
    | none => rfl
    | some operator =>
      apply bind_apply_congr
      intro right last run
      have shorter := length_lt_of_operatorAhead forward ahead run
      rw [text, List.length_cons] at shorter
      exact chainFrom_eq forward _ _ _ _ (by omega) (Nat.le_refl _)

end

/-- The states of the loop: the value of the operands read so far, and the cursor behind them. -/
inductive Reached (operators : List Operator) (operand : Scan Float) (start : Cursor) :
    Float → Cursor → Prop where
  | operand {value : Float} {last : Cursor} (run : Yields operand start value last) :
      Reached operators operand start value last
  | operator {value right : Float} {middle last : Cursor} {operator : Operator}
      (reached : Reached operators operand start value middle)
      (ahead : operatorAhead operators middle = some operator)
      (run : Yields operand middle.skipSpaces.advance right last) :
      Reached operators operand start (operator.apply value right) last

section

variable {first : Operator} {others : List Operator} {operand : Scan Float}
  {start middle last : Cursor} {value : Float} {fault : Fault}

theorem Reached.result_eq (forward : Advances operand)
    (reached : Reached (first :: others) operand start value middle) :
    (chain (first :: others) operand start).result =
      (further (first :: others) operand value middle).result := by
  induction reached with
  | operand run => rw [chain_eq, run.result_bind]
  | operator _ ahead run ih => rw [ih, further_apply forward, ahead, run.result_bind]

theorem Reached.ends (forward : Advances operand)
    (reached : Reached (first :: others) operand start value middle) :
    ∃ reachedValue place, Reached (first :: others) operand start reachedValue place ∧
      ((operatorAhead (first :: others) place = none ∧
          Yields (chain (first :: others) operand) start reachedValue place.skipSpaces) ∨
        ∃ operator fault, operatorAhead (first :: others) place = some operator ∧
          Fails operand place.skipSpaces.advance fault ∧
          Fails (chain (first :: others) operand) start fault) := by
  induction value, middle using loop_induction (first :: others) forward with
  | round value middle ih =>
    have whole := reached.result_eq forward
    rw [further_apply forward] at whole
    cases ahead : operatorAhead (first :: others) middle with
    | none =>
      rw [ahead] at whole
      exact ⟨value, middle, reached, Or.inl ⟨ahead, whole⟩⟩
    | some operator =>
      rw [ahead] at whole
      rcases yields_or_fails operand middle.skipSpaces.advance with
        ⟨right, next, run⟩ | ⟨fault, failed⟩
      · exact ih _ _ _ ahead run (reached.operator ahead run)
      · refine ⟨value, middle, reached, Or.inr ⟨operator, fault, ahead, failed, ?_⟩⟩
        exact whole.trans (fails_bind.mpr (Or.inl failed))

theorem yields_chain (forward : Advances operand) :
    Yields (chain (first :: others) operand) start value last ↔
      ∃ place, Reached (first :: others) operand start value place ∧
        operatorAhead (first :: others) place = none ∧ last = place.skipSpaces := by
  constructor
  · intro run
    obtain ⟨first, next, one, _⟩ := yields_bind.mp (chain_eq _ operand ▸ run)
    obtain ⟨other, place, reached, ⟨ahead, whole⟩ | ⟨_, _, _, _, failed⟩⟩ :=
      (Reached.operand one).ends forward
    · obtain ⟨rfl, rfl⟩ := run.unique whole
      exact ⟨place, reached, ahead, rfl⟩
    · exact absurd failed run.not_fails
  · intro given
    obtain ⟨place, reached, ahead, rfl⟩ := given
    have whole := reached.result_eq forward
    rw [further_apply forward, ahead] at whole
    exact whole

theorem fails_chain (forward : Advances operand) :
    Fails (chain (first :: others) operand) start fault ↔
      Fails operand start fault ∨
        ∃ value place operator, Reached (first :: others) operand start value place ∧
          operatorAhead (first :: others) place = some operator ∧
          Fails operand place.skipSpaces.advance fault := by
  constructor
  · intro failed
    rcases fails_bind.mp (chain_eq _ operand ▸ failed) with alone | ⟨first, next, one, _⟩
    · exact Or.inl alone
    · obtain ⟨other, place, reached, ⟨_, whole⟩ | ⟨operator, cause, ahead, inner, whole⟩⟩ :=
        (Reached.operand one).ends forward
      · exact absurd failed whole.not_fails
      · have same : cause = fault := Except.error.inj (whole.symm.trans failed)
        exact Or.inr ⟨other, place, operator, reached, ahead, same ▸ inner⟩
  · intro given
    rcases given with alone | ⟨value, place, operator, reached, ahead, inner⟩
    · exact fails_bind.mpr (Or.inl alone)
    · have whole := reached.result_eq forward
      rw [further_apply forward, ahead] at whole
      exact whole.trans (fails_bind.mpr (Or.inl inner))

end

theorem Reached.passes {operators : List Operator} {operand : Scan Float} {start last : Cursor}
    {value : Float} (forward : Advances operand)
    (reached : Reached operators operand start value last) : ∃ text, start.Passes text last := by
  induction reached with
  | operand run => exact forward _ _ _ run
  | operator _ ahead run ih =>
    obtain ⟨before, passed⟩ := ih
    obtain ⟨count, sign⟩ :=
      Cursor.passes_advance_of_upcoming (upcoming_of_operatorAhead ahead)
    obtain ⟨text, further⟩ := forward _ _ _ run
    exact ⟨_, (passed.append sign).append further⟩

theorem advances_chain {first : Operator} {others : List Operator} {operand : Scan Float}
    (forward : Advances operand) : Advances (chain (first :: others) operand) := by
  intro start value last run
  obtain ⟨place, reached, _, rfl⟩ := (yields_chain forward).mp run
  obtain ⟨text, passed⟩ := reached.passes forward
  obtain ⟨count, blank⟩ := Cursor.passes_skipSpaces place
  exact ⟨_, passed.append blank⟩

theorem skipSpaces_of_yields_chain {first : Operator} {others : List Operator}
    {operand : Scan Float} {start last : Cursor} {value : Float} (forward : Advances operand)
    (run : Yields (chain (first :: others) operand) start value last) : last.skipSpaces = last := by
  obtain ⟨place, _, _, rfl⟩ := (yields_chain forward).mp run
  exact Cursor.skipSpaces_skipSpaces place

end Reckoner.Evaluator
