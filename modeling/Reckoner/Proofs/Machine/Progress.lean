import Reckoner.Proofs.Machine.Move

/-!
What holds whenever the machine stands still for a moment: the counter is the number of factors in
progress, and the text has been consumed from one of them to the next. A production that has been
entered is left again, with the frames and the counter as they were, and a value has cost something.
-/
namespace Reckoner.Evaluator.Machine

variable {tooDeep : Cursor → Fault} {room count : Nat} {state next last : State} {since : Cursor}
  {frames : List Frame}

/-- The counter is the number of factors in progress; it exceeds the room by one at most, and only
until the factor for which there is no room is left. -/
structure State.Counted (room : Nat) (state : State) : Prop where
  depth_eq : state.depth = state.entrances.length
  depth_le : state.depth ≤ room + 1
  roomy : state.control.Proceeds → state.depth ≤ room

/-- Between the entrances of two factors, one inside the other, something has been consumed; and so
it has between an entrance and what is entered in the factor, or a value that is reached in it. -/
structure State.Nested (state : State) : Prop where
  inside : state.entrances.Pairwise fun inner outer => Consumed outer inner
  behind : ∀ since ∈ state.entrances, Behind since state.cursor
  consumed : state.control.Proceeds → ∀ since ∈ state.entrances, Consumed since state.cursor

theorem counted_start (text : String) : (start text).Counted room :=
  ⟨rfl, Nat.zero_le _, fun _ => Nat.zero_le _⟩

theorem nested_start (text : String) : (start text).Nested :=
  ⟨List.Pairwise.nil, by simp [start, State.entrances, Frame.entrance?],
    by simp [start, State.entrances, Frame.entrance?]⟩

theorem Move.roomy (move : Move room state next) (counted : state.Counted room)
    (proceeds : next.control.Proceeds) : state.depth ≤ room := by
  rcases move.proceeds_of_proceeds proceeds with began | before
  · exact (move.consumed_of_proceeds proceeds began).2
  · exact counted.roomy before

theorem Move.counted (move : Move room state next) (counted : state.Counted room) :
    next.Counted room := by
  have same := counted.depth_eq
  have most := counted.depth_le
  rcases move.entrances_cases with
    ⟨entered, begins, _, entrances, depth⟩ | ⟨since, entrances, _, _, depth⟩ | ⟨entrances, depth⟩
  case inl =>
    have roomy := counted.roomy (entered ▸ trivial)
    refine ⟨?_, by omega, fun proceeds => ?_⟩
    · rw [entrances, List.length_cons, depth, same]
    · exact absurd proceeds (begins ▸ id)
  case inr.inl =>
    rw [entrances, List.length_cons] at same
    refine ⟨by omega, by omega, fun proceeds => ?_⟩
    have roomy := move.roomy counted proceeds
    omega
  case inr.inr =>
    refine ⟨by rw [entrances, depth, same], by omega, fun proceeds => ?_⟩
    rw [depth]
    exact move.roomy counted proceeds

theorem Move.consumed_of_nested (move : Move room state next) (nested : state.Nested)
    (proceeds : next.control.Proceeds) (inProgress : since ∈ state.entrances) :
    Consumed since next.cursor := by
  rcases move.proceeds_of_proceeds proceeds with began | before
  · have consumed := (move.consumed_of_proceeds proceeds began).1
    exact consumed.after (nested.behind since inProgress)
  · exact (nested.consumed before since inProgress).before move.behind

theorem Move.nested (move : Move room state next) (nested : state.Nested) : next.Nested := by
  rcases move.entrances_cases with
    ⟨entered, begins, cursor, entrances, _⟩ | ⟨left, entrances, _, _, _⟩ | ⟨entrances, _⟩
  case inl =>
    have consumed := nested.consumed (entered ▸ trivial)
    refine ⟨?_, fun since member => ?_, fun proceeds => absurd proceeds (begins ▸ id)⟩
    · rw [entrances]
      exact List.Pairwise.cons consumed nested.inside
    · rw [cursor]
      rw [entrances] at member
      rcases List.mem_cons.mp member with rfl | outer
      · exact Behind.refl _
      · exact (consumed since outer).behind
  case inr.inl =>
    have further {since : Cursor} (member : since ∈ next.entrances) : since ∈ state.entrances := by
      rw [entrances]
      exact List.mem_cons_of_mem _ member
    refine ⟨?_, fun since member => ?_, fun proceeds since member => ?_⟩
    · have inside := nested.inside
      rw [entrances] at inside
      exact inside.of_cons
    · exact (nested.behind since (further member)).trans move.behind
    · exact move.consumed_of_nested nested proceeds (further member)
  case inr.inr =>
    refine ⟨entrances ▸ nested.inside, fun since member => ?_, fun proceeds since member => ?_⟩
    · exact (nested.behind since (entrances ▸ member)).trans move.behind
    · exact move.consumed_of_nested nested proceeds (entrances ▸ member)

/-! From the entrance of a production until it is left. -/

/-- More is to be done than these frames say. -/
def State.Above (frames : List Frame) (state : State) : Prop :=
  ∃ frame fresh, state.frames = frame :: (fresh ++ frames)

/-- A run during which frames stay untouched, up to where they are all that is left. -/
inductive Call (tooDeep : Cursor → Fault) (room : Nat) (frames : List Frame) :
    State → State → Prop where
  | leaves {state last : State} (taken : step tooDeep room state = some last)
      (left : last.frames = frames) (returned : last.control.Returned) :
      Call tooDeep room frames state last
  | goes {state next last : State} (taken : step tooDeep room state = some next)
      (above : next.Above frames) (others : Call tooDeep room frames next last) :
      Call tooDeep room frames state last

theorem Call.steps (call : Call tooDeep room frames state last) :
    ∃ count, Steps tooDeep room count state last := by
  induction call with
  | leaves taken _ _ => exact ⟨1, .step taken (.refl _)⟩
  | goes taken _ _ ih =>
    obtain ⟨count, run⟩ := ih
    exact ⟨count + 1, .step taken run⟩

theorem Call.frames_eq (call : Call tooDeep room frames state last) :
    last.frames = frames ∧ last.control.Returned := by
  induction call with
  | leaves _ left returned => exact ⟨left, returned⟩
  | goes _ _ _ ih => exact ih

theorem above_of_append (fresh : List Frame) (some : fresh ≠ [])
    (same : state.frames = fresh ++ frames) : state.Above frames := by
  obtain ⟨frame, fresh, rfl⟩ := List.exists_cons_of_ne_nil some
  exact ⟨frame, fresh, same⟩

theorem Move.above_of_enter {production : Production} (move : Move room state next)
    (entered : state.control = .enter production) : next.Above state.frames := by
  cases move with
  | descends level _ _ frames => exact ⟨_, [], frames⟩
  | counts _ _ frames => exact ⟨_, [], frames⟩
  | refuses _ began => cases entered.symm.trans began
  | opens _ began => cases entered.symm.trans began
  | continues _ _ _ _ _ gave => cases entered.symm.trans gave
  | returns _ _ _ gave => cases entered.symm.trans gave
  | unwinds _ _ returned => exact absurd returned (entered ▸ id)
  | leaves _ returned => exact absurd returned (entered ▸ id)

theorem above_or_eq {frame : Frame} (above : state.Above frames)
    (waiting : state.frames = frame :: next.frames) : next.Above frames ∨ next.frames = frames := by
  obtain ⟨_, fresh, same⟩ := above
  have rest : next.frames = fresh ++ frames := (List.cons.inj (waiting.symm.trans same)).2
  cases fresh with
  | nil => exact Or.inr rest
  | cons frame fresh => exact Or.inl ⟨frame, fresh, rest⟩

theorem Move.above (move : Move room state next) (above : state.Above frames) :
    next.Above frames ∨ (next.frames = frames ∧ next.control.Returned) := by
  obtain ⟨top, others, same⟩ := above
  cases move with
  | descends level _ _ pushed =>
    exact Or.inl ⟨_, top :: others, by rw [pushed, same, List.cons_append]⟩
  | counts _ _ pushed => exact Or.inl ⟨_, top :: others, by rw [pushed, same, List.cons_append]⟩
  | refuses _ _ _ kept => exact Or.inl ⟨top, others, kept.trans same⟩
  | opens fresh _ _ _ pushed =>
    refine Or.inl (above_of_append (fresh ++ top :: others) (by simp) ?_)
    rw [pushed, same, List.append_assoc, List.cons_append]
  | continues _ _ _ fresh rest _ _ waiting pushed some =>
    refine Or.inl (above_of_append (fresh ++ others) (by simp [some]) ?_)
    rw [pushed, (List.cons.inj (waiting.symm.trans same)).2, List.append_assoc]
  | returns _ _ _ _ gives waiting =>
    exact (above_or_eq ⟨top, others, same⟩ waiting).imp_right fun left => ⟨left, gives ▸ trivial⟩
  | unwinds _ _ _ raises waiting =>
    exact (above_or_eq ⟨top, others, same⟩ waiting).imp_right fun left => ⟨left, raises ▸ trivial⟩
  | leaves _ returned control waiting =>
    exact (above_or_eq ⟨top, others, same⟩ waiting).imp_right fun left => ⟨left, control ▸ returned⟩

theorem exists_call_of_above (above : state.Above frames) :
    ∃ last, Call tooDeep room frames state last := by
  induction size : state.work using Nat.strongRecOn generalizing state with
  | ind size ih =>
    have waiting : state.frames ≠ [] := by
      obtain ⟨frame, fresh, same⟩ := above
      rw [same]
      exact List.cons_ne_nil _ _
    obtain ⟨next, taken⟩ := exists_step tooDeep room waiting
    have move := move_of_step taken
    rcases move.above above with still | ⟨left, returned⟩
    · obtain ⟨last, call⟩ := ih next.work (size ▸ move.work_lt) still rfl
      exact ⟨last, .goes taken still call⟩
    · exact ⟨next, .leaves taken left returned⟩

variable (tooDeep room) in
theorem exists_call {production : Production} (entered : state.control = .enter production) :
    ∃ last, Call tooDeep room state.frames state last := by
  have taken : step tooDeep room state = some (state.enter production) := by rw [step, entered]
  have above := (move_of_step taken).above_of_enter entered
  obtain ⟨last, call⟩ := exists_call_of_above above
  exact ⟨last, .goes taken above call⟩

/-- Where a production stands that was entered at a place: not before it, and behind something that
it has consumed once it has come to a value. -/
structure State.Reads (since : Cursor) (state : State) : Prop where
  behind : Behind since state.cursor
  consumed : ∀ value, state.control = .give value → Consumed since state.cursor

theorem Move.reads (move : Move room state next) (reads : state.Reads since) :
    next.Reads since := by
  refine ⟨reads.behind.trans move.behind, fun value gave => ?_⟩
  cases move with
  | opens _ _ _ _ _ _ _ consumed => exact consumed.after reads.behind
  | continues _ _ _ _ _ _ _ _ _ _ _ _ _ consumed => exact consumed.after reads.behind
  | returns _ _ _ before _ _ _ behind => exact (reads.consumed _ before).before behind
  | leaves _ _ control _ cursor => exact cursor ▸ reads.consumed value (control ▸ gave)
  | descends _ _ enters => cases gave.symm.trans enters
  | counts _ begins => cases gave.symm.trans begins
  | refuses _ _ raises => cases gave.symm.trans raises
  | unwinds _ _ _ raises => cases gave.symm.trans raises

theorem Call.depth_eq (call : Call tooDeep room state.frames state last)
    (counted : state.Counted room) : last.depth = state.depth := by
  obtain ⟨count, run⟩ := call.steps
  have later := run.keeps Move.counted counted
  rw [later.depth_eq, counted.depth_eq, State.entrances, call.frames_eq.1, ← State.entrances]

theorem Call.consumed {production : Production} {value : Float}
    (call : Call tooDeep room frames state last) (entered : state.control = .enter production)
    (gave : last.control = .give value) : Consumed state.cursor last.cursor := by
  obtain ⟨count, run⟩ := call.steps
  have reads : state.Reads state.cursor :=
    ⟨Behind.refl _, fun value given => by cases entered.symm.trans given⟩
  exact (run.keeps Move.reads reads).consumed value gave

end Reckoner.Evaluator.Machine
