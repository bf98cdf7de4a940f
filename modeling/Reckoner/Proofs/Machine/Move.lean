import Reckoner.Proofs.Machine.Basic

/-!
What one step of the machine can do. It goes down to the first operand of a loop, counts a factor,
reads on, or leaves a frame; every step that reads on has consumed something other than spaces.
-/
namespace Reckoner.Evaluator.Machine

def Level.production : Level → Production
  | sum => .expression
  | product => .term

namespace Control

/-- A value has been reached, or a production is entered. -/
def Proceeds : Control → Prop
  | enter _ | give _ => True
  | begin | raise _ => False

def Returned : Control → Prop
  | give _ | raise _ => True
  | enter _ | begin => False

end Control

inductive Move (room : Nat) (state next : State) : Prop where
  /-- A production goes down to the first operand of its loop. -/
  | descends (level : Level) (entered : state.control = .enter level.production)
      (enters : next.control = .enter level.operand)
      (frames : next.frames = .operator level :: state.frames)
      (cursor : next.cursor = state.cursor) (depth : next.depth = state.depth)
  /-- A factor is counted. -/
  | counts (entered : state.control = .enter .factor) (begins : next.control = .begin)
      (frames : next.frames = .factor state.cursor :: state.frames)
      (cursor : next.cursor = state.cursor) (depth : next.depth = state.depth + 1)
  /-- A factor is refused at its beginning. -/
  | refuses (fault : Fault) (began : state.control = .begin) (raises : next.control = .raise fault)
      (frames : next.frames = state.frames) (behind : Behind state.cursor next.cursor)
      (depth : next.depth = state.depth)
  /-- The beginning of a factor is read: a number, or what comes before a production. -/
  | opens (fresh : List Frame) (began : state.control = .begin) (roomy : state.depth ≤ room)
      (proceeds : next.control.Proceeds) (frames : next.frames = fresh ++ state.frames)
      (few : fresh.length ≤ 3) (plain : fresh.filterMap Frame.entrance? = [])
      (consumed : Consumed state.cursor next.cursor) (depth : next.depth = state.depth)
  /-- An operator is read behind a value. -/
  | continues (value : Float) (production : Production) (frame : Frame) (fresh rest : List Frame)
      (gave : state.control = .give value) (enters : next.control = .enter production)
      (waiting : state.frames = frame :: rest) (frames : next.frames = fresh ++ rest)
      (some : fresh ≠ []) (few : fresh.length ≤ 3) (uncounted : frame.entrance? = none)
      (plain : fresh.filterMap Frame.entrance? = [])
      (consumed : Consumed state.cursor next.cursor) (depth : next.depth = state.depth)
  /-- A value goes on to the next frame. -/
  | returns (value result : Float) (frame : Frame) (gave : state.control = .give value)
      (gives : next.control = .give result) (waiting : state.frames = frame :: next.frames)
      (uncounted : frame.entrance? = none) (behind : Behind state.cursor next.cursor)
      (depth : next.depth = state.depth)
  /-- A frame is left with a fault. -/
  | unwinds (fault : Fault) (frame : Frame) (returned : state.control.Returned)
      (raises : next.control = .raise fault) (waiting : state.frames = frame :: next.frames)
      (uncounted : frame.entrance? = none) (behind : Behind state.cursor next.cursor)
      (depth : next.depth = state.depth)
  /-- A factor is left, with a value or with a fault. -/
  | leaves (since : Cursor) (returned : state.control.Returned)
      (control : next.control = state.control)
      (waiting : state.frames = .factor since :: next.frames)
      (cursor : next.cursor = state.cursor) (depth : next.depth = state.depth - 1)

section

variable {tooDeep : Cursor → Fault} {room : Nat} {state next : State} {c : Char}

theorem move_refuse (began : state.control = .begin) : Move room state state.refuse :=
  .refuses _ began rfl rfl (behind_skipSpaces _) rfl

theorem move_readNumber (began : state.control = .begin) (roomy : state.depth ≤ room)
    (found : state.cursor.upcoming = some c) (digit : Cursor.isNumberChar c = true) :
    Move room state state.readNumber := by
  have consumed := consumed_takeWhile found digit
  simp only [State.readNumber]
  split
  next decimal read => exact .opens [.base] began roomy trivial rfl (by simp) rfl consumed rfl
  next unread => exact .refuses _ began rfl rfl consumed.behind rfl

theorem move_readName (began : state.control = .begin) (roomy : state.depth ≤ room)
    (found : state.cursor.upcoming = some c) (letter : Cursor.isLetter c = true) :
    Move room state state.readName := by
  have consumed := consumed_takeWhile found letter
  simp only [State.readName]
  split
  next opening =>
    refine .opens [.closing _, .application _ _, .base] began roomy trivial rfl (by simp) rfl ?_ rfl
    exact consumed.before (consumed_of_upcoming opening).behind
  next other =>
    refine .opens [.application _ _, .base] began roomy trivial rfl (by simp) rfl ?_ rfl
    exact consumed.before (behind_skipSpaces _)

theorem move_begin (began : state.control = .begin) (roomy : state.depth ≤ room) :
    Move room state state.begin := by
  rw [State.begin]
  split
  next plus =>
    exact .opens [] began roomy trivial rfl (by simp) rfl (consumed_of_upcoming plus) rfl
  next minus =>
    exact .opens [.negation] began roomy trivial rfl (by simp) rfl (consumed_of_upcoming minus) rfl
  next opening =>
    exact .opens [.closing none, .base] began roomy trivial rfl (by simp) rfl
      (consumed_of_upcoming opening) rfl
  next c _ _ _ found =>
    split
    next digit => exact move_readNumber began roomy found digit
    next other =>
      split
      next letter => exact move_readName began roomy found letter
      next neither => exact move_refuse began
  next ended => exact move_refuse began

theorem move_resume {value : Float} {frame : Frame} {frames : List Frame}
    (gave : state.control = .give value) (waiting : state.frames = frame :: frames) :
    Move room state ({ state with frames }.resume value frame) := by
  cases frame with
  | factor since => exact .leaves since (gave ▸ trivial) gave.symm waiting rfl rfl
  | operator level =>
    rw [State.resume]
    cases ahead : operatorAhead level.operators state.cursor with
    | none => exact .returns value _ _ gave rfl waiting rfl (behind_skipSpaces _) rfl
    | some operator =>
      exact .continues value _ _ [.operand operator value, .operator level] frames gave rfl waiting
        rfl (by simp) (by simp) rfl rfl (consumed_of_upcoming (upcoming_of_operatorAhead ahead)) rfl
  | operand operator left => exact .returns value _ _ gave rfl waiting rfl (Behind.refl _) rfl
  | negation => exact .returns value _ _ gave rfl waiting rfl (Behind.refl _) rfl
  | base =>
    rw [State.resume]
    split
    next power =>
      exact .continues value _ _ [.exponent value] frames gave rfl waiting rfl (by simp) (by simp)
        rfl rfl (consumed_of_upcoming power) rfl
    next other => exact .returns value _ _ gave rfl waiting rfl (behind_skipSpaces _) rfl
  | exponent base => exact .returns value _ _ gave rfl waiting rfl (Behind.refl _) rfl
  | closing argumentOf =>
    rw [State.resume]
    split
    next closing =>
      exact .returns value _ _ gave rfl waiting rfl (consumed_of_upcoming closing).behind rfl
    next missing => exact .unwinds _ _ (gave ▸ trivial) rfl waiting rfl (behind_skipSpaces _) rfl
  | application name position => exact .returns value _ _ gave rfl waiting rfl (Behind.refl _) rfl
  | ending =>
    rw [State.resume]
    split
    next ended => exact .returns value _ _ gave rfl waiting rfl (Behind.refl _) rfl
    next more => exact .unwinds _ _ (gave ▸ trivial) rfl waiting rfl (Behind.refl _) rfl

theorem move_unwind {fault : Fault} {frame : Frame} {frames : List Frame}
    (raised : state.control = .raise fault) (waiting : state.frames = frame :: frames) :
    Move room state ({ state with frames }.unwind frame) := by
  cases frame with
  | factor since => exact .leaves since (raised ▸ trivial) rfl waiting rfl rfl
  | _ => exact .unwinds fault _ (raised ▸ trivial) raised waiting rfl (Behind.refl _) rfl

theorem move_of_step (taken : step tooDeep room state = some next) : Move room state next := by
  rw [step] at taken
  split at taken
  next production entered =>
    cases taken
    cases production with
    | expression => exact .descends .sum entered rfl rfl rfl rfl
    | term => exact .descends .product entered rfl rfl rfl rfl
    | factor => exact .counts entered rfl rfl rfl rfl
  next began =>
    cases taken
    split
    next full => exact .refuses _ began rfl rfl (Behind.refl _) rfl
    next roomy => exact move_begin began (Nat.le_of_not_lt roomy)
  next value frame frames gave waiting =>
    cases taken
    exact move_resume gave waiting
  next fault frame frames raised waiting =>
    cases taken
    exact move_unwind raised waiting
  next => cases taken
  next => cases taken

variable (tooDeep room) in
theorem exists_step (waiting : state.frames ≠ []) :
    ∃ next, step tooDeep room state = some next := by
  rcases state with ⟨control, frames, cursor, depth, notes⟩
  cases frames with
  | nil => exact absurd rfl waiting
  | cons frame frames => cases control <;> exact ⟨_, rfl⟩

theorem Move.behind (move : Move room state next) : Behind state.cursor next.cursor := by
  cases move with
  | descends _ _ _ _ cursor => exact cursor ▸ Behind.refl _
  | counts _ _ _ cursor => exact cursor ▸ Behind.refl _
  | leaves _ _ _ _ cursor => exact cursor ▸ Behind.refl _
  | refuses _ _ _ _ behind => exact behind
  | returns _ _ _ _ _ _ _ behind => exact behind
  | unwinds _ _ _ _ _ _ behind => exact behind
  | opens _ _ _ _ _ _ _ consumed => exact consumed.behind
  | continues _ _ _ _ _ _ _ _ _ _ _ _ _ consumed => exact consumed.behind

theorem Move.entrances_cases (move : Move room state next) :
    (state.control = .enter .factor ∧ next.control = .begin ∧ next.cursor = state.cursor ∧
        next.entrances = state.cursor :: state.entrances ∧ next.depth = state.depth + 1) ∨
      (∃ since, state.entrances = since :: next.entrances ∧ next.control = state.control ∧
        next.cursor = state.cursor ∧ next.depth = state.depth - 1) ∨
      (next.entrances = state.entrances ∧ next.depth = state.depth) := by
  unfold State.entrances
  cases move with
  | descends _ _ _ frames _ depth => exact Or.inr (Or.inr ⟨by rw [frames]; rfl, depth⟩)
  | counts entered begins frames cursor depth =>
    exact Or.inl ⟨entered, begins, cursor, by rw [frames]; rfl, depth⟩
  | refuses _ _ _ frames _ depth => exact Or.inr (Or.inr ⟨by rw [frames], depth⟩)
  | opens _ _ _ _ frames _ plain _ depth =>
    exact Or.inr (Or.inr ⟨by rw [frames, List.filterMap_append, plain, List.nil_append], depth⟩)
  | continues _ _ _ _ _ _ _ waiting frames _ _ uncounted plain _ depth =>
    refine Or.inr (Or.inr ⟨?_, depth⟩)
    rw [waiting, frames, List.filterMap_append, plain, List.filterMap_cons_none uncounted,
      List.nil_append]
  | returns _ _ _ _ _ waiting uncounted _ depth =>
    exact Or.inr (Or.inr ⟨by rw [waiting, List.filterMap_cons_none uncounted], depth⟩)
  | unwinds _ _ _ _ waiting uncounted _ depth =>
    exact Or.inr (Or.inr ⟨by rw [waiting, List.filterMap_cons_none uncounted], depth⟩)
  | leaves since _ control waiting cursor depth =>
    exact Or.inr (Or.inl ⟨since, by rw [waiting]; rfl, control, cursor, depth⟩)

/-- From the beginning of a factor the machine goes on only if there is room for the factor, and
only behind something that it has consumed. -/
theorem Move.consumed_of_proceeds (move : Move room state next) (proceeds : next.control.Proceeds)
    (began : state.control = .begin) : Consumed state.cursor next.cursor ∧ state.depth ≤ room := by
  cases move with
  | opens _ _ roomy _ _ _ _ consumed => exact ⟨consumed, roomy⟩
  | descends _ entered => cases began.symm.trans entered
  | counts entered => cases began.symm.trans entered
  | continues _ _ _ _ _ gave => cases began.symm.trans gave
  | returns _ _ _ gave => cases began.symm.trans gave
  | refuses _ _ raises => exact absurd proceeds (by rw [raises]; exact id)
  | unwinds _ _ _ raises => exact absurd proceeds (by rw [raises]; exact id)
  | leaves _ returned => exact absurd returned (by rw [began]; exact id)

theorem Move.proceeds_of_proceeds (move : Move room state next) (proceeds : next.control.Proceeds) :
    state.control = .begin ∨ state.control.Proceeds := by
  cases move with
  | opens _ began => exact Or.inl began
  | descends _ entered => exact Or.inr (entered ▸ trivial)
  | counts entered => exact Or.inr (entered ▸ trivial)
  | continues _ _ _ _ _ gave => exact Or.inr (gave ▸ trivial)
  | returns _ _ _ gave => exact Or.inr (gave ▸ trivial)
  | refuses _ began => exact Or.inl began
  | unwinds _ _ _ raises => exact absurd proceeds (by rw [raises]; exact id)
  | leaves _ _ control => exact Or.inr (control ▸ proceeds)

theorem Move.consumed_of_enter {value : Float} {production : Production}
    (move : Move room state next) (gave : state.control = .give value)
    (enters : next.control = .enter production) : Consumed state.cursor next.cursor := by
  cases move with
  | continues _ _ _ _ _ _ _ _ _ _ _ _ _ consumed => exact consumed
  | opens _ _ _ _ _ _ _ consumed => exact consumed
  | descends _ entered => cases gave.symm.trans entered
  | counts entered => cases gave.symm.trans entered
  | refuses _ began => cases gave.symm.trans began
  | returns _ _ _ _ gives => cases enters.symm.trans gives
  | unwinds _ _ _ raises => cases enters.symm.trans raises
  | leaves _ _ control => cases enters.symm.trans (control.trans gave)

end

/-! What is left of the work. -/

def Production.work : Production → Nat
  | expression => 9
  | term => 6
  | factor => 3

def Control.work : Control → Nat
  | enter production => production.work
  | begin => 1
  | give _ | raise _ => 0

/-- An unread character may open three frames and a production. -/
def State.work (state : State) : Nat :=
  13 * state.cursor.unread.length + state.frames.length + state.control.work

section

variable {room : Nat} {state next : State}

theorem Level.work_operand (level : Level) : level.operand.work + 3 = level.production.work := by
  cases level <;> rfl

theorem Control.work_le (control : Control) : control.work ≤ 9 := by
  cases control with
  | enter production => cases production <;> decide
  | begin => exact Nat.le_of_ble_eq_true rfl
  | give value => exact Nat.zero_le 9
  | raise fault => exact Nat.zero_le 9

theorem Control.Returned.work_eq {control : Control} (returned : control.Returned) :
    control.work = 0 := by
  cases control with
  | enter production => exact returned.elim
  | begin => exact returned.elim
  | give value => rfl
  | raise fault => rfl

theorem Move.work_lt (move : Move room state next) : next.work < state.work := by
  have high := next.control.work_le
  have unread := move.behind.length_le
  unfold State.work
  cases move with
  | descends level entered enters frames =>
    have lower := level.work_operand
    rw [entered, enters, frames]
    simp only [Control.work, List.length_cons]
    omega
  | counts entered begins frames =>
    rw [entered, begins, frames]
    simp only [Control.work, Production.work, List.length_cons]
    omega
  | refuses fault began raises frames =>
    rw [began, raises, frames]
    simp only [Control.work]
    omega
  | opens fresh began roomy proceeds frames few plain consumed =>
    have fewer := consumed.length_lt
    rw [frames, List.length_append]
    omega
  | continues value production frame fresh rest gave enters waiting frames some few uncounted plain
      consumed =>
    have fewer := consumed.length_lt
    rw [waiting, frames, List.length_append, List.length_cons]
    omega
  | returns value result frame gave gives waiting =>
    rw [gives, waiting]
    simp only [Control.work, List.length_cons]
    omega
  | unwinds fault frame returned raises waiting =>
    rw [raises, waiting]
    simp only [Control.work, List.length_cons]
    omega
  | leaves since returned control waiting =>
    rw [control, waiting, returned.work_eq, List.length_cons]
    omega

theorem work_start (text : String) : (start text).work = 13 * text.length + 10 := by
  rw [← String.length_toList]
  rfl

end

/-! Runs. -/

section

variable {tooDeep : Cursor → Fault} {room count : Nat} {state next last : State}

theorem Steps.append {others : Nat} (before : Steps tooDeep room count state next)
    (after : Steps tooDeep room others next last) :
    Steps tooDeep room (count + others) state last := by
  induction before with
  | refl state => rwa [Nat.zero_add]
  | step taken _ ih =>
    rw [Nat.add_right_comm]
    exact .step taken (ih after)

theorem Steps.keeps {motive : State → Prop} (run : Steps tooDeep room count state last)
    (kept : ∀ {state next : State}, Move room state next → motive state → motive next)
    (held : motive state) : motive last := by
  induction run with
  | refl state => exact held
  | step taken _ ih => exact ih (kept (move_of_step taken) held)

theorem Steps.behind (run : Steps tooDeep room count state last) :
    Behind state.cursor last.cursor :=
  run.keeps (motive := fun later => Behind state.cursor later.cursor)
    (fun move reached => reached.trans move.behind) (Behind.refl _)

theorem Steps.add_work_le (run : Steps tooDeep room count state last) :
    count + last.work ≤ state.work := by
  induction run with
  | refl state => exact Nat.le_of_eq (Nat.zero_add _)
  | step taken _ ih =>
    have lower := (move_of_step taken).work_lt
    omega

end

end Reckoner.Evaluator.Machine
