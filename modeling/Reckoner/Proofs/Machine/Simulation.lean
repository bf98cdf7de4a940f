import Reckoner.Proofs.Machine.Move
import Reckoner.Proofs.Reading.Account

/-!
The machine does what the productions do. From the state in which a production is entered it comes
to the outcome of the production, with the frames and the counter as they were before; so from its
start it comes to the evaluation of the whole text.
-/
namespace Reckoner.Evaluator.Machine

open Scan

variable {tooDeep : Cursor → Fault} {room count : Nat} {state next last : State}
  {frames : List Frame} {frame : Frame} {outcome : Outcome Float} {notes : List Note}
  {value : Float} {fault : Fault} {place start : Cursor}

/-- From a state the machine comes to an outcome, with the given frames left. -/
def Comes (tooDeep : Cursor → Fault) (room : Nat) (state : State) (frames : List Frame)
    (outcome : Outcome Float) : Prop :=
  outcome.Ends
    (fun notes value place => ∃ count, Steps tooDeep room count state
      ⟨.give value, frames, place, state.depth, state.notes ++ notes⟩)
    (fun notes fault => ∃ stop count, Steps tooDeep room count state
      ⟨.raise fault, frames, stop, state.depth, state.notes ++ notes⟩)

theorem Comes.step (comes : Comes tooDeep room next frames outcome)
    (taken : step tooDeep room state = some next) (depth : next.depth = state.depth)
    (notes : next.notes = state.notes) : Comes tooDeep room state frames outcome := by
  refine Outcome.Ends.mono comes ?_ ?_
  · intro notes' value place reached
    obtain ⟨count, run⟩ := reached
    rw [depth, notes] at run
    exact ⟨count + 1, .step taken run⟩
  · intro notes' fault reached
    obtain ⟨stop, count, run⟩ := reached
    rw [depth, notes] at run
    exact ⟨stop, count + 1, .step taken run⟩

theorem comes_raise (raised : state.control = .raise fault) (left : state.frames = frames) :
    Comes tooDeep room state frames ⟨[], .error fault⟩ := by
  subst left
  refine ⟨state.cursor, 0, ?_⟩
  rw [List.append_nil, ← raised]
  exact .refl state

theorem comes_give (gave : state.control = .give value) (left : state.frames = frames)
    (stands : state.cursor = place) : Comes tooDeep room state frames ⟨[], .ok (value, place)⟩ := by
  subst left stands
  refine ⟨0, ?_⟩
  rw [List.append_nil, ← gave]
  exact .refl state

theorem comes_through (taken : step tooDeep room state =
      some ⟨.give value, frames, place, state.depth, state.notes ++ notes⟩) :
    Comes tooDeep room state frames ⟨notes, .ok (value, place)⟩ :=
  ⟨1, .step taken (.refl _)⟩

theorem steps_raise {fresh : List Frame} (plain : fresh.filterMap Frame.entrance? = [])
    (stop : Cursor) (depth : Nat) (notes : List Note) :
    Steps tooDeep room fresh.length ⟨.raise fault, fresh ++ frames, stop, depth, notes⟩
      ⟨.raise fault, frames, stop, depth, notes⟩ := by
  induction fresh with
  | nil => exact .refl _
  | cons frame fresh ih =>
    have uncounted := List.filterMap_eq_nil_iff.mp plain
    refine .step ?_ (ih (List.filterMap_eq_nil_iff.mpr fun frame member =>
      uncounted frame (List.mem_cons_of_mem _ member)))
    have none := uncounted frame List.mem_cons_self
    cases frame with
    | factor since => cases none
    | _ => rfl

theorem comes_bind (fresh : List Frame) {first : Scan Float} {after : Float → Scan Float}
    (plain : fresh.filterMap Frame.entrance? = [])
    (before : Comes tooDeep room state (fresh ++ frames) (first start))
    (later : ∀ value place notes, Yields first start value place → Comes tooDeep room
      ⟨.give value, fresh ++ frames, place, state.depth, notes⟩ frames (after value place)) :
    Comes tooDeep room state frames ((first >>= after) start) := by
  refine (Outcome.Ends.and_yields before).bind ?_ ?_
  · intro notes value place reached
    obtain ⟨⟨count, run⟩, yields⟩ := reached
    refine Outcome.Ends.mono (later value place (state.notes ++ notes) yields) ?_ ?_
    · intro notes' result place' reached'
      obtain ⟨others, run'⟩ := reached'
      rw [List.append_assoc] at run'
      exact ⟨count + others, run.append run'⟩
    · intro notes' fault reached'
      obtain ⟨stop, others, run'⟩ := reached'
      rw [List.append_assoc] at run'
      exact ⟨stop, count + others, run.append run'⟩
  · intro notes fault reached
    obtain ⟨stop, count, run⟩ := reached
    exact ⟨stop, _, run.append (steps_raise plain _ _ _)⟩

/-- Where a production is entered the machine comes to what a step of reading does. -/
def Performs (tooDeep : Cursor → Fault) (room depth : Nat) (production : Production)
    (reading : Scan Float) : Prop :=
  ∀ frames start notes, Comes tooDeep room ⟨.enter production, frames, start, depth, notes⟩ frames
    (reading start)

section

variable {depth : Nat} {operand inner : Scan Float} {level : Level}

theorem Level.exists_operators (level : Level) :
    ∃ first others, level.operators = first :: others := by
  cases level <;> exact ⟨_, _, rfl⟩

theorem comes_further (forward : Advances operand)
    (performs : Performs tooDeep room depth level.operand operand) (frames : List Frame)
    (value : Float) (place : Cursor) (notes : List Note) :
    Comes tooDeep room ⟨.give value, .operator level :: frames, place, depth, notes⟩ frames
      (further level.operators operand value place) := by
  obtain ⟨first, others, operators⟩ := level.exists_operators
  induction value, place using loop_induction level.operators forward generalizing notes with
  | round value place ih =>
    have resumed : step tooDeep room
        ⟨.give value, .operator level :: frames, place, depth, notes⟩ =
          some (State.resume ⟨.give value, frames, place, depth, notes⟩ value (.operator level)) :=
      rfl
    rw [State.resume] at resumed
    rw [operators, further_apply forward, ← operators]
    cases ahead : operatorAhead level.operators place with
    | none =>
      simp only [ahead] at resumed
      exact Comes.step (comes_give rfl rfl rfl) resumed rfl rfl
    | some operator =>
      simp only [ahead] at resumed
      refine Comes.step ?_ resumed rfl rfl
      refine comes_bind [.operand operator value, .operator level] rfl (performs _ _ _) ?_
      intro right last notes run
      refine Comes.step ?_ rfl rfl rfl
      exact ih _ _ _ ahead run notes

variable (level) in
theorem performs_chain (forward : Advances operand)
    (performs : Performs tooDeep room depth level.operand operand) :
    Performs tooDeep room depth level.production (chain level.operators operand) := by
  intro frames start notes
  have entered : step tooDeep room ⟨.enter level.production, frames, start, depth, notes⟩ =
      some ⟨.enter level.operand, .operator level :: frames, start, depth, notes⟩ := by
    cases level <;> rfl
  refine Comes.step ?_ entered rfl rfl
  rw [chain_eq]
  refine comes_bind [.operator level] rfl (performs _ _ _) ?_
  exact fun value place notes _ => comes_further forward performs frames value place notes

theorem performs_term (forward : Advances inner)
    (performs : Performs tooDeep room depth .factor inner) :
    Performs tooDeep room depth .term (term inner) :=
  performs_chain .product forward performs

theorem performs_expression (forward : Advances inner)
    (performs : Performs tooDeep room depth .factor inner) :
    Performs tooDeep room depth .expression (expression inner) :=
  performs_chain .sum (advances_term forward) (performs_term forward performs)

theorem comes_enclosed (performs : Performs tooDeep room depth .expression (expression inner))
    (argumentOf : Option String) (frames : List Frame) (start : Cursor) (notes : List Note) :
    Comes tooDeep room ⟨.enter .expression, .closing argumentOf :: frames, start, depth, notes⟩
      frames (enclosed inner argumentOf start) := by
  refine comes_bind [.closing argumentOf] rfl (performs _ _ _) ?_
  intro value place notes _
  have resumed : step tooDeep room
      ⟨.give value, .closing argumentOf :: frames, place, depth, notes⟩ = some
        (State.resume ⟨.give value, frames, place, depth, notes⟩ value (.closing argumentOf)) := rfl
  rw [State.resume] at resumed
  rw [eat_bind_apply]
  split
  next closing =>
    rw [if_pos closing] at resumed
    exact Comes.step (comes_give rfl rfl rfl) resumed rfl rfl
  next missing =>
    rw [if_neg missing] at resumed
    exact Comes.step (comes_raise rfl rfl) resumed rfl rfl

theorem comes_conclude (name : String) (position : Nat) (value : Float) (place : Cursor)
    (notes : List Note) : Comes tooDeep room
      ⟨.give value, .application name position :: frames, place, depth, notes⟩ frames
      (conclude name position value place) :=
  comes_through rfl

theorem comes_application (forward : Advances inner)
    (performs : Performs tooDeep room depth .factor inner) (frames : List Frame) (start : Cursor)
    (notes : List Note) : Comes tooDeep room
      (State.readName ⟨.begin, frames, start, depth, notes⟩) (.base :: frames)
      (application inner start.skipSpaces) := by
  simp only [State.readName]
  split
  next opening =>
    rw [application_apply_of_parenthesis rfl opening]
    refine comes_bind [.application _ _] rfl ?_ fun _ _ _ _ => comes_conclude _ _ _ _ _
    exact comes_enclosed (performs_expression forward performs) _ _ _ _
  next other =>
    rw [application_apply_of_ne_parenthesis rfl other]
    refine comes_bind [.application _ _] rfl (performs _ _ _) ?_
    exact fun _ _ _ _ => comes_conclude _ _ _ _ _

theorem comes_powered (performs : Performs tooDeep room state.depth .factor inner)
    (base : Comes tooDeep room state (.base :: frames) (primary inner start)) :
    Comes tooDeep room state frames (powered inner start) := by
  refine comes_bind [.base] rfl base ?_
  intro value place notes _
  have resumed : step tooDeep room ⟨.give value, .base :: frames, place, state.depth, notes⟩ =
      some (State.resume ⟨.give value, frames, place, state.depth, notes⟩ value .base) := rfl
  rw [State.resume] at resumed
  rw [eat_bind_apply]
  split
  next power =>
    rw [if_pos power] at resumed
    refine Comes.step ?_ resumed rfl rfl
    refine comes_bind [.exponent value] rfl (performs _ _ _) ?_
    exact fun _ _ _ _ => Comes.step (comes_give rfl rfl rfl) rfl rfl rfl
  next other =>
    rw [if_neg other] at resumed
    exact Comes.step (comes_give rfl rfl rfl) resumed rfl rfl

theorem comes_powered_of_error (refused : primary inner start = ⟨[], .error fault⟩)
    (raised : state.control = .raise fault) (left : state.frames = frames) :
    Comes tooDeep room state frames (powered inner start) := by
  have whole : powered inner start = ⟨[], .error fault⟩ := by
    change (primary inner start).andThen _ = _
    rw [refused]
    rfl
  rw [whole]
  exact comes_raise raised left

theorem comes_readNumber {c : Char} (performs : Performs tooDeep room depth .factor inner)
    (frames : List Frame) (notes : List Note) (found : start.upcoming = some c)
    (digit : Cursor.isNumberChar c = true) :
    Comes tooDeep room (State.readNumber ⟨.begin, frames, start, depth, notes⟩) frames
      (powered inner start.skipSpaces) := by
  have apply : primary inner start.skipSpaces = number start.skipSpaces.skipSpaces :=
    primary_apply_of_number (start.upcoming_skipSpaces.trans found) digit
  rw [start.skipSpaces_skipSpaces, number_apply] at apply
  simp only [State.readNumber]
  split
  next decimal read =>
    refine comes_powered performs ?_
    rw [apply, read]
    exact comes_give rfl rfl rfl
  next unread =>
    rw [unread] at apply
    exact comes_powered_of_error apply rfl rfl

theorem comes_refuse (frames : List Frame) (notes : List Note) (plain : ∀ c,
      start.upcoming = some c → c ≠ '(' ∧ ¬Cursor.isNumberChar c ∧ ¬Cursor.isLetter c) :
    Comes tooDeep room (State.refuse ⟨.begin, frames, start, depth, notes⟩) frames
      (powered inner start.skipSpaces) := by
  have same := start.upcoming_skipSpaces
  rcases primary_cases inner start.skipSpaces with
    opening | ⟨c, found, digit⟩ | ⟨c, found, letter⟩ | refused
  · exact absurd rfl (plain _ (same.symm.trans opening)).1
  · exact absurd digit (plain c (same.symm.trans found)).2.1
  · exact absurd letter (plain c (same.symm.trans found)).2.2
  · rw [start.skipSpaces_skipSpaces] at refused
    exact comes_powered_of_error refused rfl rfl

theorem comes_begin_of_unsigned (forward : Advances inner)
    (performs : Performs tooDeep room depth .factor inner) (frames : List Frame) (start : Cursor)
    (notes : List Note) (plus : start.upcoming ≠ some '+') (minus : start.upcoming ≠ some '-') :
    Comes tooDeep room (State.begin ⟨.begin, frames, start, depth, notes⟩) frames
      (powered inner start.skipSpaces) := by
  have same := start.upcoming_skipSpaces
  have skipped := start.skipSpaces_skipSpaces
  rw [State.begin]
  split
  next found => exact absurd found plus
  next found => exact absurd found minus
  next opening =>
    refine comes_powered performs ?_
    rw [primary_apply_of_parenthesis (same.trans opening), skipped]
    exact comes_enclosed (performs_expression forward performs) none (.base :: frames) _ _
  next c _ _ opening found =>
    split
    next digit => exact comes_readNumber performs frames notes found digit
    next digit =>
      split
      next letter =>
        refine comes_powered ?_ ?_
        · simp only [State.readName]
          split <;> exact performs
        · rw [primary_apply_of_letter (same.trans found) letter, skipped]
          exact comes_application forward performs frames start notes
      next letter =>
        refine comes_refuse frames notes fun other ahead => ?_
        cases found.symm.trans ahead
        exact ⟨opening, digit, letter⟩
  next ended =>
    refine comes_refuse frames notes fun other ahead => ?_
    cases ended.symm.trans ahead

theorem comes_factor (comes : Comes tooDeep room ⟨.begin, .factor start :: frames, start, depth + 1,
      notes⟩ (.factor start :: frames) outcome) :
    Comes tooDeep room ⟨.enter .factor, frames, start, depth, notes⟩ frames outcome := by
  refine Outcome.Ends.mono comes ?_ ?_
  · intro notes' value place reached
    obtain ⟨count, run⟩ := reached
    exact ⟨_, .step rfl (run.append (.step rfl (.refl _)))⟩
  · intro notes' fault reached
    obtain ⟨stop, count, run⟩ := reached
    exact ⟨stop, _, .step rfl (run.append (.step rfl (.refl _)))⟩

theorem State.begin_keeps (state : State) :
    state.begin.depth = state.depth ∧ state.begin.notes = state.notes := by
  unfold State.begin State.readNumber State.readName State.refuse
  simp only
  repeat' split
  all_goals exact ⟨rfl, rfl⟩

theorem performs_factor_zero (full : room ≤ depth) :
    Performs tooDeep room depth .factor (factor tooDeep 0) := by
  intro frames start notes
  have refused : step tooDeep room ⟨.begin, .factor start :: frames, start, depth + 1, notes⟩ =
      some ⟨.raise (tooDeep start), .factor start :: frames, start, depth + 1, notes⟩ := by
    simp only [step]
    rw [if_pos (Nat.lt_succ_of_le full)]
  exact comes_factor (Comes.step (comes_raise rfl rfl) refused rfl rfl)

theorem performs_factor_succ {left : Nat} (roomy : depth < room)
    (performs : Performs tooDeep room (depth + 1) .factor (factor tooDeep left)) :
    Performs tooDeep room depth .factor (factor tooDeep (left + 1)) := by
  intro frames start notes
  have begun : step tooDeep room ⟨.begin, .factor start :: frames, start, depth + 1, notes⟩ =
      some (State.begin ⟨.begin, .factor start :: frames, start, depth + 1, notes⟩) := by
    simp only [step]
    rw [if_neg (Nat.not_lt.mpr roomy)]
  have kept := State.begin_keeps ⟨.begin, .factor start :: frames, start, depth + 1, notes⟩
  refine comes_factor (Comes.step ?_ begun kept.1 kept.2)
  by_cases plus : start.upcoming = some '+'
  · rw [factor_apply_of_plus plus]
    simp only [State.begin, plus]
    exact performs _ _ _
  · by_cases minus : start.upcoming = some '-'
    · rw [factor_apply_of_minus minus]
      simp only [State.begin, minus]
      refine comes_bind [.negation] rfl (performs _ _ _) ?_
      exact fun _ _ _ _ => Comes.step (comes_give rfl rfl rfl) rfl rfl rfl
    · rw [factor_apply_of_unsigned plus minus]
      exact comes_begin_of_unsigned (advances_factor tooDeep left) performs _ start notes plus minus

variable (tooDeep) in
theorem performs_factor {left : Nat} (whole : depth + left = room) :
    Performs tooDeep room depth .factor (factor tooDeep left) := by
  induction left generalizing depth with
  | zero => exact performs_factor_zero (Nat.le_of_eq whole.symm)
  | succ left ih => exact performs_factor_succ (by omega) (ih (by omega))

def Production.reading (tooDeep : Cursor → Fault) (left : Nat) : Production → Scan Float
  | expression => Evaluator.expression (Evaluator.factor tooDeep left)
  | term => Evaluator.term (Evaluator.factor tooDeep left)
  | factor => Evaluator.factor tooDeep left

variable (tooDeep) in
theorem performs_reading {left : Nat} (whole : depth + left = room) (production : Production) :
    Performs tooDeep room depth production (production.reading tooDeep left) := by
  have forward := advances_factor tooDeep left
  have performs := performs_factor tooDeep whole
  cases production with
  | expression => exact performs_expression forward performs
  | term => exact performs_term forward performs
  | factor => exact performs

end

variable (tooDeep room) in
theorem comes_whole (text : String) :
    Comes tooDeep room (Machine.start text) []
      (whole tooDeep room (Cursor.ofText text.toList)) := by
  have performs := performs_reading tooDeep (Nat.zero_add room) .expression
  refine comes_bind [.ending] rfl (performs _ _ _) ?_
  intro value place notes _
  have resumed : step tooDeep room ⟨.give value, [.ending], place, 0, notes⟩ =
      some (State.resume ⟨.give value, [], place, 0, notes⟩ value .ending) := rfl
  rw [State.resume] at resumed
  rw [ending_apply]
  split
  next ended =>
    rw [if_pos (by rw [Cursor.atEnd, ended]; rfl)] at resumed
    exact Comes.step (comes_give rfl rfl rfl) resumed rfl rfl
  next more =>
    rw [if_neg (by rwa [Cursor.atEnd, List.isEmpty_iff])] at resumed
    exact Comes.step (comes_raise rfl rfl) resumed rfl rfl

theorem exists_ended (limit : Int) (stack : Nat) (text : String) :
    ∃ count last, Steps (nestingFault limit stack) (min limit.toNat stack) count
      (Machine.start text) last ∧ Ended last (run limit stack text) := by
  have comes := comes_whole (nestingFault limit stack) (min limit.toNat stack) text
  unfold run
  generalize whole (nestingFault limit stack) (min limit.toNat stack)
    (Cursor.ofText text.toList) = outcome at comes ⊢
  rcases outcome with ⟨notes, fault | ⟨value, place⟩⟩
  · obtain ⟨stop, count, reached⟩ := comes
    exact ⟨count, _, reached, .fault fault stop 0 notes⟩
  · obtain ⟨count, reached⟩ := comes
    exact ⟨count, _, reached, .value value place 0 notes⟩

end Reckoner.Evaluator.Machine
