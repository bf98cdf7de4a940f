import Reckoner.Answer
import Reckoner.Proofs.Grammar.Pinpoint
import Reckoner.Proofs.Reading.Barrier

/-!
Runs with little and with more room, under a limit or on the stack. They are the same step by step
until the one with little room is refused a factor; then the other one reads on, and whatever it
comes to lies further on in the text.
-/
namespace Reckoner.Evaluator

open Scan

variable {α β : Type} {deeper : Prop} {stack stack' : Nat}

/-- A step that has gone past a position: its value ends behind it, and so does the text in front of
a factor that it is refused. -/
structure Past (outcome : Outcome α) (position : Nat) : Prop where
  value : ∀ {value : α} {last : Cursor}, outcome.result = .ok (value, last) →
    position < last.position
  fault : ∀ {fault : Fault} {place : Nat}, outcome.result = .error fault →
    fault.cause.kind = .nesting → fault.position = some place → position < place

/-- What a step comes to with low and with high room: the same, unless it is refused a factor with
low room. With room that is deeper it then goes past the position of that factor. -/
inductive Raised (deeper : Prop) (low high : Outcome α) : Prop where
  | same (equal : high = low)
      (allowed : ∀ fault, low.result = .error fault → ¬fault.Deep)
  | refused {fault : Fault} (failed : low.result = .error fault) (deep : fault.Deep)
      (past : deeper → ∀ position, fault.position = some position → Past high position)

theorem Settled.position_le_of_yields {step : Scan α} {start last : Cursor} {value : α}
    (settled : Settled step start) (run : Yields step start value last) :
    start.position ≤ last.position := by
  obtain ⟨text, passed, _⟩ := settled.yields run
  rw [passed.position_eq]
  exact Nat.le_add_right _ _

theorem Settled.position_le_of_fails {step : Scan α} {start : Cursor} {fault : Fault}
    {position : Nat} (settled : Settled step start) (failed : Fails step start fault)
    (named : fault.position = some position) : start.position ≤ position := by
  cases settled with
  | value notes value passed same =>
    rw [Fails, same _ _ passed (Alike.refl _)] at failed
    cases failed
  | fault notes fault' passed settled same =>
    rw [Fails, same _ _ passed (Alike.refl _)] at failed
    obtain rfl : fault' = fault := Except.error.inj failed
    cases settled with
    | nowhere absent => simp [absent] at named
    | here _ named' =>
      rw [Option.some.inj (named.symm.trans named'), passed.position_eq]
      exact Nat.le_add_right _ _
    | number passed' _ _ named' =>
      rw [Option.some.inj (named.symm.trans named'), passed'.position_eq]
      exact Nat.le_add_right _ _

theorem Raised.refl {outcome : Outcome α}
    (allowed : ∀ fault, outcome.result = .error fault → ¬fault.Deep) :
    Raised deeper outcome outcome := .same rfl allowed

section

variable {low high : Scan α} {after after' : α → Scan β} {start : Cursor}

theorem Past.bind {position : Nat} (past : Past (high start) position)
    (settled : ∀ value place, Settled (after' value) place) :
    Past ((high >>= after') start) position where
  value := by
    intro value last run
    obtain ⟨middle, place, first, second⟩ := yields_bind.mp run
    have behind := (settled middle place).position_le_of_yields second
    exact Nat.lt_of_lt_of_le (past.value first) behind
  fault := by
    intro fault place failed nested named
    rcases fails_bind.mp failed with first | ⟨value, middle, first, second⟩
    · exact past.fault first nested named
    · have behind := (settled value middle).position_le_of_fails second named
      exact Nat.lt_of_lt_of_le (past.value first) behind

theorem Past.of_result_eq {outcome outcome' : Outcome α} {position : Nat}
    (past : Past outcome position) (same : outcome'.result = outcome.result) :
    Past outcome' position :=
  ⟨fun run => past.value (same ▸ run), fun failed => past.fault (same ▸ failed)⟩

theorem Raised.bind (first : Raised deeper (low start) (high start))
    (later : ∀ value place, Yields low start value place →
      Raised deeper (after value place) (after' value place))
    (settled : ∀ value place, Settled (after' value) place) :
    Raised deeper ((low >>= after) start) ((high >>= after') start) := by
  cases first with
  | refused failed nested past =>
    exact .refused (fails_bind.mpr (Or.inl failed)) nested fun deep position named =>
      (past deep position named).bind settled
  | same equal allowed =>
    have equal' : (high >>= after') start = (low >>= after') start := by
      change (high start).andThen after' = (low start).andThen after'
      rw [equal]
    rw [equal']
    rcases yields_or_fails low start with ⟨value, middle, run⟩ | ⟨fault, failed⟩
    · cases later value middle run with
      | same equal allowed =>
        refine .same (bind_apply_congr fun value' place run' => ?_) fun fault failed => ?_
        · obtain ⟨rfl, rfl⟩ := run.unique run'
          exact equal
        · rw [run.result_bind] at failed
          exact allowed fault failed
      | refused failed nested past =>
        refine .refused (run.result_bind.trans failed) nested fun deep position named => ?_
        exact (past deep position named).of_result_eq run.result_bind
    · have never : ∀ value place, ¬Yields low start value place :=
        fun _ _ run => run.not_fails failed
      refine .same (bind_apply_congr fun value place run => absurd run (never value place)) ?_
      intro fault' failed'
      rcases fails_bind.mp failed' with first | ⟨value, place, run, _⟩
      · exact allowed fault' first
      · exact absurd run (never value place)

end

theorem raised_pure (value : α) (start : Cursor) :
    Raised deeper ((pure value : Scan α) start) ((pure value : Scan α) start) :=
  .refl fun _ failed => absurd failed not_fails_pure

theorem raised_refuse {cause : Cursor → Fault} {start : Cursor}
    (other : ¬(cause start).Deep) :
    Raised deeper ((refuse cause : Scan α) start) ((refuse cause : Scan α) start) := by
  refine .refl fun fault failed => ?_
  rw [← fails_refuse.mp failed]
  exact other

/-! Loops. -/

structure Raises (deeper : Prop) (low high : Scan Float) : Prop where
  forward : Advances low
  forward' : Advances high
  settled : ∀ start, Settled high start
  raised : ∀ start, Raised deeper (low start) (high start)

section

variable {first : Operator} {others : List Operator} {low high : Scan Float}

theorem not_fails_operator? {start : Cursor} {fault : Fault} :
    ¬Fails (operator? (first :: others)) start fault := by
  intro failed
  rw [Fails, operator?_apply] at failed
  cases ahead : operatorAhead (first :: others) start <;> simp [ahead] at failed

theorem raised_further (raises : Raises deeper low high) (value : Float) (start : Cursor) :
    Raised deeper (further (first :: others) low value start)
      (further (first :: others) high value start) := by
  induction value, start using loop_induction (first :: others) raises.forward with
  | round value start ih =>
    rw [further_eq raises.forward, further_eq raises.forward']
    refine Raised.bind (.refl fun _ failed => absurd failed not_fails_operator?) ?_ ?_
    · intro found place run
      rw [Yields, operator?_apply] at run
      cases ahead : operatorAhead (first :: others) start with
      | none =>
        simp only [ahead, Except.ok.injEq, Prod.mk.injEq] at run
        obtain ⟨rfl, rfl⟩ := run
        exact raised_pure value _
      | some operator =>
        simp only [ahead, Except.ok.injEq, Prod.mk.injEq] at run
        obtain ⟨rfl, rfl⟩ := run
        exact Raised.bind (raises.raised _) (fun right last within => ih _ _ _ ahead within)
          fun right last => settled_further raises.forward' raises.settled _ last
    · intro found place
      cases found with
      | none => exact settled_pure value place
      | some operator =>
        exact (raises.settled place).bind fun right last _ =>
          settled_further raises.forward' raises.settled _ last

theorem Raises.chain (raises : Raises deeper low high) :
    Raises deeper (Evaluator.chain (first :: others) low)
      (Evaluator.chain (first :: others) high) where
  forward := advances_chain raises.forward
  forward' := advances_chain raises.forward'
  settled := settled_chain raises.forward' raises.settled
  raised start := by
    rw [chain_eq, chain_eq]
    exact Raised.bind (raises.raised start) (fun value place _ => raised_further raises value place)
      fun value place => settled_further raises.forward' raises.settled value place

end

/-! Productions. -/

section

variable {low high : Scan Float} {argumentOf : Option String} {start : Cursor}

theorem raised_enclosed (raises : Raises deeper low high) (start : Cursor) :
    Raised deeper (enclosed low argumentOf start) (enclosed high argumentOf start) := by
  refine Raised.bind (raises.chain.chain.raised start) (fun value place _ => ?_) ?_
  · refine .refl fun fault failed => ?_
    rcases fails_eat_then.mp failed with ⟨_, never⟩ | ⟨_, refused⟩
    · exact absurd never not_fails_pure
    · rw [← fails_refuse.mp refused]
      simp [Fault.Deep, Fault.atCursor, Cause.kind]
  · intro value place
    refine (settled_eat ')' place).bind fun met last _ => .ite (settled_pure value last) ?_
    exact settled_refuse_atCursor (by simp [Cause.kind]) last

theorem raised_conclude
    (raised : Raised deeper (low start) (high start)) (name : String) (position : Nat) :
    Raised deeper ((low >>= conclude name position) start)
      ((high >>= conclude name position) start) := by
  refine Raised.bind raised (fun argument place _ => ?_) (settled_conclude name position)
  exact .refl fun fault failed => by simp [conclude] at failed

theorem raised_application (raises : Raises deeper low high) (start : Cursor) :
    Raised deeper (application low start) (application high start) := by
  rcases taken : start.takeWhile Cursor.isLetter with ⟨letters, middle⟩
  by_cases opening : middle.upcoming = some '('
  · rw [application_apply_of_parenthesis taken opening,
      application_apply_of_parenthesis taken opening]
    exact raised_conclude (raised_enclosed raises _) _ _
  · rw [application_apply_of_ne_parenthesis taken opening,
      application_apply_of_ne_parenthesis taken opening]
    exact raised_conclude (raises.raised _) _ _

theorem raised_primary (raises : Raises deeper low high) (start : Cursor) :
    Raised deeper (primary low start) (primary high start) := by
  by_cases opening : start.upcoming = some '('
  · rw [primary_apply_of_parenthesis opening, primary_apply_of_parenthesis opening]
    exact raised_enclosed raises _
  · rw [primary_apply_of_ne_parenthesis opening, primary_apply_of_ne_parenthesis opening]
    have unexpected : Raised deeper ((unexpected : Scan Float) start.skipSpaces)
        ((unexpected : Scan Float) start.skipSpaces) :=
      raised_refuse (by simp [Fault.Deep, Fault.atCursor, Cause.kind])
    cases start.upcoming with
    | none => exact unexpected
    | some c =>
      by_cases digit : Cursor.isNumberChar c = true
      · simp only [digit, ↓reduceIte]
        refine .refl fun fault failed => ?_
        obtain ⟨_, rfl⟩ := fails_number.mp failed
        simp [Fault.Deep, Fault.atCursor, Cause.kind]
      · by_cases letter : Cursor.isLetter c = true
        · simp only [digit, letter, ↓reduceIte]
          exact raised_application raises _
        · simp only [digit, letter]
          exact unexpected

theorem raised_powered (raises : Raises deeper low high) (start : Cursor) :
    Raised deeper (powered low start) (powered high start) := by
  refine Raised.bind (raised_primary raises start) (fun base place _ => ?_) fun base place => ?_
  · rw [eat_bind_apply, eat_bind_apply]
    split
    next caret =>
      exact Raised.bind (raises.raised _) (fun x last _ => raised_pure (base.pow x) last)
        fun x last => settled_pure (base.pow x) last
    next other => exact raised_pure base _
  · refine (settled_eat '^' place).bind fun met last _ => .ite ?_ (settled_pure base last)
    exact (raises.settled last).bind fun x last _ => settled_pure (base.pow x) last

end

/-! Factors. -/

theorem past_factor (limit : Int) (stack room : Nat) (start : Cursor) :
    Past (factor (nestingFault limit stack) (room + 1) start) start.position where
  value := by
    intro value last run
    obtain ⟨⟨_, phrase, ⟨text, passed, spelled⟩, _⟩, _⟩ :=
      (Grammar.readsFactors (nestingFault limit stack) (room + 1)).parsed run
    obtain ⟨token, others, tokens⟩ := List.exists_cons_of_ne_nil phrase.tokens_ne_nil
    rw [tokens] at spelled
    rw [passed.position_eq]
    exact Nat.lt_add_of_pos_right (List.length_pos_of_ne_nil spelled.ne_nil)
  fault := by
    intro fault place failed nested named
    obtain ⟨text, stop, present, passed, stops, _⟩ :=
      barred_factor_succ (blocks_factor limit stack room) failed nested
    rw [stops place named, passed.position_eq]
    exact Nat.lt_add_of_pos_right (List.length_pos_of_ne_nil present)

theorem raises_factor_succ {lower upper : Int} {low high : Nat}
    (raises : Raises deeper (factor (nestingFault lower stack) low)
      (factor (nestingFault upper stack') high))
    (start : Cursor) :
    Raised deeper (factor (nestingFault lower stack) (low + 1) start)
      (factor (nestingFault upper stack') (high + 1) start) := by
  by_cases plus : start.upcoming = some '+'
  · rw [factor_apply_of_plus plus, factor_apply_of_plus plus]
    exact raises.raised _
  · by_cases minus : start.upcoming = some '-'
    · rw [factor_apply_of_minus minus, factor_apply_of_minus minus]
      exact Raised.bind (raises.raised _) (fun x last _ => raised_pure _ last)
        fun x last => settled_pure _ last
    · rw [factor_apply_of_unsigned plus minus, factor_apply_of_unsigned plus minus]
      exact raised_powered raises _

theorem raises_factor {lower upper : Int} {low high : Nat} (le : low ≤ high)
    (strict : deeper → low < high) :
    Raises deeper (factor (nestingFault lower stack) low)
      (factor (nestingFault upper stack') high) := by
  -- On the low room: where it runs out, deeper room still holds a factor, which is read there.
  induction low generalizing high with
  | zero =>
    refine ⟨advances_factor _ 0, advances_factor _ high, settled_factor upper stack' high,
      fun start => ?_⟩
    refine .refused rfl (deep_nestingFault lower stack start) fun deep position named => ?_
    obtain ⟨room, rfl⟩ := Nat.exists_eq_succ_of_ne_zero (Nat.ne_of_gt (strict deep))
    rw [stopsAt_nestingFault lower stack start position named]
    exact past_factor upper stack' room start
  | succ low ih =>
    obtain ⟨room, rfl⟩ := Nat.exists_eq_succ_of_ne_zero (Nat.ne_of_gt (Nat.zero_lt_of_lt le))
    have raises := @ih room (Nat.le_of_succ_le_succ le)
      fun deep => Nat.lt_of_succ_lt_succ (strict deep)
    exact ⟨advances_factor _ _, advances_factor _ _, settled_factor upper stack' _,
      raises_factor_succ raises⟩

/-! Whole texts. -/

theorem raised_whole {lower upper : Int} {low high : Nat} (le : low ≤ high)
    (strict : deeper → low < high) (start : Cursor) :
    Raised deeper (whole (nestingFault lower stack) low start)
      (whole (nestingFault upper stack') high start) := by
  have raises : Raises deeper (expression (factor (nestingFault lower stack) low))
      (expression (factor (nestingFault upper stack') high)) :=
    (raises_factor le strict).chain.chain
  refine Raised.bind (raises.raised start) (fun value place _ => .refl fun fault failed => ?_)
    settled_ending
  rw [ending_apply] at failed
  split at failed
  next => cases failed
  next =>
    cases failed
    simp [Fault.Deep, Fault.atCursor, Cause.kind]

/-- A factor is refused under a limit that the stack holds, unless the stack is exhausted, and the
fault names the place. -/
theorem position_of_nested {limit : Int} {text : String} {fault : Fault}
    (failed : (run limit stack text).result = .error fault) (nested : fault.cause.kind = .nesting)
    (sufficient : fault.cause ≠ .stackExhausted) :
    limit ≤ stack ∧ ∃ position, fault.position = some position := by
  obtain ⟨read, place, _, diagnosis⟩ := Grammar.diagnosed_whole (run_result_eq_error.mp failed)
  cases diagnosis with
  | nested =>
    by_cases beyond : (stack : Int) < limit
    · rw [nestingFault, if_pos beyond] at sufficient
      exact absurd rfl sufficient
    · rw [nestingFault, if_neg beyond] at nested ⊢
      refine ⟨Int.not_lt.mp beyond, ?_⟩
      split at nested
      next writable => exact ⟨_, by rw [if_pos writable]; rfl⟩
      next => cases nested
  | _ => cases nested

theorem raised_run {lower upper : Int} (le : lower ≤ upper) (wider : stack ≤ stack')
    (text : String) :
    Raised (min lower.toNat stack < min upper.toNat stack')
      (whole (nestingFault lower stack) (min lower.toNat stack) (Cursor.ofText text.toList))
      (whole (nestingFault upper stack') (min upper.toNat stack') (Cursor.ofText text.toList)) :=
  raised_whole (by omega) id _

theorem run_of_room_le {lower upper : Int} (le : lower ≤ upper) (wider : stack ≤ stack')
    {text : String}
    (allowed : ∀ fault, (run lower stack text).result = .error fault → ¬fault.Deep) :
    run upper stack' text = run lower stack text := by
  cases raised_run le wider text with
  | same equal _ => rw [run, run, equal]
  | refused failed deep _ => exact absurd deep (allowed _ (run_result_eq_error.mpr failed))

/-- An evaluation does not use up its room on the stack. -/
def Evaluation.Fits (evaluation : Evaluation) : Prop :=
  ∀ fault, evaluation.result = .error fault → fault.cause ≠ .stackExhausted

theorem run_of_stack_le {limit : Int} (wider : stack ≤ stack') {text : String}
    (fits : (run limit stack text).Fits) :
    run limit stack' text = run limit stack text := by
  by_cases held : limit ≤ stack
  · have same : nestingFault limit stack' = nestingFault limit stack := by
      funext place
      have held' : ¬(stack' : Int) < limit := by omega
      rw [nestingFault, nestingFault, if_neg (Int.not_lt.mpr held), if_neg held']
    have room : min limit.toNat stack' = min limit.toNat stack := by omega
    rw [run, run, same, room]
  · refine run_of_room_le (Int.le_refl limit) wider fun fault failed deep => ?_
    obtain ⟨read, place, _, diagnosis⟩ := Grammar.diagnosed_whole (run_result_eq_error.mp failed)
    cases diagnosis with
    | nested =>
      rw [nestingFault, if_pos (Int.not_le.mp held)] at failed
      exact fits _ failed rfl
    | _ => rcases deep with deep | deep <;> cases deep

theorem run_of_stack {limit : Int} {text : String} (fits : (run limit stack text).Fits)
    (fits' : (run limit stack' text).Fits) : run limit stack' text = run limit stack text := by
  rcases Nat.le_total stack stack' with wider | narrower
  · exact run_of_stack_le wider fits
  · exact (run_of_stack_le narrower fits').symm

/-- Bounds for the stacks of two callers under the same settings. -/
structure SameLimits (bounds bounds' : Bounds) : Prop where
  maxLength : bounds'.maxLength = bounds.maxLength
  maxDepth : bounds'.maxDepth = bounds.maxDepth

theorem SameLimits.evaluate_eq {bounds bounds' : Bounds} (same : SameLimits bounds bounds')
    {value : Value} {limit : Option Int} (fits : (evaluate bounds value limit).Fits)
    (fits' : (evaluate bounds' value limit).Fits) :
    evaluate bounds' value limit = evaluate bounds value limit := by
  unfold evaluate at fits fits' ⊢
  rw [same.maxLength, same.maxDepth] at fits' ⊢
  cases accepted : accept bounds.maxLength value with
  | error fault => rfl
  | ok text =>
    rw [accepted] at fits fits'
    exact run_of_stack fits fits'

theorem SameLimits.answer_eq {bounds bounds' : Bounds} (same : SameLimits bounds bounds')
    {value : Value} (fits : (evaluate bounds value none).Fits)
    (fits' : (evaluate bounds' value none).Fits) :
    Answer.evaluate bounds' value = Answer.evaluate bounds value := by
  rw [Answer.evaluate, Answer.evaluate, same.evaluate_eq fits fits']

theorem sameLimits_of_bounds? {settings : Settings} {stack stack' : Nat} {bounds bounds' : Bounds}
    (bounded : settings.bounds? stack = some bounds)
    (bounded' : settings.bounds? stack' = some bounds') :
    SameLimits bounds bounds' := by
  obtain ⟨limit, given, made⟩ := Option.bind_eq_some_iff.mp bounded
  obtain ⟨limit', given', made'⟩ := Option.bind_eq_some_iff.mp bounded'
  obtain rfl := Option.some.inj (given.symm.trans given')
  split at made
  next =>
    split at made'
    next =>
      obtain rfl := Option.some.inj made
      obtain rfl := Option.some.inj made'
      exact ⟨rfl, rfl⟩
    next => cases made'
  next => cases made

theorem run_of_limit_lt {lower upper : Int} (positive : 0 ≤ lower) (lt : lower < upper)
    {text : String} {fault fault' : Fault} (failed : (run lower stack text).result = .error fault)
    (failed' : (run upper stack text).result = .error fault') (nested : fault.cause.kind = .nesting)
    (nested' : fault'.cause.kind = .nesting) (sufficient : fault.cause ≠ .stackExhausted)
    (sufficient' : fault'.cause ≠ .stackExhausted) :
    ∃ position position', fault.position = some position ∧ fault'.position = some position' ∧
      position < position' := by
  obtain ⟨_, position, named⟩ := position_of_nested failed nested sufficient
  obtain ⟨held, position', named'⟩ := position_of_nested failed' nested' sufficient'
  refine ⟨position, position', named, named', ?_⟩
  have first := run_result_eq_error.mp failed
  cases raised_run (Int.le_of_lt lt) (Nat.le_refl stack) text with
  | same _ allowed => exact absurd (Or.inl nested) (allowed fault first)
  | refused refusal _ past =>
    obtain rfl := Except.error.inj (refusal.symm.trans first)
    exact (past (by omega) position named).fault (run_result_eq_error.mp failed') nested' named'

theorem kind_of_accept {maxLength : Int} {value : Value} {fault : Fault}
    (refused : accept maxLength value = .error fault) : fault.cause.kind = .validation := by
  unfold accept at refused
  split at refused
  next =>
    split at refused
    · obtain rfl := Except.error.inj refused
      rfl
    · cases refused
  next =>
    obtain rfl := Except.error.inj refused
    rfl

/-- A higher limit changes nothing but the faults of nesting: any other outcome stays as it is, with
its notes, and a factor that is still refused lies further on. -/
theorem evaluate_of_limit_le (bounds : Bounds) (value : Value) (low high : Option Int)
    (le : low.getD bounds.maxDepth ≤ high.getD bounds.maxDepth) :
    ((∀ fault, (evaluate bounds value low).result = .error fault →
          fault.cause.kind ≠ .nesting ∧ fault.cause.kind ≠ .foreign) →
        evaluate bounds value high = evaluate bounds value low) ∧
      ∀ fault fault', (evaluate bounds value low).result = .error fault →
        (evaluate bounds value high).result = .error fault' →
        fault.cause.kind = .nesting → fault'.cause.kind = .nesting →
        fault.cause ≠ .stackExhausted → fault'.cause ≠ .stackExhausted →
        0 ≤ low.getD bounds.maxDepth → low.getD bounds.maxDepth < high.getD bounds.maxDepth →
        ∃ position position', fault.position = some position ∧ fault'.position = some position' ∧
          position < position' := by
  unfold evaluate
  cases accepted : accept bounds.maxLength value with
  | ok text =>
    refine ⟨fun other => run_of_room_le le (Nat.le_refl _) fun fault failed => ?_, ?_⟩
    · exact not_or.mpr (other fault failed)
    · intro fault fault' failed failed' nested nested' sufficient sufficient' positive lt
      exact run_of_limit_lt positive lt failed failed' nested nested' sufficient sufficient'
  | error refused =>
    refine ⟨fun _ => rfl, fun fault _ failed _ nested => ?_⟩
    obtain rfl : refused = fault := Except.error.inj failed
    simp [kind_of_accept accepted] at nested

theorem evaluate_of_limit_le_signs :
    evaluate .standard (.text "sin -x 4") (some 5) =
        evaluate .standard (.text "sin -x 4") (some 4) ∧
      ∃ fault fault' position position',
        (evaluate .standard (.text "sin -x 4") (some 1)).result = .error fault ∧
        (evaluate .standard (.text "sin -x 4") (some 2)).result = .error fault' ∧
        fault.cause = .tooDeep 1 ∧ fault'.cause = .tooDeep 2 ∧
        fault.position = some position ∧ fault'.position = some position' ∧
        position < position' := by
  have value : (evaluate .standard (.text "sin -x 4") (some 4)).result.isOk = true := rfl
  constructor
  · refine (evaluate_of_limit_le .standard (.text "sin -x 4") (some 4) (some 5) (by decide)).1 ?_
    intro fault failed
    rw [failed] at value
    cases value
  · have one : (evaluate .standard (.text "sin -x 4") (some 1)).result =
        .error ⟨.tooDeep 1, some 4, some '-'⟩ := rfl
    have two : (evaluate .standard (.text "sin -x 4") (some 2)).result =
        .error ⟨.tooDeep 2, some 5, some 'x'⟩ := rfl
    obtain ⟨position, position', named, named', further⟩ :=
      (evaluate_of_limit_le .standard (.text "sin -x 4") (some 1) (some 2) (by decide)).2
        _ _ one two rfl rfl (by simp) (by simp) (by decide) (by decide)
    exact ⟨_, _, position, position', one, two, rfl, rfl, named, named', further⟩

end Reckoner.Evaluator
