import Reckoner.Proofs.Reading.Production

/-!
No step looks further than the character at which it stops. What a step does is settled by the text
that it reads and by this one character, whatever text stands behind it, and a fault names the place
where it was settled or the number that ends there.
-/
namespace Reckoner.Evaluator

open Scan

/-- Two cursors with as much behind them and the same character to come. -/
structure Alike (first second : Cursor) : Prop where
  position_eq : first.position = second.position
  head_eq : first.unread.head? = second.unread.head?

/-- A fault that was settled at a place: it names this place or a malformed number that ends there,
or none at all. -/
inductive SettledAt (fault : Fault) (start place : Cursor) : Prop where
  | nowhere (absent : fault.position = none)
  | here (other : fault.cause.kind ≠ .numberFormat) (named : fault.position = some place.position)
  | number {text token : List Char} {before : Cursor} (passed : start.Passes text before)
      (taken : before.takeWhile Cursor.isNumberChar = (token, place))
      (malformed : fault.cause.kind = .numberFormat) (named : fault.position = some before.position)

/-- A step ends in the same way on every text that agrees with this one up to the character at the
place where it stops. -/
inductive Settled {α : Type} (step : Scan α) (start : Cursor) : Prop where
  | value {text : List Char} {place : Cursor} (notes : List Note) (value : α)
      (passed : start.Passes text place)
      (same : ∀ other last, other.Passes text last → Alike last place →
        step other = ⟨notes, .ok (value, last)⟩)
  | fault {text : List Char} {place : Cursor} (notes : List Note) (fault : Fault)
      (passed : start.Passes text place) (settled : SettledAt fault start place)
      (same : ∀ other last, other.Passes text last → Alike last place →
        step other = ⟨notes, .error fault⟩)

variable {α β : Type} {step : Scan α} {after : α → Scan β} {start middle place last other : Cursor}
  {text : List Char} {fault : Fault}

theorem Alike.refl (cursor : Cursor) : Alike cursor cursor := ⟨rfl, rfl⟩

theorem Alike.of_passes {first second first' second' : Cursor} (alike : Alike first' second')
    (passed : first.Passes text first') (passed' : second.Passes text second') :
    Alike first second where
  position_eq := by
    have ends := passed.position_eq
    rw [alike.position_eq, passed'.position_eq] at ends
    exact (Nat.add_right_cancel ends).symm
  head_eq := by
    rw [passed.unread_eq, passed'.unread_eq, List.head?_append, List.head?_append, alike.head_eq]

theorem Alike.of_passes_ne_nil {first second first' second' : Cursor} (present : text ≠ [])
    (same : first.position = second.position) (passed : first.Passes text first')
    (passed' : second.Passes text second') : Alike first second where
  position_eq := same
  head_eq := by
    obtain ⟨c, rest, rfl⟩ := List.exists_cons_of_ne_nil present
    rw [passed.unread_eq, passed'.unread_eq]
    rfl

theorem skipSpaces_of_alike {count : Nat} (passed : other.Passes (spaces count) last)
    (alike : Alike last start.skipSpaces) :
    other.skipSpaces = last ∧ other.upcoming = start.upcoming := by
  have visible : last.unread.head? ≠ some ' ' := by
    rw [alike.head_eq]
    exact start.skipSpaces_stops
  have skipped : other.skipSpaces = last := by
    rw [Cursor.skipSpaces_of_passes passed, Cursor.skipSpaces_of_head visible]
  exact ⟨skipped, by rw [Cursor.upcoming, skipped, alike.head_eq, Cursor.upcoming]⟩

theorem takeWhile_of_alike {holds : Char → Bool} {run : List Char}
    (taken : start.takeWhile holds = (run, place)) (passed : other.Passes run last)
    (alike : Alike last place) : other.takeWhile holds = (run, last) := by
  have inside := @Cursor.holds_of_mem_takeWhile start holds
  have stops := @Cursor.takeWhile_stops start holds
  rw [taken] at inside stops
  exact Cursor.takeWhile_of_passes holds passed (fun _ member => inside member)
    (fun _ head => stops (alike.head_eq.symm.trans head))

theorem SettledAt.of_passes (passed : start.Passes text middle)
    (settled : SettledAt fault middle place) : SettledAt fault start place := by
  cases settled with
  | nowhere absent => exact .nowhere absent
  | here other named => exact .here other named
  | number further taken malformed named =>
    exact .number (passed.append further) taken malformed named

/-! Steps that make up the others. -/

theorem Settled.congr {step' : Scan α} (settled : Settled step' start)
    (same : ∀ other, Alike other start → step other = step' other) : Settled step start := by
  cases settled with
  | value notes value passed ends =>
    refine .value notes value passed fun other last passed' alike => ?_
    rw [same other (alike.of_passes passed' passed)]
    exact ends other last passed' alike
  | fault notes fault passed settled ends =>
    refine .fault notes fault passed settled fun other last passed' alike => ?_
    rw [same other (alike.of_passes passed' passed)]
    exact ends other last passed' alike

theorem Settled.yields {value : α} (settled : Settled step start)
    (run : Yields step start value place) :
    ∃ text, start.Passes text place ∧
      ∀ other last, other.Passes text last → Alike last place → Yields step other value last := by
  cases settled with
  | value notes value' passed same =>
    have run' := same _ _ passed (Alike.refl _)
    rw [Yields, run'] at run
    cases run
    exact ⟨_, passed, fun other last passed' alike => by rw [Yields, same other last passed' alike]⟩
  | fault notes fault passed settled same =>
    have run' := same _ _ passed (Alike.refl _)
    rw [Yields, run'] at run
    cases run

theorem settled_pure (value : α) (start : Cursor) : Settled (pure value) start := by
  refine .value [] value (.nil start) fun other last passed _ => ?_
  rw [← (Cursor.Passes.nil other).last_eq passed]
  rfl

theorem settled_refuse {cause : Cursor → Fault} (settled : SettledAt (cause start) start start)
    (same : ∀ other, Alike other start → cause other = cause start) :
    Settled (refuse cause : Scan α) start := by
  refine .fault [] (cause start) (.nil start) settled fun other last passed alike => ?_
  rw [refuse, same other (alike.of_passes passed (.nil start))]

theorem settled_conclude (name : String) (position : Nat) (argument : Float) (start : Cursor) :
    Settled (conclude name position argument) start := by
  have same : ∀ other last, other.Passes [] last → Alike last start →
      conclude name position argument other =
        ⟨(conclude name position argument start).notes,
          .ok ((Function.ofName name).apply argument, last)⟩ := by
    intro other last passed _
    rw [← (Cursor.Passes.nil other).last_eq passed]
    rfl
  exact .value _ _ (.nil start) same

theorem settled_takeWhile (holds : Char → Bool) (start : Cursor) :
    Settled (takeWhile holds) start := by
  have passed := Cursor.passes_takeWhile start holds
  rcases taken : start.takeWhile holds with ⟨run, place⟩
  rw [taken] at passed
  have same : ∀ other last, other.Passes run last → Alike last place →
      takeWhile holds other = ⟨[], .ok (run, last)⟩ := by
    intro other last passed' alike
    rw [takeWhile, move, takeWhile_of_alike taken passed' alike]
  exact .value _ _ passed same

theorem settled_eat (c : Char) (start : Cursor) : Settled (eat c) start := by
  by_cases ahead : start.upcoming = some c
  · obtain ⟨text, _, passed, eaten⟩ := Cursor.exists_text_of_upcoming ahead
    have same : ∀ other last, other.Passes text last → Alike last start.skipSpaces.advance →
        eat c other = ⟨[], .ok (true, last)⟩ := by
      intro other last passed' _
      obtain ⟨found, ends⟩ := eaten other last passed'
      rw [eat, move, Cursor.eat_eq, if_pos found, ends]
    exact .value _ _ passed same
  · obtain ⟨count, passed⟩ := Cursor.passes_skipSpaces start
    have same : ∀ other last, other.Passes (spaces count) last → Alike last start.skipSpaces →
        eat c other = ⟨[], .ok (false, last)⟩ := by
      intro other last passed' alike
      obtain ⟨skipped, shown⟩ := skipSpaces_of_alike passed' alike
      rw [eat, move, Cursor.eat_eq, if_neg (shown ▸ ahead), skipped]
    exact .value _ _ passed same

theorem Settled.bind (first : Settled step start)
    (later : ∀ value place, Yields step start value place → Settled (after value) place) :
    Settled (step >>= after) start := by
  cases first with
  | fault notes fault passed settled same =>
    refine .fault notes fault passed settled fun other last read alike => ?_
    change (step other).andThen after = _
    rw [same other last read alike]
    rfl
  | @value text place notes value passed same =>
    have run : Yields step start value place := by
      rw [Yields, same start place passed (Alike.refl place)]
    cases later value place run with
    | @value text' place' notes' value' passed' same' =>
      -- The first step sees the same character in both texts: the second one's text, or the end's.
      have ends : ∀ other last, other.Passes (text ++ text') last → Alike last place' →
          (step >>= after) other = ⟨notes ++ notes', .ok (value', last)⟩ := by
        intro other last read alike
        obtain ⟨middle, before, behind⟩ := read.split
        change (step other).andThen after = _
        rw [same other middle before (alike.of_passes behind passed'), Outcome.andThen,
          same' middle last behind alike]
      exact .value _ _ (passed.append passed') ends
    | @fault text' place' notes' fault passed' settled same' =>
      have ends : ∀ other last, other.Passes (text ++ text') last → Alike last place' →
          (step >>= after) other = ⟨notes ++ notes', .error fault⟩ := by
        intro other last read alike
        obtain ⟨middle, before, behind⟩ := read.split
        change (step other).andThen after = _
        rw [same other middle before (alike.of_passes behind passed'), Outcome.andThen,
          same' middle last behind alike]
      exact .fault _ _ (passed.append passed') (settled.of_passes passed) ends

theorem Settled.ite {condition : Prop} [Decidable condition] {yes no : Scan α}
    (first : Settled yes start) (second : Settled no start) :
    Settled (if condition then yes else no) start := by
  split
  · exact first
  · exact second

theorem settled_refuse_atCursor {cause : Cause} (other : cause.kind ≠ .numberFormat)
    (start : Cursor) : Settled (refuse (Fault.atCursor cause) : Scan α) start := by
  refine settled_refuse (.here other rfl) fun other alike => ?_
  rw [Fault.atCursor, alike.position_eq, alike.head_eq]
  rfl

theorem settled_unexpected (start : Cursor) : Settled (unexpected : Scan α) start := by
  refine settled_refuse (.here (by simp [Fault.atCursor, Cause.kind]) rfl) fun other alike => ?_
  rw [Fault.atCursor, alike.position_eq, alike.head_eq]
  rfl

theorem settled_nestingFault (limit : Int) (stack : Nat) (start : Cursor) :
    Settled (refuse (nestingFault limit stack) : Scan α) start := by
  by_cases beyond : (stack : Int) < limit
  · have exhausted : ∀ cursor, nestingFault limit stack cursor =
        ⟨.stackExhausted, some cursor.position, none⟩ := fun cursor => if_pos beyond
    refine settled_refuse (.here (by simp [exhausted, Cause.kind]) (by rw [exhausted]))
      fun other alike => ?_
    rw [exhausted, exhausted, alike.position_eq]
  · cases writable : Numeral.isWritable limit with
    | true =>
      rw [funext (nestingFault_of_isWritable (Int.not_lt.mp beyond) writable)]
      exact settled_refuse_atCursor (by simp [Cause.kind]) start
    | false =>
      have unnamed := nestingFault_of_not_isWritable (Int.not_lt.mp beyond) writable
      exact settled_refuse (.nowhere (by rw [unnamed]; rfl)) fun other _ => by rw [unnamed, unnamed]

/-! Loops. -/

theorem settled_operator? (operators : List Operator) (start : Cursor) :
    Settled (operator? operators) start := by
  induction operators generalizing start with
  | nil => exact settled_pure none start
  | cons operator others ih =>
    refine (settled_eat operator.symbol start).bind fun met place _ => ?_
    exact .ite (settled_pure _ place) (ih place)

section

variable {first : Operator} {others : List Operator} {operand : Scan Float}

theorem further_eq (forward : Advances operand) (value : Float) :
    further (first :: others) operand value =
      operator? (first :: others) >>= fun found =>
        match found with
        | some operator => operand >>= fun right =>
            further (first :: others) operand (operator.apply value right)
        | none => pure value := by
  funext cursor
  rw [further_apply forward]
  change _ = (operator? (first :: others) cursor).andThen _
  rw [operator?_apply]
  cases operatorAhead (first :: others) cursor <;> rfl

theorem settled_further (forward : Advances operand) (settled : ∀ start, Settled operand start)
    (value : Float) (start : Cursor) : Settled (further (first :: others) operand value) start := by
  induction value, start using loop_induction (first :: others) forward with
  | round value start ih =>
    rw [further_eq forward]
    refine (settled_operator? _ start).bind fun found place run => ?_
    cases found with
    | none => exact settled_pure value place
    | some operator =>
      rw [Yields, operator?_apply] at run
      cases ahead : operatorAhead (first :: others) start with
      | none => simp [ahead] at run
      | some operator' =>
        simp only [ahead, Except.ok.injEq, Prod.mk.injEq, Option.some.injEq] at run
        obtain ⟨rfl, rfl⟩ := run
        exact (settled _).bind fun right last within => ih _ _ _ ahead within

theorem settled_chain (forward : Advances operand) (settled : ∀ start, Settled operand start)
    (start : Cursor) : Settled (chain (first :: others) operand) start := by
  rw [chain_eq]
  exact (settled start).bind fun value place _ => settled_further forward settled value place

end

/-! Productions. -/

section

variable {inner : Scan Float}

theorem settled_expression (forward : Advances inner) (settled : ∀ start, Settled inner start)
    (start : Cursor) : Settled (expression inner) start :=
  settled_chain (advances_term forward) (settled_chain forward settled) start

theorem settled_enclosed (forward : Advances inner) (settled : ∀ start, Settled inner start)
    (argumentOf : Option String) (start : Cursor) : Settled (enclosed inner argumentOf) start := by
  refine (settled_expression forward settled start).bind fun value place _ => ?_
  refine (settled_eat ')' place).bind fun met place' _ => ?_
  exact .ite (settled_pure value place') (settled_refuse_atCursor (by simp [Cause.kind]) place')

theorem settled_number (start : Cursor) : Settled number start := by
  have passed := Cursor.passes_takeWhile start Cursor.isNumberChar
  rcases taken : start.takeWhile Cursor.isNumberChar with ⟨token, place⟩
  rw [taken] at passed
  cases read : Numeral.decimal? token with
  | some decimal =>
    have same : ∀ other last, other.Passes token last → Alike last place →
        number other = ⟨[], .ok (decimal.toFloat false, last)⟩ := by
      intro other last passed' alike
      simp only [number_apply, takeWhile_of_alike taken passed' alike, read]
    exact .value _ _ passed same
  | none =>
    have same : ∀ other last, other.Passes token last → Alike last place → number other =
        ⟨[], .error (Fault.atCursor (.malformedNumber (String.ofList token)) start)⟩ := by
      intro other last passed' alike
      have alike' := alike.of_passes passed' passed
      simp only [number_apply, takeWhile_of_alike taken passed' alike, read, Fault.atCursor,
        alike'.position_eq, alike'.head_eq]
    exact .fault _ _ passed (.number (.nil start) taken rfl rfl) same

theorem settled_application (forward : Advances inner) (settled : ∀ start, Settled inner start)
    (start : Cursor) : Settled (application inner) start := by
  have parts : Settled (takeWhile Cursor.isLetter >>= fun letters => eat '(' >>= fun met =>
      (if met = true then enclosed inner (some (String.ofList letters)) else inner) >>=
        conclude (String.ofList letters) start.position) start := by
    refine (settled_takeWhile _ start).bind fun letters middle _ => ?_
    refine (settled_eat '(' middle).bind fun met place _ => ?_
    refine Settled.bind (.ite (settled_enclosed forward settled _ place) (settled place)) ?_
    exact fun argument last _ => settled_conclude _ _ argument last
  refine parts.congr fun other alike => ?_
  rw [takeWhile_bind_apply, eat_bind_apply, ← alike.position_eq]
  by_cases ahead : (other.takeWhile Cursor.isLetter).2.upcoming = some '('
  · rw [application_apply_of_parenthesis rfl ahead, if_pos ahead]
    rfl
  · rw [application_apply_of_ne_parenthesis rfl ahead, if_neg ahead]
    rfl

theorem settled_primary (forward : Advances inner) (settled : ∀ start, Settled inner start)
    (start : Cursor) : Settled (primary inner) start := by
  refine (settled_eat '(' start).bind fun met place _ => ?_
  refine .ite (settled_enclosed forward settled none place) ?_
  cases text : place.unread with
  | nil =>
    refine (settled_unexpected place).congr fun other alike => ?_
    have ended : other.unread = [] := by simpa [text] using alike.head_eq
    rw [cursor_bind_apply, ended]
  | cons c rest =>
    have chosen : Settled (if Cursor.isNumberChar c then number
        else if Cursor.isLetter c then application inner else unexpected) place :=
      .ite (settled_number place)
        (.ite (settled_application forward settled place) (settled_unexpected place))
    refine chosen.congr fun other alike => ?_
    have head : other.unread.head? = some c := by rw [alike.head_eq, text]; rfl
    obtain ⟨rest', text'⟩ := List.head?_eq_some_iff.mp head
    rw [cursor_bind_apply, text']

theorem settled_factor (limit : Int) (stack room : Nat) (start : Cursor) :
    Settled (factor (nestingFault limit stack) room) start := by
  induction room generalizing start with
  | zero => exact settled_nestingFault limit stack start
  | succ room ih =>
    refine (settled_eat '+' start).bind fun met place _ => .ite (ih place) ?_
    refine (settled_eat '-' place).bind fun met place _ => .ite ?_ ?_
    · exact (ih place).bind fun x last _ => settled_pure _ last
    · refine (settled_primary (advances_factor _ room) ih place).bind fun base place _ => ?_
      refine (settled_eat '^' place).bind fun met place _ => .ite ?_ (settled_pure base place)
      exact (ih place).bind fun x last _ => settled_pure _ last

theorem settled_ending (value : Float) (place : Cursor) :
    Settled (cursor >>= fun cursor => if cursor.atEnd = true then pure value else unexpected :
      Scan Float) place := by
  have chosen : Settled (if place.unread.head? = none then pure value else unexpected) place :=
    .ite (settled_pure value place) (settled_unexpected place)
  refine chosen.congr fun other alike => ?_
  rw [ending_apply, ← alike.head_eq]
  cases text : other.unread with
  | nil => rfl
  | cons c rest => simp [unexpected, refuse, text]

theorem settled_whole (limit : Int) (stack room : Nat) (start : Cursor) :
    Settled (whole (nestingFault limit stack) room) start := by
  have read := settled_expression (advances_factor (nestingFault limit stack) room)
    (settled_factor limit stack room) start
  exact read.bind fun value place _ => settled_ending value place

end

theorem exists_alike {first second : List Char} (passed : (Cursor.ofText first).Passes text place)
    (inside : place.position < first.length)
    (same : second.take (place.position + 1) = first.take (place.position + 1)) :
    ∃ last, (Cursor.ofText second).Passes text last ∧ Alike last place := by
  obtain ⟨parts, position⟩ := Cursor.split_of_passes passed
  obtain ⟨c, rest, behind⟩ : ∃ c rest, place.unread = c :: rest := by
    apply List.exists_cons_of_ne_nil
    intro ended
    rw [parts, ended, List.append_nil] at inside
    omega
  have read : first.take (place.position + 1) = text ++ [c] := by
    rw [parts, behind, position, List.take_length_add_append]
    rfl
  have parts' : second = text ++ (c :: second.drop (place.position + 1)) := by
    have split := List.take_append_drop (place.position + 1) second
    rw [same, read, List.append_assoc] at split
    exact split.symm
  refine ⟨⟨place.position, c :: second.drop (place.position + 1)⟩, ⟨parts', ?_⟩, ⟨rfl, ?_⟩⟩
  · exact passed.position_eq
  · rw [behind]
    rfl

/-- Where a fault is settled: at the place that it names, or behind the run of digits and points
that begins there if it is about a number. -/
def settledPosition (text : List Char) (fault : Fault) (position : Nat) : Nat :=
  if fault.cause.kind = .numberFormat then
    position + ((text.drop position).takeWhile Cursor.isNumberChar).length
  else position

theorem settledPosition_eq {first : List Char} {position : Nat}
    (settled : SettledAt fault (Cursor.ofText first) place)
    (named : fault.position = some position) :
    settledPosition first fault position = place.position := by
  cases settled with
  | nowhere absent => simp [absent] at named
  | here other named' =>
    rw [settledPosition, if_neg other]
    exact Option.some.inj (named.symm.trans named')
  | @number text' token before passed' taken malformed named' =>
    have same : position = before.position := Option.some.inj (named.symm.trans named')
    obtain ⟨parts, length⟩ := Cursor.split_of_passes passed'
    have rest : first.drop position = before.unread := by
      rw [parts, same, length, List.drop_left]
    rw [settledPosition, if_pos malformed, rest, same]
    exact congrArg (fun taken => taken.2.position) taken

theorem run_eq_of_take {limit : Int} {stack : Nat} {first second : String} {position : Nat}
    (failed : (run limit stack first).result = .error fault)
    (named : fault.position = some position)
    (inside : settledPosition first.toList fault position < first.toList.length)
    (same : second.toList.take (settledPosition first.toList fault position + 1) =
      first.toList.take (settledPosition first.toList fault position + 1)) :
    run limit stack second = run limit stack first := by
  have settled := settled_whole limit stack (min limit.toNat stack) (Cursor.ofText first.toList)
  cases settled with
  | value notes value passed ends =>
    have run' := ends _ _ passed (Alike.refl _)
    simp [run, run', Except.map] at failed
  | @fault text place notes fault' passed settled ends =>
    have run' := ends _ _ passed (Alike.refl _)
    have same' : fault' = fault := by simpa [run, run', Except.map] using failed
    subst same'
    rw [settledPosition_eq settled named] at inside same
    obtain ⟨last, passed', alike⟩ := exists_alike passed inside same
    rw [run, run, run', ends _ _ passed' alike]

/-- A fault is settled by the text up to the character where it is noticed. A text that begins in
the same way has the same fault, and the same names were noted before it. -/
theorem evaluate_of_take (bounds : Bounds) (limit : Option Int) (first second : String)
    (fault : Fault) (position : Nat) (uncapped : bounds.maxLength ≤ 0)
    (failed : (evaluate bounds (.text first) limit).result = .error fault)
    (named : fault.position = some position)
    (inside : settledPosition first.toList fault position < first.toList.length)
    (same : second.toList.take (settledPosition first.toList fault position + 1) =
      first.toList.take (settledPosition first.toList fault position + 1)) :
    (evaluate bounds (.text second) limit).result = .error fault ∧
      (evaluate bounds (.text second) limit).notes =
        (evaluate bounds (.text first) limit).notes := by
  rw [evaluate_of_uncapped uncapped] at failed ⊢
  rw [evaluate_of_uncapped uncapped, run_eq_of_take failed named inside same]
  exact ⟨failed, rfl⟩

theorem evaluate_of_take_points :
    (evaluate .standard (.text "1..2+x") none).result =
        .error ⟨.malformedNumber "1..2", some 0, some '1'⟩ ∧
      (evaluate .standard (.text "1..2+(") none).result =
        .error ⟨.malformedNumber "1..2", some 0, some '1'⟩ := by
  have failed : (evaluate .standard (.text "1..2+x") none).result =
      .error ⟨.malformedNumber "1..2", some 0, some '1'⟩ := rfl
  exact ⟨failed, (evaluate_of_take .standard none "1..2+x" "1..2+(" _ 0 (by decide) failed rfl
    (by decide) (by decide)).1⟩

end Reckoner.Evaluator
