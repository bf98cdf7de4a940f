import Reckoner.Proofs.Reading.Loop

/-!
Each production of the evaluator at one cursor: which branch the first character behind the spaces
selects, and how the production then ends in a value or in a fault.
-/
namespace Reckoner

def Fault.Deep (fault : Fault) : Prop :=
  fault.cause.kind = .nesting ∨ fault.cause.kind = .foreign

namespace Evaluator

open Scan

variable {inner : Scan Float} {tooDeep : Cursor → Fault} {room : Nat} {start middle last : Cursor}
  {stack : Nat} {value : Float} {fault : Fault} {argumentOf : Option String} {letters : List Char}

theorem yields_eat_then {c : Char} {yes no : Scan Float} :
    Yields (eat c >>= fun met => if met = true then yes else no) start value last ↔
      (start.upcoming = some c ∧ Yields yes start.skipSpaces.advance value last) ∨
        (start.upcoming ≠ some c ∧ Yields no start.skipSpaces value last) := by
  unfold Yields
  rw [eat_bind_apply]
  by_cases ahead : start.upcoming = some c <;> simp [ahead]

theorem fails_eat_then {c : Char} {yes no : Scan Float} :
    Fails (eat c >>= fun met => if met = true then yes else no) start fault ↔
      (start.upcoming = some c ∧ Fails yes start.skipSpaces.advance fault) ∨
        (start.upcoming ≠ some c ∧ Fails no start.skipSpaces fault) := by
  unfold Fails
  rw [eat_bind_apply]
  by_cases ahead : start.upcoming = some c <;> simp [ahead]

theorem yields_map {change : Float → Float} :
    Yields (inner >>= fun x => pure (change x)) start value last ↔
      ∃ x, Yields inner start x last ∧ value = change x := by
  rw [yields_bind]
  constructor
  · intro given
    obtain ⟨x, place, run, ends⟩ := given
    obtain ⟨rfl, rfl⟩ := yields_pure.mp ends
    exact ⟨x, run, rfl⟩
  · intro given
    obtain ⟨x, run, rfl⟩ := given
    exact ⟨x, last, run, yields_pure.mpr ⟨rfl, rfl⟩⟩

theorem fails_map {change : Float → Float} :
    Fails (inner >>= fun x => pure (change x)) start fault ↔ Fails inner start fault := by
  rw [fails_bind]
  constructor
  · intro given
    rcases given with first | ⟨_, _, _, never⟩
    · exact first
    · exact absurd never not_fails_pure
  · exact Or.inl

/-! An expression up to its closing parenthesis. -/

theorem yields_enclosed :
    Yields (enclosed inner argumentOf) start value last ↔
      ∃ place, Yields (expression inner) start value place ∧ place.upcoming = some ')' ∧
        last = place.skipSpaces.advance := by
  rw [enclosed, yields_bind]
  constructor
  · intro given
    obtain ⟨x, place, run, closing⟩ := given
    rcases yields_eat_then.mp closing with ⟨ahead, ends⟩ | ⟨_, never⟩
    · obtain ⟨rfl, rfl⟩ := yields_pure.mp ends
      exact ⟨place, run, ahead, rfl⟩
    · exact absurd never not_yields_refuse
  · intro given
    obtain ⟨place, run, ahead, rfl⟩ := given
    exact ⟨value, place, run, yields_eat_then.mpr (Or.inl ⟨ahead, yields_pure.mpr ⟨rfl, rfl⟩⟩)⟩

theorem fails_enclosed :
    Fails (enclosed inner argumentOf) start fault ↔
      Fails (expression inner) start fault ∨
        ∃ x place, Yields (expression inner) start x place ∧ place.upcoming ≠ some ')' ∧
          fault = Fault.atCursor (.unclosed argumentOf) place.skipSpaces := by
  rw [enclosed, fails_bind]
  apply or_congr_right
  constructor
  · intro given
    obtain ⟨x, place, run, closing⟩ := given
    rcases fails_eat_then.mp closing with ⟨_, never⟩ | ⟨missing, refused⟩
    · exact absurd never not_fails_pure
    · exact ⟨x, place, run, missing, (fails_refuse.mp refused).symm⟩
  · intro given
    obtain ⟨x, place, run, missing, rfl⟩ := given
    exact ⟨x, place, run, fails_eat_then.mpr (Or.inr ⟨missing, fails_refuse.mpr rfl⟩)⟩

/-! A number. -/

theorem number_apply (start : Cursor) :
    number start =
      match Numeral.decimal? (start.takeWhile Cursor.isNumberChar).1 with
      | some decimal =>
        ⟨[], .ok (decimal.toFloat false, (start.takeWhile Cursor.isNumberChar).2)⟩
      | none => ⟨[], .error (Fault.atCursor (.malformedNumber
          (String.ofList (start.takeWhile Cursor.isNumberChar).1)) start)⟩ := by
  rw [number, cursor_bind_apply, takeWhile_bind_apply]
  cases Numeral.decimal? (start.takeWhile Cursor.isNumberChar).1 <;> rfl

theorem yields_number :
    Yields number start value last ↔
      ∃ decimal, Numeral.decimal? (start.takeWhile Cursor.isNumberChar).1 = some decimal ∧
        value = decimal.toFloat false ∧ last = (start.takeWhile Cursor.isNumberChar).2 := by
  rw [Yields, number_apply]
  cases Numeral.decimal? (start.takeWhile Cursor.isNumberChar).1 with
  | none => simp
  | some decimal => simp [eq_comm]

theorem fails_number :
    Fails number start fault ↔
      Numeral.decimal? (start.takeWhile Cursor.isNumberChar).1 = none ∧
        fault = Fault.atCursor (.malformedNumber
          (String.ofList (start.takeWhile Cursor.isNumberChar).1)) start := by
  rw [Fails, number_apply]
  cases Numeral.decimal? (start.takeWhile Cursor.isNumberChar).1 with
  | none => simp [eq_comm]
  | some decimal => simp

/-! A name and its argument. -/

/-- What is left to do with a name once its argument is known. -/
def conclude (name : String) (place : Nat) (argument : Float) : Scan Float := fun cursor =>
  ⟨if Function.ofName name = .unknown then [⟨name, place⟩] else [],
    .ok ((Function.ofName name).apply argument, cursor)⟩

theorem conclude_eq (name : String) (place : Nat) :
    conclude name place = fun argument => do
      if Function.ofName name = .unknown then note ⟨name, place⟩
      return (Function.ofName name).apply argument := by
  funext argument cursor
  unfold conclude
  split <;> rfl

theorem application_apply_of_parenthesis
    (taken : start.takeWhile Cursor.isLetter = (letters, middle))
    (ahead : middle.upcoming = some '(') :
    application inner start =
      (enclosed inner (some (String.ofList letters)) >>=
        conclude (String.ofList letters) start.position) middle.skipSpaces.advance := by
  rw [application, cursor_bind_apply, takeWhile_bind_apply, taken, eat_bind_apply, if_pos ahead,
    conclude_eq]
  rfl

theorem application_apply_of_ne_parenthesis
    (taken : start.takeWhile Cursor.isLetter = (letters, middle))
    (other : middle.upcoming ≠ some '(') :
    application inner start =
      (inner >>= conclude (String.ofList letters) start.position) middle.skipSpaces := by
  rw [application, cursor_bind_apply, takeWhile_bind_apply, taken, eat_bind_apply, if_neg other,
    conclude_eq]
  rfl

theorem yields_conclude {name : String} {place : Nat} :
    Yields (inner >>= conclude name place) start value last ↔
      ∃ x, Yields inner start x last ∧ value = (Function.ofName name).apply x := by
  rw [yields_bind]
  constructor
  · intro given
    obtain ⟨x, middle, run, ends⟩ := given
    have same : (Function.ofName name).apply x = value ∧ middle = last := by
      simpa [Yields, conclude] using ends
    obtain ⟨rfl, rfl⟩ := same
    exact ⟨x, run, rfl⟩
  · intro given
    obtain ⟨x, run, rfl⟩ := given
    exact ⟨x, last, run, rfl⟩

theorem fails_conclude {name : String} {place : Nat} :
    Fails (inner >>= conclude name place) start fault ↔ Fails inner start fault := by
  rw [fails_bind]
  constructor
  · intro given
    rcases given with first | ⟨_, _, _, never⟩
    · exact first
    · simp [Fails, conclude] at never
  · exact Or.inl

theorem yields_application (taken : start.takeWhile Cursor.isLetter = (letters, middle)) :
    Yields (application inner) start value last ↔
      ∃ x, value = (Function.ofName (String.ofList letters)).apply x ∧
        ((middle.upcoming = some '(' ∧
            Yields (enclosed inner (some (String.ofList letters))) middle.skipSpaces.advance x
              last) ∨
          (middle.upcoming ≠ some '(' ∧ Yields inner middle.skipSpaces x last)) := by
  by_cases ahead : middle.upcoming = some '('
  · rw [Yields, application_apply_of_parenthesis taken ahead, ← Yields, yields_conclude]
    simp [ahead, and_comm]
  · rw [Yields, application_apply_of_ne_parenthesis taken ahead, ← Yields, yields_conclude]
    simp [ahead, and_comm]

theorem fails_application (taken : start.takeWhile Cursor.isLetter = (letters, middle)) :
    Fails (application inner) start fault ↔
      (middle.upcoming = some '(' ∧
          Fails (enclosed inner (some (String.ofList letters))) middle.skipSpaces.advance fault) ∨
        (middle.upcoming ≠ some '(' ∧ Fails inner middle.skipSpaces fault) := by
  by_cases ahead : middle.upcoming = some '('
  · rw [Fails, application_apply_of_parenthesis taken ahead, ← Fails, fails_conclude]
    simp [ahead]
  · rw [Fails, application_apply_of_ne_parenthesis taken ahead, ← Fails, fails_conclude]
    simp [ahead]

/-! What an exponent may follow. -/

theorem primary_apply_of_parenthesis (ahead : start.upcoming = some '(') :
    primary inner start = enclosed inner none start.skipSpaces.advance := by
  rw [primary, eat_bind_apply, if_pos ahead]
  rfl

theorem primary_apply_of_ne_parenthesis (other : start.upcoming ≠ some '(') :
    primary inner start =
      match start.upcoming with
      | some c =>
        if Cursor.isNumberChar c then number start.skipSpaces
        else if Cursor.isLetter c then application inner start.skipSpaces
        else unexpected start.skipSpaces
      | none => unexpected start.skipSpaces := by
  rw [primary, eat_bind_apply, if_neg other, Cursor.upcoming]
  simp only [Bool.false_eq_true, ↓reduceIte]
  rw [cursor_bind_apply]
  cases start.skipSpaces.unread with
  | nil => rfl
  | cons c rest =>
    simp only [List.head?_cons]
    split
    · rfl
    · split <;> rfl

theorem primary_apply_of_number {c : Char} (ahead : start.upcoming = some c)
    (digit : Cursor.isNumberChar c = true) : primary inner start = number start.skipSpaces := by
  have other : start.upcoming ≠ some '(' := by
    rw [ahead]
    intro same
    cases same
    exact absurd digit (by decide)
  rw [primary_apply_of_ne_parenthesis other, ahead]
  simp [digit]

theorem primary_apply_of_letter {c : Char} (ahead : start.upcoming = some c)
    (letter : Cursor.isLetter c = true) :
    primary inner start = application inner start.skipSpaces := by
  have other : start.upcoming ≠ some '(' := by
    rw [ahead]
    intro same
    cases same
    exact absurd letter (by decide)
  have noDigit : Cursor.isNumberChar c ≠ true := by
    intro digit
    rw [Cursor.not_isLetter_of_isNumberChar digit] at letter
    cases letter
  rw [primary_apply_of_ne_parenthesis other, ahead]
  simp [noDigit, letter]

/-- A primary begins with a parenthesis, as a number or as a name; else it is unexpected. -/
theorem primary_cases (inner : Scan Float) (start : Cursor) :
    start.upcoming = some '(' ∨
      (∃ c, start.upcoming = some c ∧ Cursor.isNumberChar c = true) ∨
      (∃ c, start.upcoming = some c ∧ Cursor.isLetter c = true) ∨
      primary inner start = unexpected start.skipSpaces := by
  by_cases other : start.upcoming = some '('
  · exact Or.inl other
  · have apply := @primary_apply_of_ne_parenthesis inner start other
    cases ahead : start.upcoming with
    | none =>
      rw [ahead] at apply
      exact Or.inr (Or.inr (Or.inr apply))
    | some c =>
      by_cases digit : Cursor.isNumberChar c = true
      · exact Or.inr (Or.inl ⟨c, rfl, digit⟩)
      · by_cases letter : Cursor.isLetter c = true
        · exact Or.inr (Or.inr (Or.inl ⟨c, rfl, letter⟩))
        · rw [ahead] at apply
          exact Or.inr (Or.inr (Or.inr (by simpa [digit, letter] using apply)))

/-! A factor. -/

def powered (inner : Scan Float) : Scan Float :=
  primary inner >>= fun base =>
    eat '^' >>= fun met => if met = true then inner >>= fun x => pure (base.pow x) else pure base

theorem factor_apply_of_plus (ahead : start.upcoming = some '+') :
    factor tooDeep (room + 1) start = factor tooDeep room start.skipSpaces.advance := by
  rw [factor, eat_bind_apply, if_pos ahead]
  rfl

theorem factor_apply_of_minus (ahead : start.upcoming = some '-') :
    factor tooDeep (room + 1) start =
      (factor tooDeep room >>= fun x => pure (Binary64.negate x)) start.skipSpaces.advance := by
  have other : start.upcoming ≠ some '+' := by rw [ahead]; decide
  rw [factor, eat_bind_apply, if_neg other]
  simp only [Bool.false_eq_true, ↓reduceIte]
  rw [eat_bind_apply, Cursor.upcoming_skipSpaces, if_pos ahead, Cursor.skipSpaces_skipSpaces]
  rfl

theorem factor_apply_of_unsigned (plus : start.upcoming ≠ some '+')
    (minus : start.upcoming ≠ some '-') :
    factor tooDeep (room + 1) start = powered (factor tooDeep room) start.skipSpaces := by
  rw [factor, eat_bind_apply, if_neg plus]
  simp only [Bool.false_eq_true, ↓reduceIte]
  rw [eat_bind_apply, Cursor.upcoming_skipSpaces, if_neg minus, Cursor.skipSpaces_skipSpaces]
  rfl

theorem yields_powered :
    Yields (powered inner) start value last ↔
      ∃ base place, Yields (primary inner) start base place ∧
        ((place.upcoming = some '^' ∧
            ∃ x, Yields inner place.skipSpaces.advance x last ∧ value = base.pow x) ∨
          (place.upcoming ≠ some '^' ∧ value = base ∧ last = place.skipSpaces)) := by
  simp only [powered, @yields_bind Float Float (primary inner), yields_eat_then, yields_map,
    yields_pure, eq_comm]

theorem fails_powered :
    Fails (powered inner) start fault ↔
      Fails (primary inner) start fault ∨
        ∃ base place, Yields (primary inner) start base place ∧ place.upcoming = some '^' ∧
          Fails inner place.skipSpaces.advance fault := by
  simp only [powered, @fails_bind Float Float (primary inner), fails_eat_then, fails_map,
    not_fails_pure, and_false, or_false]

/-! No production moves backwards. -/

theorem advances_term (forward : Advances inner) : Advances (term inner) := advances_chain forward

theorem advances_expression (forward : Advances inner) : Advances (expression inner) :=
  advances_chain (advances_term forward)

theorem advances_enclosed (forward : Advances inner) : Advances (enclosed inner argumentOf) :=
  (advances_expression forward).bind fun value =>
    (advances_eat ')').bind fun _ => Advances.ite (advances_pure value) (advances_refuse _)

theorem advances_number : Advances number := by
  intro start value last run
  obtain ⟨_, _, _, rfl⟩ := yields_number.mp run
  exact ⟨_, Cursor.passes_takeWhile start Cursor.isNumberChar⟩

theorem advances_application (forward : Advances inner) : Advances (application inner) := by
  intro start value last run
  have named := Cursor.passes_takeWhile start Cursor.isLetter
  obtain ⟨x, _, ⟨ahead, within⟩ | ⟨_, within⟩⟩ := (yields_application rfl).mp run
  · obtain ⟨count, opening⟩ := Cursor.passes_advance_of_upcoming ahead
    obtain ⟨text, passed⟩ := advances_enclosed forward _ _ _ within
    exact ⟨_, (named.append opening).append passed⟩
  · obtain ⟨count, blank⟩ := Cursor.passes_skipSpaces (start.takeWhile Cursor.isLetter).2
    obtain ⟨text, passed⟩ := forward _ _ _ within
    exact ⟨_, (named.append blank).append passed⟩

theorem advances_primary (forward : Advances inner) : Advances (primary inner) := by
  refine (advances_eat '(').bind fun _ => Advances.ite (advances_enclosed forward) ?_
  refine advances_cursor.bind fun cursor => ?_
  cases cursor.unread with
  | nil => exact advances_refuse _
  | cons c rest =>
    exact Advances.ite advances_number
      (Advances.ite (advances_application forward) (advances_refuse _))

theorem advances_factor (tooDeep : Cursor → Fault) (room : Nat) :
    Advances (factor tooDeep room) := by
  induction room with
  | zero => exact advances_refuse tooDeep
  | succ room ih =>
    refine (advances_eat '+').bind fun _ => Advances.ite ih ?_
    refine (advances_eat '-').bind fun _ =>
      Advances.ite (ih.bind fun _ => advances_pure _) ?_
    refine (advances_primary ih).bind fun _ => (advances_eat '^').bind fun _ => ?_
    exact Advances.ite (ih.bind fun _ => advances_pure _) (advances_pure _)

/-! A factor without room. -/

theorem nestingFault_of_isWritable {limit : Int} (named : limit ≤ stack)
    (writable : Numeral.isWritable limit = true) (place : Cursor) :
    nestingFault limit stack place = Fault.atCursor (.tooDeep limit) place := by
  rw [nestingFault, if_neg (Int.not_lt.mpr named), if_pos writable]

theorem nestingFault_of_not_isWritable {limit : Int} (named : limit ≤ stack)
    (unwritable : Numeral.isWritable limit = false) (place : Cursor) :
    nestingFault limit stack place = Fault.ofInput .unwritableLimit := by
  simp [nestingFault, Int.not_lt.mpr named, unwritable]

theorem kind_nestingFault (limit : Int) (stack : Nat) (place : Cursor) :
    (nestingFault limit stack place).cause.kind = .nesting ∨
      nestingFault limit stack place = Fault.ofInput .unwritableLimit := by
  unfold nestingFault
  split
  · exact Or.inl rfl
  · split
    · exact Or.inl rfl
    · exact Or.inr rfl

theorem deep_nestingFault (limit : Int) (stack : Nat) (place : Cursor) :
    (nestingFault limit stack place).Deep :=
  (kind_nestingFault limit stack place).imp_right fun unnamed => by rw [unnamed]; rfl

theorem stopsAt_nestingFault (limit : Int) (stack : Nat) (place : Cursor) :
    StopsAt (nestingFault limit stack place) place := by
  intro position named
  unfold nestingFault at named
  split at named
  · exact (Option.some.inj named).symm
  · split at named
    · exact stopsAt_atCursor _ place position named
    · cases named

/-! A whole text. -/

theorem ending_apply (value : Float) (place : Cursor) :
    (cursor >>= fun cursor => if cursor.atEnd = true then pure value else unexpected : Scan Float)
        place =
      if place.unread = [] then (⟨[], .ok (value, place)⟩ : Outcome Float)
      else ⟨[], .error (Fault.atCursor (.unexpected place.unread.head?) place)⟩ := by
  rw [cursor_bind_apply]
  cases rest : place.unread with
  | nil => simp [Cursor.atEnd, rest, pure]
  | cons c others => simp [Cursor.atEnd, rest, unexpected, refuse]

theorem yields_whole :
    Yields (whole tooDeep room) start value last ↔
      Yields (expression (factor tooDeep room)) start value last ∧ last.unread = [] := by
  rw [whole, yields_bind]
  simp only [Yields, ending_apply]
  constructor
  · intro later
    obtain ⟨x, place, run, ends⟩ := later
    by_cases ended : place.unread = []
    · rw [if_pos ended] at ends
      cases ends
      exact ⟨run, ended⟩
    · rw [if_neg ended] at ends
      cases ends
  · intro whole
    obtain ⟨run, ended⟩ := whole
    exact ⟨value, last, run, by rw [if_pos ended]⟩

theorem fails_whole :
    Fails (whole tooDeep room) start fault ↔
      Fails (expression (factor tooDeep room)) start fault ∨
        ∃ x place, Yields (expression (factor tooDeep room)) start x place ∧ place.unread ≠ [] ∧
          fault = Fault.atCursor (.unexpected place.unread.head?) place := by
  rw [whole, fails_bind]
  apply or_congr_right
  simp only [Fails, ending_apply]
  constructor
  · intro later
    obtain ⟨x, place, run, ends⟩ := later
    by_cases ended : place.unread = []
    · rw [if_pos ended] at ends
      cases ends
    · rw [if_neg ended] at ends
      cases ends
      exact ⟨x, place, run, ended, rfl⟩
  · intro left
    obtain ⟨x, place, run, more, same⟩ := left
    exact ⟨x, place, run, by rw [if_neg more, same]⟩

theorem run_result_eq_ok {limit : Int} {text : String} :
    (run limit stack text).result = .ok value ↔
      ∃ last, Yields (whole (nestingFault limit stack) (min limit.toNat stack))
        (Cursor.ofText text.toList) value last := by
  unfold run Yields
  rcases whole (nestingFault limit stack) (min limit.toNat stack) (Cursor.ofText text.toList)
    with ⟨notes, _ | ⟨x, last⟩⟩ <;> simp [Except.map]

theorem run_result_eq_error {limit : Int} {text : String} :
    (run limit stack text).result = .error fault ↔
      Fails (whole (nestingFault limit stack) (min limit.toNat stack))
        (Cursor.ofText text.toList) fault := by
  unfold run Fails
  rcases whole (nestingFault limit stack) (min limit.toNat stack) (Cursor.ofText text.toList)
    with ⟨notes, _ | ⟨x, last⟩⟩ <;> simp [Except.map]

theorem evaluate_of_uncapped {bounds : Bounds} (uncapped : bounds.maxLength ≤ 0) (text : String)
    (limit : Option Int) :
    evaluate bounds (.text text) limit = run (limit.getD bounds.maxDepth) bounds.stack text := by
  have within : ¬(0 < bounds.maxLength ∧ bounds.maxLength < text.length) := by omega
  rw [evaluate, accept, if_neg within]

theorem run_of_evaluate_result {bounds : Bounds} {text : String} {limit : Option Int}
    (evaluated : (evaluate bounds (.text text) limit).result = .ok value) :
    (run (limit.getD bounds.maxDepth) bounds.stack text).result = .ok value := by
  rw [evaluate, accept] at evaluated
  by_cases long : 0 < bounds.maxLength ∧ bounds.maxLength < text.length
  · rw [if_pos long] at evaluated
    cases evaluated
  · rw [if_neg long] at evaluated
    exact evaluated

end Evaluator

end Reckoner
