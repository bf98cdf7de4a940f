import Mathlib.Data.List.Forall2
import Reckoner.Proofs.Grammar.Remark
import Reckoner.Proofs.Grammar.Soundness
import Reckoner.Proofs.Log.Message
import Reckoner.Proofs.Reading.Account
import Reckoner.Session

/-!
What an evaluation notes: the unknown names that it has applied, in the order in which their
arguments were complete. A text that is evaluated has been read as a phrase, whose unknown names are
all noted; of any other one a stem has been read.
-/
namespace Reckoner.Grammar

open Scan Evaluator

variable {inner : Scan Float} {room : Nat} {start last : Cursor} {notes : List Note}
  {value : Float} {fault : Fault}

/-- Between two cursors lies a phrase with a value, and its unknown names have been noted. -/
def Noted (kind : Kind) (start : Cursor) (notes : List Note) (value : Float) (last : Cursor) :
    Prop :=
  ∃ phrase : Phrase kind, Covers phrase.tokens start last ∧ phrase.remarks start = notes ∧
    phrase.value = value

/-- From a cursor up to a fault lies a stem, and the unknown names that it has applied have been
noted. -/
def Broken (kind : Kind) (start : Cursor) (notes : List Note) (fault : Fault) : Prop :=
  ∃ (stem : Stem kind) (stop : Cursor), Covers stem.tokens start stop ∧ StopsAt fault stop ∧
    stem.remarks start = notes

theorem Noted.skipSpaces_left {kind : Kind} (noted : Noted kind start.skipSpaces notes value last) :
    Noted kind start notes value last := by
  obtain ⟨phrase, covered, rfl, same⟩ := noted
  exact ⟨phrase, covered.skipSpaces_left,
    phrase.remarks_congr start.skipSpaces_skipSpaces.symm, same⟩

theorem Noted.skipSpaces_right {kind : Kind} (noted : Noted kind start notes value last) :
    Noted kind start notes value last.skipSpaces := by
  obtain ⟨phrase, covered, remarked, same⟩ := noted
  exact ⟨phrase, covered.skipSpaces_right, remarked, same⟩

theorem Broken.skipSpaces_left {kind : Kind} (broken : Broken kind start.skipSpaces notes fault) :
    Broken kind start notes fault := by
  obtain ⟨stem, stop, covered, stops, rfl⟩ := broken
  exact ⟨stem, stop, covered.skipSpaces_left, stops,
    stem.remarks_congr start.skipSpaces_skipSpaces.symm⟩

structure TracesFactors (inner : Scan Float) (room : Nat) : Prop where
  reads : ReadsFactors inner room
  traced : ∀ start, (inner start).Ends
    (fun notes value last => ∃ opens, Noted (.factor opens) start notes value last)
    (fun notes fault => ∃ opens, Broken (.factor opens) start notes fault)

/-! Productions. -/

theorem ends_term (traces : TracesFactors inner room) (start : Cursor) :
    (term inner start).Ends (Noted .term start) (Broken .term start) := by
  have initial : (inner start).Ends (Noted .term start) (Broken .term start) := by
    refine (traces.traced start).mono ?_ ?_
    · intro notes value last noted
      obtain ⟨opens, phrase, covered, remarked, same⟩ := noted
      exact ⟨.factor phrase, covered, remarked, same⟩
    · intro notes fault broken
      obtain ⟨opens, stem, stop, covered, stops, remarked⟩ := broken
      exact ⟨.factor stem, stop, covered, stops, remarked⟩
  refine (ends_chain traces.reads.advances initial ?_).mono ?_ fun _ _ broken => broken
  · intro notes value cursor operator noted ahead
    obtain ⟨left, covered, rfl, rfl⟩ := noted
    obtain ⟨scaling, rfl, found⟩ := exists_scaling_of_operatorAhead ahead
    have place := covered.past_symbol scaling.symbol
    refine (traces.traced _).mono ?_ ?_
    · intro notes value last noted
      obtain ⟨opens, right, covered', rfl, rfl⟩ := noted
      refine ⟨.product left scaling right, covered.between found covered', ?_, rfl⟩
      rw [Phrase.remarks, place]
    · intro notes fault broken
      obtain ⟨opens, right, stop, covered', stops, rfl⟩ := broken
      refine ⟨.product left scaling right, stop, covered.between found covered', stops, ?_⟩
      rw [Stem.remarks, place]
  · intro notes value last noted
    obtain ⟨place, noted, rfl⟩ := noted
    exact noted.skipSpaces_right

theorem ends_expression (traces : TracesFactors inner room) (start : Cursor) :
    (expression inner start).Ends (Noted .expression start) (Broken .expression start) := by
  have forward := advances_term traces.reads.advances
  have initial : (term inner start).Ends (Noted .expression start) (Broken .expression start) := by
    refine (ends_term traces start).mono ?_ ?_
    · intro notes value last noted
      obtain ⟨phrase, covered, remarked, same⟩ := noted
      exact ⟨.term phrase, covered, remarked, same⟩
    · intro notes fault broken
      obtain ⟨stem, stop, covered, stops, remarked⟩ := broken
      exact ⟨.term stem, stop, covered, stops, remarked⟩
  refine (ends_chain forward initial ?_).mono ?_ fun _ _ broken => broken
  · intro notes value cursor operator noted ahead
    obtain ⟨left, covered, rfl, rfl⟩ := noted
    obtain ⟨sign, rfl, found⟩ := exists_sign_of_operatorAhead ahead
    have place := covered.past_symbol sign.symbol
    refine (ends_term traces _).mono ?_ ?_
    · intro notes value last noted
      obtain ⟨right, covered', rfl, rfl⟩ := noted
      refine ⟨.sum left sign right, covered.between found covered', ?_, rfl⟩
      rw [Phrase.remarks, place]
    · intro notes fault broken
      obtain ⟨right, stop, covered', stops, rfl⟩ := broken
      refine ⟨.sum left sign right, stop, covered.between found covered', stops, ?_⟩
      rw [Stem.remarks, place]
  · intro notes value last noted
    obtain ⟨place, noted, rfl⟩ := noted
    exact noted.skipSpaces_right

/-- Behind an opening parenthesis: an expression and the closing one. Without that one the
expression is complete, and what it stands in is open. -/
theorem ends_enclosed (traces : TracesFactors inner room) (argumentOf : Option String)
    (start : Cursor) :
    (enclosed inner argumentOf start).Ends
      (fun notes value last => ∃ phrase : Phrase .expression,
        Covers (phrase.tokens ++ [.symbol .closing]) start last ∧ phrase.remarks start = notes ∧
          phrase.value = value)
      (Broken .expression start) := by
  refine (ends_expression traces start).bind ?_ fun _ _ broken => broken
  intro notes value place noted
  obtain ⟨phrase, covered, rfl, rfl⟩ := noted
  apply ends_eat
  · intro closing
    refine ⟨phrase, covered.between closing (Covers.nil _), ?_, rfl⟩
    rw [List.append_nil]
  · intro _
    refine ⟨.complete phrase, place.skipSpaces, covered.skipSpaces_right, ?_, ?_⟩
    · exact stopsAt_atCursor _ _
    · rw [List.append_nil]
      rfl

theorem ends_number (start : Cursor) :
    (number start).Ends (Noted (.primary false) start) (Broken (.factor false) start) := by
  rw [number_apply]
  cases read : Numeral.decimal? (start.takeWhile Cursor.isNumberChar).1 with
  | none => exact ⟨.refused, start, Covers.nil start, stopsAt_atCursor _ start, rfl⟩
  | some decimal =>
    obtain ⟨literal, text, rfl⟩ :=
      exists_literal_of_decimal? (fun c member => Cursor.holds_of_mem_takeWhile member) read
    have passed := Cursor.passes_takeWhile start Cursor.isNumberChar
    rw [← text] at passed
    exact ⟨.number literal, Covers.number passed, rfl, rfl⟩

theorem ends_conclude {step : Scan Float} {done : List Note → Float → Cursor → Prop}
    {broken : List Note → Fault → Prop} (name : Name) (place start : Cursor)
    (ahead : place.skipSpaces = place) (ends : (step start).Ends done broken) :
    ((step >>= conclude (String.ofList name.letters) place.position) start).Ends
      (fun notes value last => ∃ notes' x, done notes' x last ∧
        notes = notes' ++ name.remark place ∧ value = name.function.apply x) broken := by
  refine ends.bind ?_ fun _ _ stopped => stopped
  intro notes x last complete
  have noted : (conclude (String.ofList name.letters) place.position x last).notes =
      name.remark place := by
    change (if name.function = .unknown then _ else _) = _
    simp only [name.function_eq_unknown_iff, ite_not, Name.remark, ahead]
  exact ⟨notes, x, complete, congrArg (notes ++ ·) noted, rfl⟩

theorem ends_application {c : Char} (traces : TracesFactors inner room)
    (found : start.unread.head? = some c) (letter : Cursor.isLetter c = true) :
    (application inner start).Ends
      (fun notes value last => Noted (.primary false) start notes value last ∨
        (Noted (.factor false) start notes value last ∧ last.upcoming ≠ some '^'))
      (Broken (.factor false) start) := by
  obtain ⟨name, middle, taken⟩ := exists_name found letter
  have passed := Cursor.passes_takeWhile start Cursor.isLetter
  have stops := @Cursor.takeWhile_stops start Cursor.isLetter
  rw [taken] at passed stops
  have visible : start.skipSpaces = start := by
    apply Cursor.skipSpaces_of_head
    rw [found]
    intro same
    cases same
    exact absurd letter (by decide)
  have place : past start [.name name] = middle := Token.pass_eq (visible.symm ▸ passed)
  by_cases ahead : middle.upcoming = some '('
  · have opening : middle.upcoming = some Symbol.opening.char := ahead
    have inside : past start [.name name, .symbol .opening] = middle.skipSpaces.advance := by
      rw [← place]
      rfl
    rw [application_apply_of_parenthesis taken ahead]
    refine (ends_conclude name start _ visible (ends_enclosed traces _ _)).mono ?_ ?_
    · intro notes value last noted
      obtain ⟨_, _, ⟨argument, covered, rfl, rfl⟩, rfl, rfl⟩ := noted
      have whole := Covers.name passed @stops (covered.symbol opening)
      refine Or.inl ⟨.call name argument, whole, ?_, rfl⟩
      rw [Phrase.remarks, inside]
    · intro notes fault broken
      obtain ⟨argument, stop, covered, stops', rfl⟩ := broken
      have whole := Covers.name passed @stops (covered.symbol opening)
      refine ⟨.call name argument, stop, whole, stops', ?_⟩
      rw [Stem.remarks, inside]
  · rw [application_apply_of_ne_parenthesis taken ahead]
    have argued := (traces.traced middle.skipSpaces).and_yields
    refine (ends_conclude name start _ visible argued).mono ?_ ?_
    · intro notes value last noted
      obtain ⟨_, _, ⟨⟨opens, noted⟩, run⟩, rfl, rfl⟩ := noted
      obtain ⟨argument, covered, rfl, rfl⟩ := noted.skipSpaces_left
      obtain ⟨_, noExponent⟩ := traces.reads.parsed run
      cases opens with
      | true =>
        obtain ⟨others, tokens⟩ := argument.tokens_of_opens
        rw [tokens] at covered
        exact absurd covered.upcoming ahead
      | false =>
        refine Or.inr ⟨⟨.application name argument, Covers.name passed @stops covered, ?_, rfl⟩,
          noExponent⟩
        rw [Phrase.remarks, place]
    · intro notes fault broken
      obtain ⟨opens, broken⟩ := broken
      obtain ⟨argument, stop, covered, stops', rfl⟩ := broken.skipSpaces_left
      cases opens with
      | true =>
        obtain ⟨others, tokens⟩ := argument.tokens_of_opens
        rw [tokens] at covered
        exact absurd covered.upcoming ahead
      | false =>
        refine ⟨.application name argument, stop, Covers.name passed @stops covered, stops', ?_⟩
        rw [Stem.remarks, place]

theorem ends_primary (traces : TracesFactors inner room) (start : Cursor) :
    (primary inner start).Ends
      (fun notes value last => (∃ opens, Noted (.primary opens) start notes value last) ∨
        (Noted (.factor false) start notes value last ∧ last.upcoming ≠ some '^'))
      (fun notes fault => ∃ opens, Broken (.factor opens) start notes fault) := by
  rcases primary_cases inner start with opening | ⟨c, found, digit⟩ | ⟨c, found, letter⟩ | refused
  · rw [primary_apply_of_parenthesis opening]
    refine (ends_enclosed traces none _).mono ?_ ?_
    · intro notes value last noted
      obtain ⟨inside, covered, rfl, rfl⟩ := noted
      exact Or.inl ⟨true, .enclosed inside, covered.symbol opening, rfl, rfl⟩
    · intro notes fault broken
      obtain ⟨inside, stop, covered, stops, rfl⟩ := broken
      exact ⟨true, .enclosed inside, stop, covered.symbol opening, stops, rfl⟩
  · rw [primary_apply_of_number found digit]
    refine (ends_number start.skipSpaces).mono ?_ ?_
    · exact fun notes value last noted => Or.inl ⟨false, noted.skipSpaces_left⟩
    · exact fun notes fault broken => ⟨false, broken.skipSpaces_left⟩
  · rw [primary_apply_of_letter found letter]
    refine (ends_application traces found letter).mono ?_ ?_
    · intro notes value last noted
      rcases noted with noted | ⟨noted, noExponent⟩
      · exact Or.inl ⟨false, noted.skipSpaces_left⟩
      · exact Or.inr ⟨noted.skipSpaces_left, noExponent⟩
    · exact fun notes fault broken => ⟨false, broken.skipSpaces_left⟩
  · rw [refused]
    have blank := (Covers.nil start).skipSpaces_right
    exact ⟨false, .refused, start.skipSpaces, blank, stopsAt_atCursor _ _, rfl⟩

theorem ends_powered (traces : TracesFactors inner room) (start : Cursor) :
    (powered inner start).Ends
      (fun notes value last => ∃ opens, Noted (.factor opens) start notes value last)
      (fun notes fault => ∃ opens, Broken (.factor opens) start notes fault) := by
  refine (ends_primary traces start).bind ?_ fun _ _ broken => broken
  intro notes x place noted
  apply ends_eat
  · intro caret
    rcases noted with ⟨opens, base, covered, rfl, rfl⟩ | ⟨_, noExponent⟩
    · have found : place.upcoming = some Symbol.caret.char := caret
      have behind := covered.past_symbol .caret
      refine (traces.traced place.skipSpaces.advance).bind ?_ ?_
      · intro notes value last noted
        obtain ⟨_, exponent, covered', rfl, rfl⟩ := noted
        refine ⟨opens, .power base exponent, covered.between found covered', ?_, rfl⟩
        rw [Phrase.remarks, behind, List.append_nil]
      · intro notes fault broken
        obtain ⟨_, exponent, stop, covered', stops, rfl⟩ := broken
        refine ⟨opens, .power base exponent, stop, covered.between found covered', stops, ?_⟩
        rw [Stem.remarks, behind]
    · -- The factor that the name applies to has taken every exponent.
      exact absurd caret noExponent
  · intro _
    have alone : ∃ opens, Noted (.factor opens) start notes x place.skipSpaces := by
      rcases noted with ⟨opens, base, covered, rfl, rfl⟩ | ⟨noted, _⟩
      · exact ⟨opens, .primary base, covered.skipSpaces_right, rfl, rfl⟩
      · exact ⟨false, noted.skipSpaces_right⟩
    obtain ⟨opens, noted⟩ := alone
    refine ⟨opens, ?_⟩
    rw [List.append_nil]
    exact noted

theorem ends_factor_succ {tooDeep : Cursor → Fault}
    (traces : TracesFactors (factor tooDeep room) room) (start : Cursor) :
    (factor tooDeep (room + 1) start).Ends
      (fun notes value last => ∃ opens, Noted (.factor opens) start notes value last)
      (fun notes fault => ∃ opens, Broken (.factor opens) start notes fault) := by
  have opened : ∀ sign : Sign, start.upcoming = some sign.symbol.char →
      ∀ notes fault, (∃ opens, Broken (.factor opens) start.skipSpaces.advance notes fault) →
        ∃ opens, Broken (.factor opens) start notes fault := by
    intro sign found notes fault broken
    obtain ⟨_, inner, stop, covered, stops, rfl⟩ := broken
    exact ⟨false, .signed sign inner, stop, covered.symbol found, stops, rfl⟩
  by_cases plus : start.upcoming = some '+'
  · rw [factor_apply_of_plus plus]
    refine (traces.traced start.skipSpaces.advance).mono ?_ (opened .plus plus)
    intro notes value last noted
    obtain ⟨_, inner, covered, rfl, rfl⟩ := noted
    exact ⟨false, .signed .plus inner, Covers.symbol plus covered, rfl, rfl⟩
  · by_cases minus : start.upcoming = some '-'
    · rw [factor_apply_of_minus minus]
      refine (traces.traced start.skipSpaces.advance).bind ?_ (opened .minus minus)
      intro notes x place noted
      obtain ⟨_, inner, covered, rfl, rfl⟩ := noted
      refine ⟨false, .signed .minus inner, Covers.symbol minus covered, ?_, rfl⟩
      rw [List.append_nil]
      rfl
    · rw [factor_apply_of_unsigned plus minus]
      refine (ends_powered traces start.skipSpaces).mono ?_ ?_
      · intro notes value last noted
        obtain ⟨opens, noted⟩ := noted
        exact ⟨opens, noted.skipSpaces_left⟩
      · intro notes fault broken
        obtain ⟨opens, broken⟩ := broken
        exact ⟨opens, broken.skipSpaces_left⟩

theorem tracesFactors {tooDeep : Cursor → Fault} (stops : ∀ place, StopsAt (tooDeep place) place)
    (room : Nat) : TracesFactors (factor tooDeep room) room := by
  induction room with
  | zero =>
    refine ⟨readsFactors tooDeep 0, fun start => ?_⟩
    exact ⟨false, .refused, start, Covers.nil start, stops start, rfl⟩
  | succ room ih => exact ⟨readsFactors tooDeep (room + 1), ends_factor_succ ih⟩

theorem ends_whole {tooDeep : Cursor → Fault} (stops : ∀ place, StopsAt (tooDeep place) place)
    (room : Nat) (start : Cursor) :
    (whole tooDeep room start).Ends
      (fun notes value last => Noted .expression start notes value last ∧ last.unread = [])
      (Broken .expression start) := by
  refine (ends_expression (tracesFactors stops room) start).bind ?_ fun _ _ broken => broken
  intro notes value place noted
  rw [ending_apply]
  by_cases ended : place.unread = []
  · rw [if_pos ended]
    refine ⟨?_, ended⟩
    rw [List.append_nil]
    exact noted
  · rw [if_neg ended]
    obtain ⟨phrase, covered, rfl, rfl⟩ := noted
    refine ⟨.complete phrase, place, covered, stopsAt_atCursor _ place, ?_⟩
    rw [List.append_nil]
    rfl

/-! Texts. -/

/-- A text that is evaluated to a value with some notes on the way is written as a phrase with this
value, which notes them. They are all the unknown names in it. -/
def Traced (text : String) (notes : List Note) (value : Float) : Prop :=
  ∃ tree : Phrase .expression, Spells tree.tokens text.toList ∧ tree.value = value ∧
    notes = tree.remarks (Cursor.ofText text.toList) ∧
    notes.Perm (unknownNames (Cursor.ofText text.toList) tree.tokens)

/-- A text that is refused with some notes on the way begins, up to the fault, as a stem that notes
them. They are the unknown names in it whose arguments are not open. -/
def TracedUpTo (text : String) (notes : List Note) (fault : Fault) : Prop :=
  ∃ (stem : Stem .expression) (read rest : List Char), text.toList = read ++ rest ∧
    Spells stem.tokens read ∧
    (∀ position, fault.position = some position → position = read.length) ∧
    notes = stem.remarks (Cursor.ofText text.toList) ∧
    (notes ++ stem.pending (Cursor.ofText text.toList)).Perm
      (unknownNames (Cursor.ofText text.toList) stem.tokens)

theorem Noted.traced {text : String}
    (noted : Noted .expression (Cursor.ofText text.toList) notes value last)
    (ended : last.unread = []) : Traced text notes value := by
  obtain ⟨tree, ⟨read, passed, spelled⟩, rfl, rfl⟩ := noted
  obtain ⟨all, _⟩ := Cursor.split_of_passes passed
  rw [ended, List.append_nil] at all
  exact ⟨tree, all ▸ spelled, rfl, rfl, tree.remarks_perm _⟩

theorem Broken.tracedUpTo {text : String}
    (broken : Broken .expression (Cursor.ofText text.toList) notes fault) :
    TracedUpTo text notes fault := by
  obtain ⟨stem, stop, ⟨read, passed, spelled⟩, stops, rfl⟩ := broken
  obtain ⟨parts, place⟩ := Cursor.split_of_passes passed
  refine ⟨stem, read, stop.unread, parts, spelled, ?_, rfl, stem.remarks_perm _⟩
  intro position named
  rw [stops position named, place]

theorem run_traced (limit : Int) (stack : Nat) (text : String) :
    (∀ value, (run limit stack text).result = .ok value →
        Traced text (run limit stack text).notes value) ∧
      ∀ fault, (run limit stack text).result = .error fault →
        TracedUpTo text (run limit stack text).notes fault := by
  have ends := ends_whole (stopsAt_nestingFault limit stack) (min limit.toNat stack)
    (Cursor.ofText text.toList)
  unfold run
  generalize whole (nestingFault limit stack) (min limit.toNat stack)
    (Cursor.ofText text.toList) = outcome at ends
  rcases outcome with ⟨notes, fault | ⟨value, last⟩⟩
  · constructor
    · intro value same
      cases same
    · intro fault same
      cases same
      exact Broken.tracedUpTo ends
  · constructor
    · intro value same
      cases same
      exact Noted.traced ends.1 ends.2
    · intro fault same
      cases same

theorem evaluate_traced (bounds : Bounds) (text : String) (limit : Option Int) :
    let evaluation := evaluate bounds (.text text) limit
    (∀ value, evaluation.result = .ok value → Traced text evaluation.notes value) ∧
      ∀ fault, evaluation.result = .error fault → TracedUpTo text evaluation.notes fault := by
  rw [evaluate, accept]
  by_cases long : 0 < bounds.maxLength ∧ bounds.maxLength < text.length
  · rw [if_pos long]
    constructor
    · intro value same
      cases same
    · intro fault same
      cases same
      refine ⟨.term (.factor .refused), [], text.toList, rfl, .blank 0, ?_, rfl, .nil⟩
      intro position named
      cases named
  · rw [if_neg long]
    exact run_traced _ _ text

theorem position_le_of_unknown {text : String} {tokens : List Token} {read rest : List Char}
    (parts : text.toList = read ++ rest) (spelled : Spells tokens read) {note : Note}
    (member : note ∈ unknownNames (Cursor.ofText text.toList) tokens) :
    note.position ≤ text.length := by
  have covered : Covers tokens (Cursor.ofText text.toList) ⟨0 + read.length, rest⟩ := by
    rw [parts]
    exact ⟨read, Cursor.passes_of_append 0 read rest, spelled⟩
  have inside : note.position ≤ 0 + read.length := covered.position_le member
  have whole : text.length = read.length + rest.length := by
    rw [← String.length_toList, parts, List.length_append]
  omega

theorem position_le_of_noted {bounds : Bounds} {text : String} {limit : Option Int} {note : Note}
    (member : note ∈ (evaluate bounds (.text text) limit).notes) : note.position ≤ text.length := by
  obtain ⟨whole, broken⟩ := evaluate_traced bounds text limit
  cases ended : (evaluate bounds (.text text) limit).result with
  | ok value =>
    obtain ⟨tree, spelled, _, _, all⟩ := whole value ended
    exact position_le_of_unknown (List.append_nil _).symm spelled (all.mem_iff.mp member)
  | error fault =>
    obtain ⟨stem, read, rest, parts, spelled, _, _, all⟩ := broken fault ended
    exact position_le_of_unknown parts spelled (all.mem_iff.mp (List.mem_append_left _ member))

theorem events_of_answer (bounds : Bounds) (value : Value) :
    let evaluation := evaluate bounds value none
    let answer := Answer.evaluate bounds value
    (answer.value.ok = true → answer.events = evaluation.notes.map Note.event) ∧
      (answer.value.ok = false → ∃ fault, evaluation.result = .error fault ∧
        answer.value.error = some fault.message ∧ answer.value.errorCode = some fault.code ∧
        answer.events = evaluation.notes.map Note.event ++ [Answer.failureEvent value fault]) := by
  rw [Answer.evaluate]
  cases ended : (evaluate bounds value none).result with
  | ok number =>
    constructor
    · exact fun _ => List.append_nil _
    · intro failed
      cases failed
  | error fault =>
    constructor
    · intro succeeded
      cases succeeded
    · exact fun _ => ⟨fault, ended, rfl, rfl, rfl⟩

/-- The event of a note: the debug level, the full name, and how many characters lie in front of it,
both in the arguments and in the message. -/
structure Tells (note : Note) (event : Log.Event) : Prop where
  parts : event =
    { level := ⟨10, "DEBUG"⟩, source := "hitung.parser"
      template := "Unknown function %r at position %d returns its argument"
      arguments := [.text note.name, .int note.position] }
  record : note.position < 10 ^ Numeral.maxDigits → event.record = .ok
    { level := ⟨10, "DEBUG"⟩, source := "hitung.parser", incident := none
      message := "Unknown function " ++ Text.quoted note.name ++ " at position " ++
        toString note.position ++ " returns its argument" }

/-- The event of a text that was refused: the debug level, the text, the code and the message of the
fault. -/
structure Complains (text : String) (fault : Fault) (event : Log.Event) : Prop where
  parts : event =
    { level := ⟨10, "DEBUG"⟩, source := "hitung.api"
      template := "Evaluation of %r failed [%s]: %s"
      arguments := [.text text, .text fault.code, .text fault.message] }
  record : event.record = .ok
    { level := ⟨10, "DEBUG"⟩, source := "hitung.api", incident := none
      message := "Evaluation of " ++ Text.quoted text ++ " failed [" ++ fault.code ++ "]: " ++
        fault.message }

theorem tells_event (note : Note) : Tells note note.event where
  parts := by
    rw [Note.event, show Log.sourceNamed "parser" = "hitung.parser" by decide]
    rfl
  record := fun short => Note.record_event ((Numeral.isWritable_iff note.position).mpr short)

theorem complains_failureEvent (text : String) (fault : Fault) :
    Complains text fault (Answer.failureEvent (.text text) fault) where
  parts := by
    rw [Answer.failureEvent, show Log.sourceNamed "api" = "hitung.api" by decide]
    rfl
  record := Answer.record_failureEvent fault rfl

/-- The notes of an evaluation are the unknown names that it has applied, each behind those in its
argument, whether it ends in a value or in a fault; a text that is refused unread has none. A step
that evaluates logs one event for each note, in their order, and nothing else. An answer logs these
too, and behind them the failure if there is one. -/
theorem notes_of_evaluate (bounds : Bounds) (text : String) (limit : Option Int) :
    let evaluation := evaluate bounds (.text text) limit
    let unlimited := evaluate bounds (.text text) none
    let answer := Answer.evaluate bounds (.text text)
    (∀ value, evaluation.result = .ok value → Traced text evaluation.notes value) ∧
    (∀ fault, evaluation.result = .error fault → TracedUpTo text evaluation.notes fault) ∧
    (∀ fault, accept bounds.maxLength (.text text) = .error fault →
      evaluation = ⟨[], .error fault⟩) ∧
    ∃ events, List.Forall₂ Tells unlimited.notes events ∧
      (∀ surroundings state,
        state.settings.boundsFor (surroundings.stack .parser) [.text text] = .ok bounds →
        (Session.Step.evaluate (.text text)).take surroundings state =
          Session.logged surroundings.toContext state (.evaluated unlimited.result) events) ∧
      (answer.value.ok = true → answer.events = events) ∧
      (answer.value.ok = false → ∃ fault failure, unlimited.result = .error fault ∧
        answer.value.error = some fault.message ∧ answer.value.errorCode = some fault.code ∧
        answer.events = events ++ [failure] ∧ Complains text fault failure) := by
  intro evaluation unlimited answer
  obtain ⟨whole, broken⟩ := evaluate_traced bounds text limit
  obtain ⟨succeeds, fails⟩ := events_of_answer bounds (.text text)
  refine ⟨whole, broken, fun fault refused => ?_, unlimited.notes.map Note.event, ?_,
    fun surroundings state bounded => ?_, succeeds, fun failed => ?_⟩
  · change evaluate bounds (.text text) limit = _
    rw [evaluate, refused]
  · rw [List.forall₂_map_right_iff]
    exact List.forall₂_same.mpr fun note _ => tells_event note
  · simp only [Session.Step.take, Session.evaluating, bounded]
    rfl
  · obtain ⟨fault, refused, error, code, events⟩ := fails failed
    exact ⟨fault, _, refused, error, code, events, complains_failureEvent text fault⟩

theorem notes_of_evaluate_nested :
    (evaluate .standard (.text "foo(bar 2) + baz(3") none).notes = [⟨"bar", 4⟩, ⟨"foo", 0⟩] ∧
      TracedUpTo "foo(bar 2) + baz(3" [⟨"bar", 4⟩, ⟨"foo", 0⟩]
        ⟨.unclosed (some "baz"), some 18, none⟩ ∧
      ∃ bar foo failure, Tells ⟨"bar", 4⟩ bar ∧ Tells ⟨"foo", 0⟩ foo ∧
        Complains "foo(bar 2) + baz(3" ⟨.unclosed (some "baz"), some 18, none⟩ failure ∧
        (Answer.evaluate .standard (.text "foo(bar 2) + baz(3")).events = [bar, foo, failure] := by
  have failed : (evaluate .standard (.text "foo(bar 2) + baz(3") none).result =
      .error ⟨.unclosed (some "baz"), some 18, none⟩ := rfl
  have notes : (evaluate .standard (.text "foo(bar 2) + baz(3") none).notes =
      [⟨"bar", 4⟩, ⟨"foo", 0⟩] := rfl
  obtain ⟨_, broken, _, events, tells, _, _, fails⟩ :=
    notes_of_evaluate .standard "foo(bar 2) + baz(3" none
  obtain ⟨fault, failure, refused, _, _, logged, complains⟩ := fails rfl
  obtain rfl := Except.error.inj (failed.symm.trans refused)
  rw [notes] at broken tells
  obtain ⟨bar, _, first, rest, rfl⟩ := List.forall₂_cons_left_iff.mp tells
  obtain ⟨foo, _, second, none, rfl⟩ := List.forall₂_cons_left_iff.mp rest
  obtain rfl := List.forall₂_nil_left_iff.mp none
  exact ⟨notes, broken _ failed, bar, foo, failure, first, second, complains, logged⟩

end Reckoner.Grammar
