import Mathlib.Algebra.Group.Nat.Defs
import Reckoner.Answer

/-!
The messages of what the library logs. A template whose directives are letters alone is filled by
the texts of its arguments, one behind the other.
-/
namespace Reckoner.Log

namespace Template

def bare (letter : Char) : Directive := ⟨none, [], .given 0, none, some letter⟩

def bareStyle : Style := ⟨false, false, false, false, false, 0, none⟩

section

variable {dictionary : Option Entries} {arguments : List Value}

theorem fillPieces_literals (front : List Char) (pieces : List Piece) :
    fillPieces dictionary arguments (front.map .literal ++ pieces) =
      (fillPieces dictionary arguments pieces).map (front ++ ·) := by
  induction front with
  | nil =>
    rw [List.map_nil, List.nil_append]
    cases fillPieces dictionary arguments pieces <;> rfl
  | cons c rest ih =>
    rw [List.map_cons, List.cons_append, fillPieces, ih]
    cases fillPieces dictionary arguments pieces <;> rfl

theorem fillPieces_bare {letter : Char} {last : Nat} {argument : Value} {text : List Char}
    (written : Conversion.write letter last bareStyle argument = .ok text) (pieces : List Piece) :
    fillPieces dictionary (argument :: arguments) (.directive (bare letter) last :: pieces) =
      (fillPieces dictionary arguments pieces).map (text ++ ·) := by
  have filled : fillDirective dictionary (bare letter) last (argument :: arguments) =
      .ok (text, arguments) := by
    change Except.bind ((Conversion.write letter last bareStyle argument).mapError
      Template.Fault.conversion) (fun text => .ok (text, arguments)) = _
    rw [written]
    rfl
  rw [fillPieces, filled]
  change (fillPieces dictionary arguments pieces).bind (fun later => .ok (text ++ later)) = _
  cases fillPieces dictionary arguments pieces <;> rfl

theorem fillPieces_bare_of_fault {letter : Char} {last : Nat} {argument : Value}
    {fault : Conversion.Fault}
    (failed : Conversion.write letter last bareStyle argument = .error fault)
    (pieces : List Piece) :
    fillPieces dictionary (argument :: arguments) (.directive (bare letter) last :: pieces) =
      .error (.conversion fault) := by
  have refused : fillDirective dictionary (bare letter) last (argument :: arguments) =
      .error (.conversion fault) := by
    change Except.bind ((Conversion.write letter last bareStyle argument).mapError
      Template.Fault.conversion) (fun text => .ok (text, arguments)) = _
    rw [failed]
    rfl
  rw [fillPieces, refused]
  rfl

end

/-- What pieces make of arguments: their own characters, and the texts of arguments. -/
inductive Makes : List Piece → List Value → String → Prop
  | done : Makes [] [] ""
  | literals (front : String) {pieces : List Piece} {arguments : List Value} {text : String}
      (rest : Makes pieces arguments text) :
      Makes (front.toList.map .literal ++ pieces) arguments (front ++ text)
  | bare {letter : Char} {last : Nat} {argument : Value} {shown : String}
      (written : Conversion.write letter last bareStyle argument = .ok shown.toList)
      {pieces : List Piece} {arguments : List Value} {text : String}
      (rest : Makes pieces arguments text) :
      Makes (.directive (bare letter) last :: pieces) (argument :: arguments) (shown ++ text)

theorem Makes.fillPieces_eq {pieces : List Piece} {arguments : List Value} {text : String}
    (makes : Makes pieces arguments text) (dictionary : Option Entries) :
    fillPieces dictionary arguments pieces = .ok text.toList := by
  induction makes with
  | done => rfl
  | literals front rest ih =>
    rw [fillPieces_literals, ih, String.toList_append]
    rfl
  | bare written rest ih =>
    rw [fillPieces_bare written, ih, String.toList_append]
    rfl

theorem Makes.fill_eq {template : String} {pieces : List Piece} {arguments : List Value}
    {text : String} (makes : Makes pieces arguments text)
    (split : Piece.ofTemplate 0 0 template.toList = pieces) (present : arguments ≠ []) :
    fill template arguments = .ok text := by
  rw [fill, if_neg (by simpa using present), split, makes.fillPieces_eq]
  exact congrArg Except.ok String.ofList_toList

end Template

/-! The text of an argument. -/

namespace Conversion

theorem fill_bareStyle (converted : Converted) : converted.fill Template.bareStyle =
    .ok (converted.sign ++ converted.mark ++ converted.body) := by
  have none : Template.bareStyle.width -
      ((converted.sign ++ converted.mark).length + converted.body.length) = 0 := Nat.zero_sub _
  rw [Converted.fill, none]
  rfl

variable {index : Nat} {argument : Value}

theorem write_quoted (writable : argument.isWritable = true) :
    write 'r' index Template.bareStyle argument = .ok argument.quoted.toList := by
  have converted : Conversion.quoted.apply 'r' Template.bareStyle argument =
      .ok { body := argument.quoted.toList } := if_pos writable
  change Except.bind (Conversion.quoted.apply 'r' Template.bareStyle argument)
    (Converted.fill Template.bareStyle) = _
  rw [converted]
  exact fill_bareStyle _

theorem write_quoted_of_not_isWritable (unwritable : argument.isWritable = false) :
    write 'r' index Template.bareStyle argument = .error .unwritable := by
  have refused : Conversion.quoted.apply 'r' Template.bareStyle argument = .error .unwritable :=
    if_neg (by simp [unwritable])
  change Except.bind (Conversion.quoted.apply 'r' Template.bareStyle argument)
    (Converted.fill Template.bareStyle) = _
  rw [refused]
  rfl

theorem write_plain_text (content : String) :
    write 's' index Template.bareStyle (.text content) = .ok content.toList :=
  fill_bareStyle { body := content.toList }

theorem toList_toString (number : Int) : (toString number).toList =
    (if number < 0 then ['-'] else []) ++ Nat.toDigits 10 number.natAbs := by
  cases number with
  | ofNat count =>
    have positive : ¬Int.ofNat count < 0 := Int.not_lt.mpr (Int.natCast_nonneg count)
    rw [if_neg positive, List.nil_append]
    exact String.toList_ofList
  | negSucc count =>
    rw [if_pos (Int.negSucc_lt_zero count)]
    change ("-" ++ (count + 1).repr).toList = _
    rw [String.toList_append]
    exact congrArg _ String.toList_ofList

theorem write_whole {number : Int} (writable : Numeral.isWritable number = true) :
    write 'd' index Template.bareStyle (.int number) = .ok (toString number).toList := by
  have digits : decimalDigits number.natAbs = .ok (Nat.toDigits 10 number.natAbs) := if_pos writable
  have sign : signOf Template.bareStyle (number < 0) = if number < 0 then ['-'] else [] := by
    by_cases negative : number < 0 <;> simp [signOf, Template.bareStyle, negative]
  have converted : Conversion.whole.apply 'd' Template.bareStyle (.int number) =
      .ok { sign := signOf Template.bareStyle (number < 0),
            body := Nat.toDigits 10 number.natAbs, isNumber := true } := by
    have unpadded : Text.padded 0 (Nat.toDigits 10 number.natAbs) =
        Nat.toDigits 10 number.natAbs := by
      rw [Text.padded, Nat.zero_sub]
      rfl
    change ofWhole Template.bareStyle [] decimalDigits number = _
    rw [ofWhole, digits]
    change Except.ok (Converted.mk _ [] (Text.padded 0 _) true) = _
    rw [unpadded]
  change Except.bind (Conversion.whole.apply 'd' Template.bareStyle (.int number))
    (Converted.fill Template.bareStyle) = _
  rw [converted, toList_toString, ← sign]
  exact (fill_bareStyle _).trans (by rw [List.append_nil])

theorem write_whole_of_not_isWritable {number : Int}
    (unwritable : Numeral.isWritable number = false) :
    write 'd' index Template.bareStyle (.int number) = .error .unwritable := by
  have digits : decimalDigits number.natAbs = .error .unwritable :=
    if_neg (show ¬Numeral.isWritable number = true by simp [unwritable])
  have refused : Conversion.whole.apply 'd' Template.bareStyle (.int number) =
      .error .unwritable := by
    change ofWhole Template.bareStyle [] decimalDigits number = _
    rw [ofWhole, digits]
    rfl
  change Except.bind (Conversion.whole.apply 'd' Template.bareStyle (.int number))
    (Converted.fill Template.bareStyle) = _
  rw [refused]
  rfl

end Conversion

theorem Event.record_eq {event : Event} {pieces : List Piece} {message : String}
    (split : Piece.ofTemplate 0 0 event.template.toList = pieces)
    (makes : Template.Makes pieces event.arguments message) (present : event.arguments ≠ []) :
    event.record = .ok ⟨event.level, event.source, message, event.incident⟩ := by
  rw [record, makes.fill_eq split present]
  rfl

theorem Event.level_of_record {event : Event} {record : Record}
    (made : event.record = .ok record) : record.level = event.level := by
  rw [Event.record] at made
  cases filled : Template.fill event.template event.arguments with
  | error fault =>
    rw [filled] at made
    cases made
  | ok message =>
    rw [filled] at made
    rw [← Except.ok.inj made]

end Reckoner.Log

namespace Reckoner

open Log Template

theorem Numeral.isWritable_iff (number : Int) :
    isWritable number = true ↔ number.natAbs < 10 ^ maxDigits := by
  rw [isWritable, decide_eq_true_iff, Nat.length_toDigits_le_iff (by decide) (by decide)]

/-! What the library logs. -/

theorem Note.pieces_event : Piece.ofTemplate 0 0
    "Unknown function %r at position %d returns its argument".toList =
      "Unknown function ".toList.map .literal ++ .directive (bare 'r') 18 ::
        (" at position ".toList.map .literal ++ .directive (bare 'd') 33 ::
          (" returns its argument".toList.map .literal ++ [])) := by
  decide +kernel

theorem Note.record_event {note : Note} (writable : Numeral.isWritable note.position = true) :
    note.event.record = .ok ⟨.debug, "hitung.parser",
      "Unknown function " ++ Text.quoted note.name ++ " at position " ++ toString note.position ++
        " returns its argument", none⟩ := by
  have made : note.event.record = .ok ⟨_, _,
      "Unknown function " ++ (Text.quoted note.name ++ (" at position " ++
        (toString (note.position : Int) ++ (" returns its argument" ++ "")))), _⟩ :=
    Event.record_eq pieces_event (.literals _ (.bare (Conversion.write_quoted rfl)
      (.literals _ (.bare (Conversion.write_whole writable) (.literals _ .done)))))
      (List.cons_ne_nil _ _)
  rw [made]
  simp only [String.append_assoc, String.append_empty]
  rfl

theorem Note.record_event_of_not_isWritable {note : Note}
    (unwritable : Numeral.isWritable note.position = false) :
    note.event.record = .error (.conversion .unwritable) := by
  change (fill "Unknown function %r at position %d returns its argument"
    [.text note.name, .int note.position]).map _ = _
  rw [fill, if_neg (by simp), pieces_event, fillPieces_literals,
    fillPieces_bare (Conversion.write_quoted rfl), fillPieces_literals,
    fillPieces_bare_of_fault (Conversion.write_whole_of_not_isWritable unwritable)]
  rfl

namespace Answer

theorem pieces_failure : Piece.ofTemplate 0 0 "Evaluation of %r failed [%s]: %s".toList =
    "Evaluation of ".toList.map .literal ++ .directive (bare 'r') 15 ::
      (" failed [".toList.map .literal ++ .directive (bare 's') 26 ::
        ("]: ".toList.map .literal ++ .directive (bare 's') 31 :: [])) := by
  decide +kernel

theorem record_failureEvent {value : Value} (fault : Fault) (writable : value.isWritable = true) :
    (failureEvent value fault).record = .ok ⟨.debug, "hitung.api",
      "Evaluation of " ++ value.quoted ++ " failed [" ++ fault.code ++ "]: " ++ fault.message,
      none⟩ := by
  have made : (failureEvent value fault).record = .ok ⟨_, _,
      "Evaluation of " ++ (value.quoted ++ (" failed [" ++ (fault.code ++ ("]: " ++
        (fault.message ++ ""))))), _⟩ :=
    Event.record_eq pieces_failure (.literals _ (.bare (Conversion.write_quoted writable)
      (.literals _ (.bare (Conversion.write_plain_text fault.code)
        (.literals _ (.bare (Conversion.write_plain_text fault.message) .done))))))
      (List.cons_ne_nil _ _)
  rw [made]
  simp only [String.append_assoc, String.append_empty]
  rfl

theorem record_failureEvent_of_not_isWritable {value : Value} (fault : Fault)
    (unwritable : value.isWritable = false) :
    (failureEvent value fault).record = .error (.conversion .unwritable) := by
  change (fill "Evaluation of %r failed [%s]: %s"
    [value, .text fault.code, .text fault.message]).map _ = _
  rw [fill, if_neg (by simp), pieces_failure, fillPieces_literals,
    fillPieces_bare_of_fault (Conversion.write_quoted_of_not_isWritable unwritable)]
  rfl

theorem pieces_batch : Piece.ofTemplate 0 0
    "Batch of %d expressions finished with %d failures".toList =
      "Batch of ".toList.map .literal ++ .directive (bare 'd') 10 ::
        (" expressions finished with ".toList.map .literal ++ .directive (bare 'd') 39 ::
          (" failures".toList.map .literal ++ [])) := by
  decide +kernel

theorem record_batchEvent {total failures : Nat} (writable : Numeral.isWritable total = true)
    (writable' : Numeral.isWritable failures = true) :
    (batchEvent total failures).record = .ok ⟨.info, "hitung.api",
      "Batch of " ++ toString total ++ " expressions finished with " ++ toString failures ++
        " failures", none⟩ := by
  have made : (batchEvent total failures).record = .ok ⟨_, _,
      "Batch of " ++ (toString (total : Int) ++ (" expressions finished with " ++
        (toString (failures : Int) ++ (" failures" ++ "")))), _⟩ :=
    Event.record_eq pieces_batch (.literals _ (.bare (Conversion.write_whole writable)
      (.literals _ (.bare (Conversion.write_whole writable') (.literals _ .done)))))
      (List.cons_ne_nil _ _)
  rw [made]
  simp only [String.append_assoc, String.append_empty]
  rfl

theorem record_batchEvent_of_not_isWritable {total : Nat}
    (unwritable : Numeral.isWritable total = false) (failures : Nat) :
    (batchEvent total failures).record = .error (.conversion .unwritable) := by
  change (fill "Batch of %d expressions finished with %d failures"
    [.int total, .int failures]).map _ = _
  rw [fill, if_neg (by simp), pieces_batch, fillPieces_literals,
    fillPieces_bare_of_fault (Conversion.write_whole_of_not_isWritable unwritable)]
  rfl

end Answer

end Reckoner
