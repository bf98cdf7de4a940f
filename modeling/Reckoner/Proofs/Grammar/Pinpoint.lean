import Reckoner.Proofs.Grammar.Diagnosis

/-!
Every fault names a place in the text and the character there, and its wording is what the text
around that place shows: the character that was not expected, the name that an unclosed parenthesis
calls, or the run of digits and points that is no number.
-/
namespace Reckoner.Grammar

open Scan Evaluator

/-! Wordings. -/

theorem quoted_of_plain {content : List Char}
    (plain : ∀ c ∈ content, Text.isPrintable c = true ∧ c ≠ '\'' ∧ c ≠ '\\') :
    Text.quoted (String.ofList content) = "'" ++ String.ofList content ++ "'" := by
  have quote : Text.quoteFor content = '\'' := by
    have absent : '\'' ∉ content := fun member => (plain _ member).2.1 rfl
    simp [Text.quoteFor, absent]
  have shown : content.flatMap (Text.quotedChar Text.isPrintable '\'') = content := by
    have single : ∀ c ∈ content, Text.quotedChar Text.isPrintable '\'' c = [c] := by
      intro c member
      obtain ⟨printable, other, other'⟩ := plain c member
      have control : c ≠ '\n' ∧ c ≠ '\r' ∧ c ≠ '\t' := by
        refine ⟨?_, ?_, ?_⟩ <;> intro same <;> subst same <;> exact absurd printable (by decide)
      simp [Text.quotedChar, other, other', control, printable]
    rw [List.flatMap_congr single]
    simp
  apply String.ext
  simp [Text.quoted, Text.quotedWith, quote, shown]

theorem isPrintable_of_isNumberChar {c : Char} (digit : Cursor.isNumberChar c = true) :
    Text.isPrintable c = true := by
  simp only [Cursor.isNumberChar, Bool.or_eq_true, decide_eq_true_eq] at digit
  rcases digit with rfl | digit
  · decide
  · simp only [Char.isDigit, Bool.and_eq_true, decide_eq_true_eq] at digit
    have lower : 48 ≤ c.toNat := UInt32.le_iff_toNat_le.mp digit.1
    have upper : c.toNat ≤ 57 := UInt32.le_iff_toNat_le.mp digit.2
    simp only [Text.isPrintable, if_pos (show c.toNat < 127 by omega), decide_eq_true_eq]
    omega

theorem quoted_number {run : List Char} (inside : ∀ c ∈ run, Cursor.isNumberChar c = true) :
    Text.quoted (String.ofList run) = "'" ++ String.ofList run ++ "'" := by
  apply quoted_of_plain
  intro c member
  have digit := inside c member
  refine ⟨isPrintable_of_isNumberChar digit, ?_, ?_⟩ <;> intro same <;> subst same <;>
    exact absurd digit (by decide)

theorem message_malformedNumber {run : List Char}
    (inside : ∀ c ∈ run, Cursor.isNumberChar c = true) :
    Cause.message (.malformedNumber (String.ofList run)) =
      "Malformed number: '" ++ String.ofList run ++ "'" := by
  have front : "Malformed number: " ++ "'" = "Malformed number: '" := rfl
  change "Malformed number: " ++ Text.quoted (String.ofList run) = _
  rw [quoted_number inside, ← front]
  simp only [String.append_assoc]

/-! Places. -/

def numberRun (text : List Char) (position : Nat) : List Char :=
  (text.drop position).takeWhile Cursor.isNumberChar

/-- What the cause of a fault and its wording say about the text around a position. -/
def Pinpoints (text : List Char) (position : Nat) (fault : Fault) : Prop :=
  match fault.cause with
  | .unexpected _ =>
    text[position]? ≠ some ' ' ∧
      fault.message = "Unexpected: " ++ text[position]?.elim "end of input" String.singleton
  | .unclosed _ =>
    (∀ c ∈ [' ', ')', '+', '-', '*', '/', '^'], text[position]? ≠ some c) ∧
      ∃ before others, openings (text.take position) = before :: others ∧
        fault.message = if calledName before = [] then "Missing ')'"
          else "Missing ')' after argument to " ++ String.ofList (calledName before)
  | .malformedNumber _ =>
    numberRun text position ≠ [] ∧
      (∀ c, (text.take position).getLast? = some c → Cursor.isNumberChar c = false) ∧
      ((∀ c ∈ numberRun text position, c.isDigit = false) ∨
        2 ≤ (numberRun text position).count '.') ∧
      fault.message = "Malformed number: '" ++ String.ofList (numberRun text position) ++ "'"
  | .tooDeep limit => fault.message =
      "Expression too deeply nested (maximum depth is " ++ toString limit ++ ")"
  | _ => False

theorem getElem?_of_passes {text read : List Char} {place : Cursor}
    (passed : (Cursor.ofText text).Passes read place) :
    text[place.position]? = place.unread.head? := by
  obtain ⟨rfl, position⟩ := Cursor.split_of_passes passed
  rw [position, List.getElem?_append_right (Nat.le_refl _), Nat.sub_self, List.head?_eq_getElem?]

theorem pinpoints_of_diagnosis {limit : Int} {text read : List Char} {place : Cursor}
    {fault : Fault} (passed : (Cursor.ofText text).Passes read place)
    (diagnosis : Diagnosis (Fault.atCursor (.tooDeep limit)) read place fault) :
    fault.position = some place.position ∧ fault.char = text[place.position]? ∧
      fault.cause.kind ∈ [ErrorKind.grammar, .numberFormat, .nesting] ∧
      Pinpoints text place.position fault := by
  have shown := getElem?_of_passes passed
  obtain ⟨whole, position⟩ := Cursor.split_of_passes passed
  have front : text.take place.position = read := by rw [whole, position, List.take_left]
  have behind : text.drop place.position = place.unread := by rw [whole, position, List.drop_left]
  cases diagnosis with
  | unexpected visible =>
    refine ⟨rfl, shown.symm, by simp [Fault.atCursor, Cause.kind], ?_⟩
    refine ⟨shown ▸ visible, ?_⟩
    rw [shown]
    cases place.unread.head? <;> rfl
  | @unclosed before others innermost other =>
    refine ⟨rfl, shown.symm, by simp [Fault.atCursor, Cause.kind], ?_⟩
    refine ⟨fun c member => shown ▸ other c member, before, others, front ▸ innermost, ?_⟩
    rw [Fault.message, Fault.atCursor, callee]
    split <;> rfl
  | @malformed token last taken present apart unreadable =>
    refine ⟨rfl, shown.symm, by simp [Fault.atCursor, Cause.kind], ?_⟩
    have run : numberRun text place.position = token := by
      rw [numberRun, behind]
      exact congrArg Prod.fst taken
    have inside := @Cursor.holds_of_mem_takeWhile place Cursor.isNumberChar
    rw [taken] at inside
    subst run
    exact ⟨present, front ▸ apart, digits_of_decimal?_eq_none (fun c => inside) unreadable,
      message_malformedNumber fun c => inside⟩
  | nested => exact ⟨rfl, shown.symm, by simp [Fault.atCursor, Cause.kind], rfl⟩

theorem Diagnosis.of_nested {tooDeep tooDeep' : Cursor → Fault} {read : List Char} {place : Cursor}
    {fault : Fault} (diagnosis : Diagnosis tooDeep read place fault)
    (same : tooDeep place = fault → tooDeep' place = fault) :
    Diagnosis tooDeep' read place fault := by
  cases diagnosis with
  | unexpected visible => exact .unexpected visible
  | unclosed innermost other => exact .unclosed innermost other
  | malformed taken present apart unreadable => exact .malformed taken present apart unreadable
  | nested => exact same rfl ▸ .nested

theorem diagnosis_of_run {limit : Int} {stack : Nat} {text : String} {fault : Fault}
    (nameable : isNameable stack limit = true)
    (failed : (run limit stack text).result = .error fault)
    (sufficient : fault.cause ≠ .stackExhausted) :
    ∃ read place, (Cursor.ofText text.toList).Passes read place ∧
      Diagnosis (Fault.atCursor (.tooDeep limit)) read place fault := by
  obtain ⟨read, place, passed, diagnosis⟩ := diagnosed_whole (run_result_eq_error.mp failed)
  refine ⟨read, place, passed, Diagnosis.of_nested diagnosis fun same => ?_⟩
  by_cases beyond : (stack : Int) < limit
  · rw [nestingFault, if_pos beyond] at same
    exact absurd (congrArg Fault.cause same.symm) sufficient
  · have writable : Numeral.isWritable limit = true := by simpa [isNameable, beyond] using nameable
    rwa [nestingFault_of_isWritable (Int.not_lt.mp beyond) writable] at same

/-- An accepted text is evaluated to a value, or the fault is one of the text: it names a place in
the text with the character there, or the end with none, and what it says is seen around it. -/
theorem evaluate_pinpoints (bounds : Bounds) (limit : Option Int) (text : String)
    (accepted : accept bounds.maxLength (.text text) = .ok text)
    (nameable : isNameable bounds.stack (limit.getD bounds.maxDepth) = true)
    (sufficient : ∀ fault, (evaluate bounds (.text text) limit).result = .error fault →
      fault.cause ≠ .stackExhausted) :
    (∃ value, (evaluate bounds (.text text) limit).result = .ok value) ∨
      ∃ fault position, (evaluate bounds (.text text) limit).result = .error fault ∧
        fault.cause.kind ∈ [ErrorKind.grammar, .numberFormat, .nesting] ∧
        fault.position = some position ∧ position ≤ text.length ∧
        fault.char = text.toList[position]? ∧ (fault.char = none ↔ position = text.length) ∧
        Pinpoints text.toList position fault := by
  have evaluated : evaluate bounds (.text text) limit =
      run (limit.getD bounds.maxDepth) bounds.stack text := by
    rw [evaluate, accepted]
  rw [evaluated] at sufficient ⊢
  cases failed : (run (limit.getD bounds.maxDepth) bounds.stack text).result with
  | ok value => exact Or.inl ⟨value, rfl⟩
  | error fault =>
    obtain ⟨read, place, passed, diagnosis⟩ :=
      diagnosis_of_run nameable failed (sufficient fault failed)
    obtain ⟨named, char, kind, pinpoints⟩ := pinpoints_of_diagnosis passed diagnosis
    obtain ⟨whole, position⟩ := Cursor.split_of_passes passed
    have inside : place.position ≤ text.length := by
      rw [← String.length_toList, whole, position, List.length_append]
      exact Nat.le_add_right _ _
    refine Or.inr ⟨fault, place.position, rfl, kind, named, inside, char, ?_, pinpoints⟩
    rw [char, List.getElem?_eq_none_iff, String.length_toList]
    exact ⟨fun beyond => Nat.le_antisymm inside beyond, fun ends => Nat.le_of_eq ends.symm⟩

theorem evaluate_pinpoints_call :
    (evaluate .standard (.text "2*sum (1;") none).result =
        .error ⟨.unclosed (some "sum"), some 8, some ';'⟩ ∧
      ∃ before others, openings ("2*sum (1;".toList.take 8) = before :: others ∧
        "Missing ')' after argument to sum" = if calledName before = [] then "Missing ')'"
          else "Missing ')' after argument to " ++ String.ofList (calledName before) := by
  have failed : (evaluate .standard (.text "2*sum (1;") none).result =
      .error ⟨.unclosed (some "sum"), some 8, some ';'⟩ := rfl
  refine ⟨failed, ?_⟩
  rcases evaluate_pinpoints .standard none "2*sum (1;" rfl (by decide) (by rw [failed]; simp) with
    ⟨value, ended⟩ | ⟨fault, position, failed', _, named, _, _, _, pinpoints⟩
  · rw [failed] at ended
    cases ended
  · rw [failed] at failed'
    cases failed'
    cases named
    exact pinpoints.2

end Reckoner.Grammar
