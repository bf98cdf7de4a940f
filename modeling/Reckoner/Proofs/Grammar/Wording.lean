import Reckoner.Proofs.Grammar.Pinpoint

/-!
How what is said about an expression is spelled. Quoted texts show every character, so no message
runs over its line, unless it names a line break where the expression cannot go on.
-/
namespace Reckoner.Text

/-! Quoted texts. -/

theorem isPrintable_digitChar (digit : Nat) : isPrintable digit.digitChar = true := by
  by_cases small : digit < 16
  · have digits : ∀ digit < 16, isPrintable (Nat.digitChar digit) = true := by decide
    exact digits digit small
  · rw [Nat.digitChar_eq_star.mpr (Nat.not_lt.mp small)]
    rfl

theorem isPrintable_of_mem_toDigits {base : Nat} (large : 1 < base) {number : Nat} {c : Char}
    (member : c ∈ Nat.toDigits base number) : isPrintable c = true := by
  induction number using Nat.strongRecOn with
  | _ number shorter =>
    by_cases small : number < base
    · rw [Nat.toDigits_of_lt_base small, List.mem_singleton] at member
      exact member ▸ isPrintable_digitChar number
    · rw [Nat.toDigits_of_base_le large (Nat.not_lt.mp small)] at member
      rcases List.mem_append.mp member with front | last
      · exact shorter _ (Nat.div_lt_self (by omega) large) front
      · rw [List.mem_singleton.mp last]
        exact isPrintable_digitChar _

theorem isPrintable_of_mem_hexadecimal {width number : Nat} {c : Char}
    (member : c ∈ hexadecimal width number) : isPrintable c = true := by
  rcases List.mem_append.mp member with zero | digit
  · rw [List.eq_of_mem_replicate zero]
    rfl
  · exact isPrintable_of_mem_toDigits (by decide) digit

theorem isPrintable_of_mem_numericEscape {code : Nat} {c : Char}
    (member : c ∈ numericEscape code) : isPrintable c = true := by
  have behind : ∀ {letter : Char} {width : Nat}, isPrintable letter = true →
      c ∈ '\\' :: letter :: hexadecimal width code → isPrintable c = true := by
    intro letter width shown member
    rcases List.mem_cons.mp member with rfl | member
    · rfl
    · rcases List.mem_cons.mp member with rfl | digit
      · exact shown
      · exact isPrintable_of_mem_hexadecimal digit
  unfold numericEscape at member
  split at member
  · exact behind (by decide) member
  · split at member
    · exact behind (by decide) member
    · exact behind (by decide) member

theorem isPrintable_of_mem_quotedChar {quote source c : Char} (shown : isPrintable quote = true)
    (member : c ∈ quotedChar isPrintable quote source) : isPrintable c = true := by
  unfold quotedChar at member
  split at member
  next enclosing =>
    have source : isPrintable source = true := by
      rcases (by simpa using enclosing : source = quote ∨ source = '\\') with rfl | rfl
      · exact shown
      · rfl
    simp only [List.mem_cons, List.not_mem_nil, or_false] at member
    rcases member with rfl | rfl
    · rfl
    · exact source
  next =>
    have letters : ∀ letter ∈ ['n', 'r', 't'], c ∈ ['\\', letter] → isPrintable c = true := by
      intro letter listed member
      simp only [List.mem_cons, List.not_mem_nil, or_false] at listed member
      rcases member with rfl | rfl
      · rfl
      · rcases listed with rfl | rfl | rfl <;> rfl
    split at member
    · exact letters 'n' (by simp) member
    · split at member
      · exact letters 'r' (by simp) member
      · split at member
        · exact letters 't' (by simp) member
        · split at member
          next plain => exact List.mem_singleton.mp member ▸ plain
          next => exact isPrintable_of_mem_numericEscape member

theorem isPrintable_of_mem_quoted {text : String} {c : Char} (member : c ∈ (quoted text).toList) :
    isPrintable c = true := by
  have quote : isPrintable (quoteFor text.toList) = true := by
    unfold quoteFor
    split <;> rfl
  rw [quoted, String.toList_ofList, quotedWith] at member
  rcases List.mem_append.mp member with content | last
  · rcases List.mem_cons.mp content with rfl | inside
    · exact quote
    · obtain ⟨source, _, written⟩ := List.mem_flatMap.mp inside
      exact isPrintable_of_mem_quotedChar quote written
  · rw [List.mem_singleton.mp last]
    exact quote

/-! Texts on one line. -/

theorem newline_not_mem_append {front back : String} (plain : '\n' ∉ front.toList)
    (plain' : '\n' ∉ back.toList) : '\n' ∉ (front ++ back).toList := by
  rw [String.toList_append, List.mem_append, not_or]
  exact ⟨plain, plain'⟩

theorem newline_not_mem_repr (number : Nat) : '\n' ∉ number.repr.toList := by
  intro member
  rw [Nat.repr, String.toList_ofList] at member
  have digit := Nat.isDigit_of_mem_toDigits (by decide) (by decide) member
  cases digit

theorem newline_not_mem_toString (number : Int) : '\n' ∉ (toString number).toList := by
  cases number with
  | ofNat number => exact newline_not_mem_repr number
  | negSucc number => exact newline_not_mem_append (by decide) (newline_not_mem_repr (number + 1))

theorem newline_not_mem_quoted (text : String) : '\n' ∉ (quoted text).toList := by
  intro member
  have shown := isPrintable_of_mem_quoted member
  revert shown
  decide

end Reckoner.Text

namespace Reckoner.Grammar

open Evaluator
open Text (newline_not_mem_append newline_not_mem_toString newline_not_mem_quoted)

/-! Messages. -/

theorem newline_not_mem_calledName (before : List Char) : '\n' ∉ calledName before := by
  intro member
  have letter := List.mem_rtakeWhile_imp member
  cases letter

/-- A fault of a text says nothing over more than one line, unless it is a line break that was not
expected. -/
theorem Diagnosis.newline_not_mem_message {limit : Int} {read : List Char} {place : Cursor}
    {fault : Fault} (diagnosis : Diagnosis (Fault.atCursor (.tooDeep limit)) read place fault)
    (other : fault.cause ≠ .unexpected (some '\n')) : '\n' ∉ fault.message.toList := by
  cases diagnosis with
  | unexpected visible =>
    cases unread : place.unread with
    | nil =>
      change '\n' ∉ "Unexpected: end of input".toList
      decide
    | cons found rest =>
      have different : '\n' ≠ found := by
        rintro rfl
        exact other (by rw [Fault.atCursor, unread, List.head?_cons])
      exact newline_not_mem_append (by decide) (by simpa using different)
  | @unclosed before others innermost _ =>
    rw [Fault.message, Fault.atCursor, callee]
    split
    · change '\n' ∉ "Missing ')'".toList
      decide
    · apply newline_not_mem_append (by decide)
      rw [String.toList_ofList]
      exact newline_not_mem_calledName before
  | malformed taken present apart unreadable =>
    exact newline_not_mem_append (by decide) (newline_not_mem_quoted _)
  | nested =>
    exact newline_not_mem_append
      (newline_not_mem_append (by decide) (newline_not_mem_toString limit)) (by decide)

theorem accept_text (limit : Int) (expression : String) :
    accept limit (.text expression) = .ok expression ∨
      accept limit (.text expression) = .error (Fault.ofInput (.tooLong limit)) := by
  rw [accept]
  split
  · exact Or.inr rfl
  · exact Or.inl rfl

/-- The message about a text that cannot be evaluated is one line, unless it shows a line break that
was not expected. -/
theorem newline_not_mem_message_of_evaluate {bounds : Bounds} {expression : String} {fault : Fault}
    (failed : (evaluate bounds (.text expression) none).result = .error fault)
    (other : fault.cause ≠ .unexpected (some '\n')) : '\n' ∉ fault.message.toList := by
  rw [evaluate] at failed
  rcases accept_text bounds.maxLength expression with accepted | refused
  · rw [accepted] at failed
    by_cases exhausted : fault.cause = .stackExhausted
    · rw [Fault.message, exhausted]
      decide
    · obtain ⟨read, place, _, diagnosis⟩ := diagnosis_of_run bounds.nameable failed exhausted
      exact diagnosis.newline_not_mem_message other
  · rw [refused] at failed
    obtain rfl := Except.error.inj failed
    exact newline_not_mem_append (newline_not_mem_append (by decide)
      (newline_not_mem_toString bounds.maxLength)) (by decide)

end Reckoner.Grammar
