import Mathlib.Data.List.TakeDrop
import Reckoner.Proofs.Grammar.Spelling

/-!
Which runs of digits and points are numbers: those with a digit and without a second point, and
each of them is read as the decimal of its literal.
-/
namespace Reckoner.Grammar

theorem span_isDigit (run rest : List Char) (digits : ∀ c ∈ run, c.isDigit = true)
    (stops : ∀ c, rest.head? = some c → c.isDigit = false) :
    (run ++ rest).span Char.isDigit = (run, rest) := by
  have parts := takeWhile_append_of_stops digits stops
  rw [List.span_eq_takeWhile_dropWhile, parts.1, parts.2]

theorem decimal?_whole {whole : List Char} (digits : ∀ c ∈ whole, c.isDigit = true) :
    Numeral.decimal? whole =
      if whole = [] then none else some ⟨Numeral.ofDigits whole, 0⟩ := by
  have spanned := span_isDigit whole [] digits (by simp)
  rw [List.append_nil] at spanned
  unfold Numeral.decimal?
  simp only [spanned]
  cases whole with
  | nil => rfl
  | cons c whole => simp

theorem decimal?_point (whole fraction rest : List Char)
    (digits : ∀ c ∈ whole, c.isDigit = true) (digits' : ∀ c ∈ fraction, c.isDigit = true)
    (stops : ∀ c, rest.head? = some c → c = '.') :
    Numeral.decimal? (whole ++ '.' :: (fraction ++ rest)) =
      if whole ++ fraction = [] ∨ rest ≠ [] then none
      else some ⟨Numeral.ofDigits (whole ++ fraction), -(fraction.length : Int)⟩ := by
  have first := span_isDigit whole ('.' :: (fraction ++ rest)) digits (by simp)
  have second := span_isDigit fraction rest digits' (by
    intro c head
    rw [stops c head]
    rfl)
  unfold Numeral.decimal?
  simp only [first, second]
  by_cases empty : whole ++ fraction = []
  · have parts := List.append_eq_nil_iff.mp empty
    simp [parts.1, parts.2]
  · have some : ¬(whole.isEmpty && fraction.isEmpty) = true := by
      simpa [List.append_eq_nil_iff] using empty
    simp only [some, Bool.false_eq_true, ↓reduceIte]
    cases rest with
    | nil => simp [empty]
    | cons c rest =>
      have point := stops c rfl
      subst point
      simp [empty]

theorem decimal?_text (literal : Literal) :
    Numeral.decimal? literal.text = some literal.decimal := by
  have digits := literal.digits
  have some := literal.someDigit
  unfold Literal.text Literal.decimal
  cases part : literal.fraction with
  | none =>
    simp only [part, Option.getD_none, List.append_nil] at digits some
    simp [decimal?_whole digits, some]
  | some fraction =>
    simp only [part, Option.getD_some] at digits some
    have read := decimal?_point literal.whole fraction []
      (fun c member => digits c (List.mem_append_left fraction member))
      (fun c member => digits c (List.mem_append_right literal.whole member)) (by simp)
    rw [List.append_nil] at read
    simp [read, some]

theorem exists_digits {token : List Char} (inside : ∀ c ∈ token, Cursor.isNumberChar c = true) :
    ∃ digits rest, token = digits ++ rest ∧ (∀ c ∈ digits, c.isDigit = true) ∧
      ∀ c, rest.head? = some c → c = '.' := by
  have split : token = token.takeWhile Char.isDigit ++ token.dropWhile Char.isDigit :=
    List.takeWhile_append_dropWhile.symm
  refine ⟨_, _, split, List.all_eq_true.mp List.all_takeWhile, ?_⟩
  intro c head
  have stop := List.head?_dropWhile_not Char.isDigit token
  rw [head] at stop
  have char : Cursor.isNumberChar c = true :=
    inside c ((List.dropWhile_sublist _).mem (List.mem_of_mem_head? head))
  simp only [Cursor.isNumberChar, Bool.or_eq_true, decide_eq_true_eq] at char
  rcases char with point | digit
  · exact point
  · simp [digit] at stop

theorem exists_literal_of_decimal? {token : List Char} {decimal : Decimal}
    (inside : ∀ c ∈ token, Cursor.isNumberChar c = true)
    (read : Numeral.decimal? token = some decimal) :
    ∃ literal : Literal, literal.text = token ∧ literal.decimal = decimal := by
  obtain ⟨whole, rest, rfl, digits, point⟩ := exists_digits inside
  cases rest with
  | nil =>
    rw [List.append_nil, decimal?_whole digits] at read
    by_cases empty : whole = []
    · simp [empty] at read
    · rw [if_neg empty] at read
      refine ⟨⟨whole, none, by simpa using digits, by simpa using empty⟩, rfl, ?_⟩
      simpa [Literal.decimal] using read
  | cons c behind =>
    obtain rfl := point c rfl
    have inside' : ∀ c ∈ behind, Cursor.isNumberChar c = true := by
      intro c member
      exact inside c (List.mem_append_right whole (List.mem_cons_of_mem _ member))
    obtain ⟨fraction, rest, rfl, digits', point'⟩ := exists_digits inside'
    rw [decimal?_point whole fraction rest digits digits' point'] at read
    by_cases bad : whole ++ fraction = [] ∨ rest ≠ []
    · rw [if_pos bad] at read
      cases read
    · rw [if_neg bad] at read
      obtain ⟨present, nothing⟩ := not_or.mp bad
      obtain rfl : rest = [] := by simpa using nothing
      have digits'' : ∀ c ∈ whole ++ fraction, c.isDigit = true := by
        intro c member
        rcases List.mem_append.mp member with before | after
        · exact digits c before
        · exact digits' c after
      refine ⟨⟨whole, some fraction, digits'', present⟩, ?_, Option.some.inj read⟩
      simp [Literal.text]

theorem digits_of_decimal?_eq_none {token : List Char}
    (inside : ∀ c ∈ token, Cursor.isNumberChar c = true)
    (unreadable : Numeral.decimal? token = none) :
    (∀ c ∈ token, c.isDigit = false) ∨ 2 ≤ token.count '.' := by
  obtain ⟨whole, rest, rfl, digits, point⟩ := exists_digits inside
  cases rest with
  | nil =>
    rw [List.append_nil, decimal?_whole digits] at unreadable
    have empty : whole = [] := by simpa using unreadable
    simp [empty]
  | cons c behind =>
    obtain rfl := point c rfl
    have inside' : ∀ c ∈ behind, Cursor.isNumberChar c = true := fun c member =>
      inside c (List.mem_append_right whole (List.mem_cons_of_mem _ member))
    obtain ⟨fraction, rest, rfl, digits', point'⟩ := exists_digits inside'
    rw [decimal?_point whole fraction rest digits digits' point'] at unreadable
    have bad : whole ++ fraction = [] ∨ rest ≠ [] := by
      by_contra good
      rw [if_neg good] at unreadable
      cases unreadable
    cases rest with
    | nil =>
      have empty := List.append_eq_nil_iff.mp (bad.resolve_right (by simp))
      refine Or.inl ?_
      simp [empty.1, empty.2]
    | cons c rest =>
      obtain rfl := point' c rfl
      refine Or.inr ?_
      simp only [List.count_append, List.count_cons_self]
      omega

end Reckoner.Grammar
