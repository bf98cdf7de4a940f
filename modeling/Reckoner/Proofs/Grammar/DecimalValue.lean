import Reckoner.Proofs.Grammar.Evaluation
import Reckoner.Proofs.Number.Digits
import Reckoner.Proofs.Number.NearestDouble

/-!
Numbers as they are typed. A run of digits and points is evaluated to the double nearest to its
decimal value, and is refused at its first character if no digit or more than one point is in it.
Zeros that do not change the decimal value do not change the result.
-/
namespace Reckoner.Grammar

open Scan Evaluator
open Binary64 (Rounds)

def decimalValue (run : List Char) : ℚ :=
  Nat.ofDigitChars 10 (run.takeWhile (· ≠ '.')) 0 +
    Nat.ofDigitChars 10 ((run.dropWhile (· ≠ '.')).drop 1) 0 /
      10 ^ ((run.dropWhile (· ≠ '.')).drop 1).length

/-- No digit, or more than one point. -/
def Malformed (run : List Char) : Prop := (∀ c ∈ run, c.isDigit = false) ∨ 2 ≤ run.count '.'

/-- Other ways to write a number: with zeros in front of it, with zeros behind its places, and with
a point behind it that no places follow. -/
inductive Variant : List Char → List Char → Prop where
  | zerosInFront (count : Nat) (run : List Char) : Variant run (List.replicate count '0' ++ run)
  | zerosBehind (count : Nat) {run : List Char} (pointed : '.' ∈ run) :
      Variant run (run ++ List.replicate count '0')
  | point {run : List Char} (whole : '.' ∉ run) : Variant run (run ++ ['.'])

def resultBetween (bounds : Bounds) (limit : Option Int) (before : Nat) (run : List Char)
    (after : Nat) : Except Fault Float :=
  (evaluate bounds (.text (String.ofList (spaces before ++ (run ++ spaces after)))) limit).result

/-! Decimal values. -/

theorem decimalValue_of_not_mem {run : List Char} (whole : '.' ∉ run) :
    decimalValue run = Numeral.ofDigits run := by
  have inside : ∀ c ∈ run, decide (c ≠ '.') = true := fun c member =>
    decide_eq_true fun point => whole (point ▸ member)
  obtain ⟨taken, dropped⟩ := @takeWhile_append_of_stops _ run [] inside (by simp)
  rw [List.append_nil] at taken dropped
  rw [decimalValue, taken, dropped, Numeral.ofDigits_eq_ofDigitChars]
  simp

theorem decimalValue_point {whole : List Char} (inside : '.' ∉ whole) (places : List Char) :
    decimalValue (whole ++ '.' :: places) =
      Numeral.ofDigits whole + Numeral.ofDigits places / 10 ^ places.length := by
  have inside' : ∀ c ∈ whole, decide (c ≠ '.') = true := fun c member =>
    decide_eq_true fun point => inside (point ▸ member)
  obtain ⟨taken, dropped⟩ := @takeWhile_append_of_stops _ whole ('.' :: places) inside' (by simp)
  rw [decimalValue, taken, dropped, Numeral.ofDigits_eq_ofDigitChars,
    Numeral.ofDigits_eq_ofDigitChars]
  rfl

theorem not_mem_zeros_append {count : Nat} {text : List Char} (whole : '.' ∉ text) :
    '.' ∉ List.replicate count '0' ++ text := by
  intro member
  rcases List.mem_append.mp member with zero | inside
  · exact absurd (List.eq_of_mem_replicate zero) (by decide)
  · exact whole inside

theorem Variant.decimalValue_eq {run other : List Char} (variant : Variant run other) :
    decimalValue other = decimalValue run := by
  cases variant with
  | zerosInFront count =>
    by_cases pointed : '.' ∈ run
    · obtain ⟨whole, places, rfl, inside⟩ := List.eq_append_cons_of_mem pointed
      rw [← List.append_assoc, decimalValue_point (not_mem_zeros_append inside),
        decimalValue_point inside, Numeral.ofDigits_zeros_append]
    · rw [decimalValue_of_not_mem (not_mem_zeros_append pointed), decimalValue_of_not_mem pointed,
        Numeral.ofDigits_zeros_append]
  | zerosBehind count pointed =>
    obtain ⟨whole, places, rfl, inside⟩ := List.eq_append_cons_of_mem pointed
    rw [List.append_assoc, List.cons_append, decimalValue_point inside, decimalValue_point inside,
      Numeral.ofDigits_append_zeros, List.length_append, List.length_replicate, pow_add,
      Nat.cast_mul, Nat.cast_pow, Nat.cast_ofNat, mul_div_mul_right _ _ (by positivity)]
  | point whole =>
    rw [decimalValue_point whole, decimalValue_of_not_mem whole]
    simp [Numeral.ofDigits, Decimal.ofDigits]

theorem decimalValue_text (literal : Literal) :
    decimalValue literal.text = literal.decimal.value := by
  have digits := literal.digits
  have noPoint {text : List Char} (inside : ∀ c ∈ text, c.isDigit = true) : '.' ∉ text :=
    fun member => absurd (inside '.' member) (by decide)
  unfold Literal.text Literal.decimal Decimal.value
  cases part : literal.fraction with
  | none =>
    simp only [part, Option.getD_none, List.append_nil] at digits
    simp [decimalValue_of_not_mem (noPoint digits)]
  | some fraction =>
    simp only [part, Option.getD_some] at digits
    have whole := noPoint fun c member => digits c (List.mem_append_left fraction member)
    simp only [Option.map_some, Option.getD_some, decimalValue_point whole,
      Numeral.ofDigits_append, zpow_neg, zpow_natCast]
    push_cast
    field_simp

/-! Malformed runs. -/

theorem not_malformed_iff {run : List Char} :
    ¬Malformed run ↔ (∃ c ∈ run, c.isDigit = true) ∧ run.count '.' < 2 := by
  simp [Malformed]

theorem Literal.not_malformed (literal : Literal) : ¬Malformed literal.text := by
  have digits := literal.digits
  have noPoint {text : List Char} (inside : ∀ c ∈ text, c.isDigit = true) : text.count '.' = 0 :=
    List.count_eq_zero.mpr fun member => absurd (inside '.' member) (by decide)
  obtain ⟨c, rest, some⟩ := List.exists_cons_of_ne_nil literal.someDigit
  have member : c ∈ literal.whole ++ literal.fraction.getD [] := some ▸ List.mem_cons_self
  rw [not_malformed_iff, Literal.text]
  cases part : literal.fraction with
  | none =>
    simp only [part, Option.getD_none, List.append_nil] at digits member
    simp only [Option.map_none, Option.getD_none, List.append_nil, noPoint digits]
    exact ⟨⟨c, member, digits c member⟩, by decide⟩
  | some fraction =>
    simp only [part, Option.getD_some] at digits member
    have whole := noPoint fun c member => digits c (List.mem_append_left fraction member)
    have places := noPoint fun c member => digits c (List.mem_append_right literal.whole member)
    simp only [Option.map_some, Option.getD_some, List.count_append, List.count_cons_self, whole,
      places]
    refine ⟨⟨c, ?_, digits c member⟩, by decide⟩
    rcases List.mem_append.mp member with front | behind
    · exact List.mem_append_left _ front
    · exact List.mem_append_right _ (List.mem_cons_of_mem _ behind)

theorem Variant.not_malformed {run other : List Char} (variant : Variant run other)
    (formed : ¬Malformed run) : ¬Malformed other := by
  obtain ⟨⟨c, member, digit⟩, points⟩ := not_malformed_iff.mp formed
  rw [not_malformed_iff]
  cases variant with
  | zerosInFront count =>
    refine ⟨⟨c, List.mem_append_right _ member, digit⟩, ?_⟩
    simpa [List.count_replicate] using points
  | zerosBehind count pointed =>
    refine ⟨⟨c, List.mem_append_left _ member, digit⟩, ?_⟩
    simpa [List.count_replicate] using points
  | point whole =>
    refine ⟨⟨c, List.mem_append_left _ member, digit⟩, ?_⟩
    simp [List.count_eq_zero.mpr whole]

theorem Variant.numeric {run other : List Char} (variant : Variant run other)
    (numeric : ∀ c ∈ run, Cursor.isNumberChar c = true) :
    ∀ c ∈ other, Cursor.isNumberChar c = true := by
  have zero {count : Nat} {c : Char} (member : c ∈ List.replicate count '0') :
      Cursor.isNumberChar c = true := by
    rw [List.eq_of_mem_replicate member]
    rfl
  intro c member
  cases variant with
  | zerosInFront count => exact (List.mem_append.mp member).elim zero (numeric c)
  | zerosBehind count pointed => exact (List.mem_append.mp member).elim (numeric c) zero
  | point whole =>
    refine (List.mem_append.mp member).elim (numeric c) fun last => ?_
    rw [List.mem_singleton.mp last]
    rfl

theorem decimal?_eq_none_iff {run : List Char}
    (numeric : ∀ c ∈ run, Cursor.isNumberChar c = true) :
    Numeral.decimal? run = none ↔ Malformed run := by
  constructor
  · exact digits_of_decimal?_eq_none numeric
  · intro malformed
    by_contra readable
    obtain ⟨decimal, read⟩ := Option.ne_none_iff_exists'.mp readable
    obtain ⟨literal, rfl, _⟩ := exists_literal_of_decimal? numeric read
    exact literal.not_malformed malformed

/-! The evaluation of a run. -/

section Run

variable {bounds : Bounds} {limit : Option Int} {run : List Char}

def Literal.phrase (literal : Literal) : Phrase .expression :=
  .term (.factor (.primary (.number literal)))

theorem Literal.spells (literal : Literal) (before after : Nat) :
    Spells literal.phrase.tokens (spaces before ++ (literal.text ++ spaces after)) :=
  .token before (fun name => absurd name (not_isName_number literal)) (.blank after)

theorem resultBetween_literal (uncapped : bounds.maxLength ≤ 0)
    (room : 1 ≤ limit.getD bounds.maxDepth) (stacked : 1 ≤ bounds.stack) (literal : Literal)
    (before after : Nat) :
    resultBetween bounds limit before literal.text after =
      .ok (Binary64.ofRank false literal.decimal.nearestRank) := by
  have nesting : literal.phrase.nesting = 1 := rfl
  have spelled := literal.spells before after
  rw [← @String.toList_ofList (spaces before ++ (literal.text ++ spaces after))] at spelled
  rw [resultBetween, evaluate_of_uncapped uncapped,
    run_of_spells literal.phrase spelled (by omega), ← Decimal.toFloat_eq]
  rfl

theorem fails_factor_of_unreadable {tooDeep : Cursor → Fault} {room before after : Nat}
    (numeric : ∀ c ∈ run, Cursor.isNumberChar c = true) (present : run ≠ [])
    (unreadable : Numeral.decimal? run = none) :
    Fails (factor tooDeep (room + 1)) (Cursor.ofText (spaces before ++ (run ++ spaces after)))
      ⟨.malformedNumber (String.ofList run), some before, run.head?⟩ := by
  obtain ⟨c, rest, same⟩ := List.exists_cons_of_ne_nil present
  have number : Cursor.isNumberChar c = true := numeric c (same ▸ List.mem_cons_self)
  have visible : c ≠ ' ' := by
    rintro rfl
    exact absurd number (by decide)
  have place : (Cursor.ofText (spaces before ++ (run ++ spaces after))).skipSpaces =
      ⟨before, run ++ spaces after⟩ := by
    have passed := Cursor.passes_of_append 0 (spaces before) (run ++ spaces after)
    rw [length_spaces, Nat.zero_add] at passed
    rw [Cursor.ofText, Cursor.skipSpaces_of_passes passed, Cursor.skipSpaces_of_head]
    simpa [same] using visible
  have ahead : (Cursor.ofText (spaces before ++ (run ++ spaces after))).upcoming = some c := by
    rw [Cursor.upcoming, place, same]
    rfl
  have unsigned : c ≠ '+' ∧ c ≠ '-' := by
    constructor <;> rintro rfl <;> exact absurd number (by decide)
  have taken : (⟨before, run ++ spaces after⟩ : Cursor).takeWhile Cursor.isNumberChar =
      (run, ⟨before + run.length, spaces after⟩) := by
    apply Cursor.takeWhile_of_passes _ (Cursor.passes_of_append before run (spaces after)) numeric
    intro blank head
    rw [eq_space_of_mem_spaces (List.mem_of_mem_head? head)]
    rfl
  rw [Fails, factor_apply_of_unsigned (by simp [ahead, unsigned.1]) (by simp [ahead, unsigned.2]),
    ← Fails, fails_powered]
  left
  rw [Fails, primary_apply_of_number (by rw [Cursor.upcoming_skipSpaces, ahead]) number, ← Fails,
    Cursor.skipSpaces_skipSpaces, place, fails_number, taken]
  exact ⟨unreadable, by simp [Fault.atCursor, same]⟩

theorem resultBetween_unreadable (uncapped : bounds.maxLength ≤ 0)
    (room : 1 ≤ limit.getD bounds.maxDepth) (stacked : 1 ≤ bounds.stack)
    (numeric : ∀ c ∈ run, Cursor.isNumberChar c = true) (present : run ≠ [])
    (unreadable : Numeral.decimal? run = none) (before after : Nat) :
    resultBetween bounds limit before run after =
      .error ⟨.malformedNumber (String.ofList run), some before, run.head?⟩ := by
  obtain ⟨rest, more⟩ : ∃ rest, min (limit.getD bounds.maxDepth).toNat bounds.stack = rest + 1 :=
    ⟨min (limit.getD bounds.maxDepth).toNat bounds.stack - 1, by omega⟩
  rw [resultBetween, evaluate_of_uncapped uncapped, run_result_eq_error, String.toList_ofList, more,
    fails_whole]
  have forward :=
    advances_factor (nestingFault (limit.getD bounds.maxDepth) bounds.stack) (rest + 1)
  have failed : Fails
      (term (factor (nestingFault (limit.getD bounds.maxDepth) bounds.stack) (rest + 1)))
      (Cursor.ofText (spaces before ++ (run ++ spaces after)))
      ⟨.malformedNumber (String.ofList run), some before, run.head?⟩ :=
    (fails_chain forward).mpr (Or.inl (fails_factor_of_unreadable numeric present unreadable))
  exact Or.inl ((fails_chain (advances_term forward)).mpr (Or.inl failed))

/-- A run of digits and points with spaces around it is refused at its first character if it is
malformed. Else it is evaluated to the double nearest to its decimal value, which is positive also
where it is zero, and so is every other way to write the number. -/
theorem evaluate_number (uncapped : bounds.maxLength ≤ 0) (room : 1 ≤ limit.getD bounds.maxDepth)
    (stacked : 1 ≤ bounds.stack) (numeric : ∀ c ∈ run, Cursor.isNumberChar c = true)
    (present : run ≠ []) (before after : Nat) :
    (Malformed run → resultBetween bounds limit before run after =
        .error ⟨.malformedNumber (String.ofList run), some before, run.head?⟩) ∧
      (¬Malformed run → ∃ x, Binary64.isNegative x = false ∧ Rounds (decimalValue run) x ∧
        resultBetween bounds limit before run after = .ok x ∧
        ∀ other, Variant run other → ∀ before' after',
          resultBetween bounds limit before' other after' = .ok x) := by
  constructor
  · intro malformed
    have unreadable := (decimal?_eq_none_iff numeric).mpr malformed
    exact resultBetween_unreadable uncapped room stacked numeric present unreadable before after
  · intro formed
    have literals {text : List Char} (numeric : ∀ c ∈ text, Cursor.isNumberChar c = true)
        (formed : ¬Malformed text) : ∃ literal : Literal, literal.text = text := by
      have readable := (decimal?_eq_none_iff numeric).not.mpr formed
      obtain ⟨decimal, read⟩ := Option.ne_none_iff_exists'.mp readable
      obtain ⟨literal, text, _⟩ := exists_literal_of_decimal? numeric read
      exact ⟨literal, text⟩
    obtain ⟨literal, rfl⟩ := literals numeric formed
    refine ⟨_, ?_, ?_, resultBetween_literal uncapped room stacked literal before after, ?_⟩
    · exact Binary64.isNegative_ofRank false (Nat.min_le_left _ _)
    · have rounds := literal.decimal.rounds_ofRank_nearestRank false
      rw [decimalValue_text]
      rwa [Binary64.sign, if_neg Bool.false_ne_true, Int.cast_one, one_mul] at rounds
    · intro other variant before' after'
      obtain ⟨literal', rfl⟩ := literals (variant.numeric numeric) (variant.not_malformed formed)
      have same := variant.decimalValue_eq
      rw [decimalValue_text, decimalValue_text] at same
      rw [resultBetween_literal uncapped room stacked literal',
        Decimal.nearestRank_eq_of_value_eq same]

end Run

/-- The number halfway between two doubles, with a point that no places follow, and a malformed
number. -/
theorem evaluate_number_halfway :
    (∃ x, Binary64.isNegative x = false ∧ Rounds (2 ^ 53 + 1) x ∧
        resultBetween .standard (some 1) 2 "9007199254740993.".toList 1 = .ok x ∧
        resultBetween .standard (some 1) 0 "9007199254740993.00".toList 0 = .ok x) ∧
      resultBetween .standard (some 1) 1 "1.2.3".toList 0 =
        .error ⟨.malformedNumber "1.2.3", some 1, some '1'⟩ := by
  have exact : decimalValue "9007199254740993.".toList = 2 ^ 53 + 1 := by decide +kernel
  have number := @evaluate_number .standard (some 1) "9007199254740993.".toList (by decide)
    (by decide) (by decide) (List.all_eq_true.mp rfl) (by decide) 2 1
  have malformed := @evaluate_number .standard (some 1) "1.2.3".toList (by decide)
    (by decide) (by decide) (List.all_eq_true.mp rfl) (by decide) 1 0
  obtain ⟨x, positive, rounds, result, variants⟩ :=
    number.2 (not_malformed_iff.mpr ⟨⟨'9', by decide, rfl⟩, by decide⟩)
  rw [exact] at rounds
  have places := variants _ (.zerosBehind 2 (by decide)) 0 0
  exact ⟨⟨x, positive, rounds, result, places⟩, malformed.1 (Or.inr (by decide))⟩

end Reckoner.Grammar
