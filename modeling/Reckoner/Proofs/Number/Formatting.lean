import Reckoner.Proofs.Number.ReadBack
import Reckoner.Proofs.Number.Significant
import Reckoner.Value.Number

/-!
Numbers as they are printed. With a given number of significant digits a finite double is written in
general form: behind the sign of the double stands the decimal that its exact value is rounded to,
with an exponent only where its leading digit is too far from the point. A negative number of digits
cannot be met, and the double is printed as it is quoted.
-/
namespace Reckoner.Decimal

/-- The exponent of the leading digit; that of zero is zero. -/
def HasExponent (x : ℚ) (exponent : ℤ) : Prop :=
  x = 0 ∧ exponent = 0 ∨ 10 ^ exponent ≤ x ∧ x < 10 ^ (exponent + 1)

def MarksExponent (exponent : ℤ) (text : List Char) : Prop :=
  ∃ digits, text = 'e' :: (if exponent < 0 then '-' else '+') :: digits ∧ 2 ≤ digits.length ∧
    (∀ c ∈ digits, c.isDigit = true) ∧ Numeral.ofDigits digits = exponent.natAbs

/-- A number in general form has no needless zeros behind its point, and it has an exponent exactly
if that is below minus four or not below the number of significant digits. Then one digit stands in
front of the point. -/
structure GeneralForm (digits : Nat) (writing : Writing) : Prop where
  trimmed : writing.places.getLast? ≠ some '0'
  window : ∃ exponent, HasExponent writing.decimal.value exponent ∧
    if -4 ≤ exponent ∧ exponent < digits then writing.exponent = none
    else writing.exponent = some exponent ∧ writing.whole.length = 1 ∧
      MarksExponent exponent writing.exponentPart

theorem marksExponent_exponentText (exponent : ℤ) :
    MarksExponent exponent ('e' :: exponentText exponent) := by
  refine ⟨Text.decimal 2 exponent.natAbs, rfl, ?_, fun _ => Numeral.isDigit_of_mem_decimal,
    Numeral.ofDigits_decimal 2 exponent.natAbs⟩
  rw [Text.decimal, Text.length_padded]
  exact Nat.le_max_left _ _

theorem hasExponent_value {d : Decimal} (zero : d.coefficient = 0 → d.exponent = 0) :
    HasExponent d.value d.exponent := by
  by_cases none : d.coefficient = 0
  · left
    rw [value, none, Nat.cast_zero, zero_mul]
    exact ⟨rfl, zero none⟩
  · right
    have power : (0 : ℚ) < 10 ^ d.scale := zpow_pos (by norm_num) _
    have lower : (10 : ℚ) ^ (width d.coefficient - 1) ≤ d.coefficient := by
      exact_mod_cast ten_pow_width_le (Nat.pos_of_ne_zero none)
    have upper : (d.coefficient : ℚ) < 10 ^ (width d.coefficient - 1) * 10 := by
      rw [← pow_succ, Nat.sub_add_cancel (width_pos d.coefficient)]
      exact_mod_cast lt_ten_pow_width d.coefficient
    have leading : (10 : ℚ) ^ d.exponent = 10 ^ (width d.coefficient - 1) * 10 ^ d.scale := by
      rw [exponent, add_comm, zpow_add₀ (by norm_num), zpow_natCast]
    rw [zpow_add_one₀ (by norm_num), leading, value]
    constructor
    · exact mul_le_mul_of_nonneg_right lower power.le
    · linarith [mul_lt_mul_of_pos_right upper power]

end Reckoner.Decimal

namespace Reckoner.NumberText

open Decimal (Writing GeneralForm RoundedTo)

variable {x : Float}

theorem exponent_roundedDecimal (digits : Nat)
    (zero : (roundedDecimal digits x).coefficient = 0) :
    (roundedDecimal digits x).exponent = 0 := by
  rw [roundedDecimal] at zero ⊢
  split
  next => rfl
  next some =>
    rw [if_neg some] at zero
    exact absurd zero
      (Decimal.coefficient_ofQuotient_ne_zero _ (Nat.pos_of_ne_zero some) Decimal.unitsPerOne_pos)

theorem exists_significant (finite : Binary64.isFinite x = true) (digits : Nat) :
    ∃ writing : Writing,
      (significant digits x).toList = Numeral.signed (Binary64.isNegative x) writing.text ∧
        writing.decimal.value = (roundedDecimal (max digits 1) x).value ∧
        GeneralForm (max digits 1) writing := by
  have zero := @exponent_roundedDecimal x (max digits 1)
  obtain ⟨writing, renders, plain, scientific⟩ :=
    (significantLayout (max digits 1) false).exists_renders rfl zero
  refine ⟨writing, ?_, renders.value_eq, renders.trimmed rfl,
    (roundedDecimal (max digits 1) x).exponent, ?_, ?_⟩
  · rw [significant, orSpecial, if_pos finite, String.toList_ofList, renders.text_eq]
    rfl
  · rw [renders.value_eq]
    exact Decimal.hasExponent_value zero
  · split
    next within => exact plain within
    next outside =>
      obtain ⟨exponent, single⟩ := scientific outside
      rw [Writing.exponentPart, exponent]
      exact ⟨rfl, single, Decimal.marksExponent_exponentText _⟩

theorem format_of_met {precision : Int} (some : 0 ≤ precision) (met : precision ≤ maxPrecision) :
    format (.int precision) (.float x) = significant precision.toNat x := by
  simp [format, Value.toInt?, Value.toFloat?, some, met]

theorem format_of_unmet {precision : Int} (unmet : ¬(0 ≤ precision ∧ precision ≤ maxPrecision)) :
    format (.int precision) (.float x) = shortest x := by
  simp only [format, Value.toInt?, Value.toFloat?, unmet, if_false]
  rfl

theorem head?_signed_eq_iff (negative : Bool) (writing : Writing) :
    (Numeral.signed negative writing.text).head? = some '-' ↔ negative = true := by
  cases negative with
  | true => exact iff_of_true rfl rfl
  | false =>
    obtain ⟨first, rest, text, digit⟩ := Numeral.exists_text_eq_cons writing
    refine iff_of_false (fun minus => ?_) Bool.false_ne_true
    rw [Numeral.signed, if_neg Bool.false_ne_true, text, List.head?_cons] at minus
    rw [Option.some.inj minus] at digit
    cases digit

/-- What is printed of a finite double stands for the number that the exact value of the double is
rounded to, with as many digits as asked for and at least one, in general form and behind a minus
for every negative double, also for zero. With less than no digits the double is quoted. -/
theorem format_of_isFinite (finite : Binary64.isFinite x = true) {precision : Int}
    (met : precision ≤ maxPrecision) :
    (0 ≤ precision → ∃ writing : Writing,
      (format (.int precision) (.float x)).toList =
          Numeral.signed (Binary64.isNegative x) writing.text ∧
        ((format (.int precision) (.float x)).toList.head? = some '-' ↔
          Binary64.isNegative x = true) ∧
        RoundedTo (max precision.toNat 1) (Binary64.value x)
          (Binary64.sign (Binary64.isNegative x) * writing.decimal.value) ∧
        GeneralForm (max precision.toNat 1) writing) ∧
      (precision < 0 → format (.int precision) (.float x) = (Value.float x).quoted) := by
  constructor
  · intro some
    obtain ⟨writing, text, value, general⟩ := exists_significant finite precision.toNat
    rw [format_of_met some met, text]
    refine ⟨writing, rfl, head?_signed_eq_iff _ _, ?_, general⟩
    rw [Binary64.value_eq_sign_mul, value]
    exact (roundedTo_roundedDecimal (by omega) finite).sign_mul _
  · intro negative
    rw [format_of_unmet (by omega), Value.quoted]

theorem format_of_isFinite_halfway :
    Binary64.isFinite (.ofBits 0xC004000000000000) = true ∧
      format (.int 1) (.float (.ofBits 0xC004000000000000)) = "-2" ∧
      (∃ writing : Writing, "-2".toList = Numeral.signed true writing.text ∧
        RoundedTo 1 (-5 / 2) (-writing.decimal.value) ∧ GeneralForm 1 writing) ∧
      format (.int (-1)) (.float (.ofBits 0xC004000000000000)) = "-2.5" := by
  have finite : Binary64.isFinite (.ofBits 0xC004000000000000) = true := by decide +kernel
  have printed : format (.int 1) (.float (.ofBits 0xC004000000000000)) = "-2" := by decide +kernel
  have negative : Binary64.isNegative (.ofBits 0xC004000000000000) = true := by decide +kernel
  have exact : Binary64.value (.ofBits 0xC004000000000000) = -5 / 2 := by decide +kernel
  obtain ⟨writing, text, _, rounded, general⟩ :=
    (@format_of_isFinite _ finite 1 (by decide)).1 (by decide)
  have quoted := (@format_of_isFinite _ finite (-1) (by decide)).2 (by decide)
  rw [printed, negative] at text
  rw [negative, exact, Binary64.sign, if_pos rfl, Int.cast_neg, Int.cast_one,
    neg_one_mul] at rounded
  refine ⟨finite, printed, ⟨writing, text, rounded, general⟩, ?_⟩
  rw [quoted, Value.quoted]
  decide +kernel

end Reckoner.NumberText
