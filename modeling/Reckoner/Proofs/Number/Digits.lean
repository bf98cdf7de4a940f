import Mathlib.Data.List.TakeDrop
import Reckoner.Decimal.Layout
import Reckoner.Numeral
import Reckoner.Proofs.Number.Nearest

/-!
The digits that a decimal is written with: they begin or end with a zero only where they are that
zero alone, and read as a number they are the coefficient without its factors of ten.
-/
namespace Reckoner.Numeral

theorem ofDigits_eq_ofDigitChars (digits : List Char) :
    ofDigits digits = Nat.ofDigitChars 10 digits 0 := by
  rw [ofDigits, Decimal.ofDigits, List.foldl_map, Nat.ofDigitChars_eq_foldl]

theorem ofDigits_append (front back : List Char) :
    ofDigits (front ++ back) = ofDigits front * 10 ^ back.length + ofDigits back := by
  simp only [ofDigits_eq_ofDigitChars]
  rw [Nat.ofDigitChars_append, Nat.ofDigitChars_eq_ofDigitChars_zero, Nat.mul_comm]

theorem ofDigits_zeros (count : Nat) : ofDigits (List.replicate count '0') = 0 := by
  rw [ofDigits_eq_ofDigitChars, Nat.ofDigitChars_replicate_zero, Nat.mul_zero]

theorem ofDigits_zeros_append (count : Nat) (digits : List Char) :
    ofDigits (List.replicate count '0' ++ digits) = ofDigits digits := by
  rw [ofDigits_append, ofDigits_zeros, Nat.zero_mul, Nat.zero_add]

theorem ofDigits_append_zeros (digits : List Char) (count : Nat) :
    ofDigits (digits ++ List.replicate count '0') = ofDigits digits * 10 ^ count := by
  rw [ofDigits_append, ofDigits_zeros, List.length_replicate, Nat.add_zero]

theorem ofDigits_toDigits (n : Nat) : ofDigits (Nat.toDigits 10 n) = n := by
  rw [ofDigits_eq_ofDigitChars, Nat.ofDigitChars_ten_toDigits]

theorem ofDigits_decimal (width n : Nat) : ofDigits (Text.decimal width n) = n := by
  rw [Text.decimal, Text.padded, ofDigits_zeros_append, ofDigits_toDigits]

theorem isDigit_of_mem_zeros {count : Nat} {c : Char} (member : c ∈ List.replicate count '0') :
    c.isDigit = true := by
  rw [List.eq_of_mem_replicate member]
  rfl

theorem isDigit_of_mem_decimal {width n : Nat} {c : Char} (member : c ∈ Text.decimal width n) :
    c.isDigit = true := by
  rcases List.mem_append.mp member with zero | digit
  · exact isDigit_of_mem_zeros zero
  · exact Nat.isDigit_of_mem_toDigits (by decide) (by decide) digit

theorem decimal_ne_nil (width n : Nat) : Text.decimal width n ≠ [] :=
  List.append_ne_nil_of_right_ne_nil _ Nat.toDigits_ne_nil

theorem head?_toDigits {n : Nat} (positive : 0 < n) : (Nat.toDigits 10 n).head? ≠ some '0' := by
  induction n using Nat.strongRecOn with
  | _ n shorter =>
    by_cases small : n < 10
    · rw [Nat.toDigits_of_lt_base small, List.head?_cons]
      have digits : ∀ m < 10, 0 < m → some (Nat.digitChar m) ≠ some '0' := by decide
      exact digits n small positive
    · rw [Nat.toDigits_of_base_le (by decide) (by omega),
        List.head?_append_of_ne_nil _ Nat.toDigits_ne_nil]
      exact shorter (n / 10) (by omega) (by omega)

end Reckoner.Numeral

namespace Reckoner.Decimal

theorem exists_trailingZeros_of_reverse (text : List Char) :
    ∃ zeros, text = (text.reverse.dropWhile (· = '0')).reverse ++ List.replicate zeros '0' := by
  refine ⟨(text.reverse.takeWhile (· = '0')).length, ?_⟩
  have zeros : text.reverse.takeWhile (· = '0') =
      List.replicate (text.reverse.takeWhile (· = '0')).length '0' :=
    List.eq_replicate_of_mem fun c member =>
      of_decide_eq_true (List.all_eq_true.mp List.all_takeWhile c member)
  calc text
      = (text.reverse.takeWhile (· = '0') ++ text.reverse.dropWhile (· = '0')).reverse := by
        rw [List.takeWhile_append_dropWhile, List.reverse_reverse]
    _ = (text.reverse.dropWhile (· = '0')).reverse ++
          (text.reverse.takeWhile (· = '0')).reverse := List.reverse_append
    _ = _ := by rw [zeros, List.reverse_replicate, List.length_replicate]

theorem exists_trailingZeros (d : Decimal) : ∃ zeros,
    Nat.toDigits 10 d.coefficient = d.significantDigits ++ List.replicate zeros '0' := by
  rw [significantDigits]
  split
  next zero => exact ⟨0, by rw [zero]; rfl⟩
  next => exact exists_trailingZeros_of_reverse _

theorem isDigit_of_mem_significantDigits {d : Decimal} {c : Char}
    (member : c ∈ d.significantDigits) : c.isDigit = true := by
  obtain ⟨zeros, digits⟩ := d.exists_trailingZeros
  have inside : c ∈ Nat.toDigits 10 d.coefficient := by
    rw [digits]
    exact List.mem_append_left _ member
  exact Nat.isDigit_of_mem_toDigits (by decide) (by decide) inside

theorem significantDigits_of_coefficient_eq_zero {d : Decimal} (zero : d.coefficient = 0) :
    d.significantDigits = ['0'] := by
  rw [significantDigits, if_pos zero]

theorem coefficient_eq_zero_of_head? {d : Decimal} (head : d.significantDigits.head? = some '0') :
    d.coefficient = 0 := by
  obtain ⟨zeros, digits⟩ := d.exists_trailingZeros
  have first : (Nat.toDigits 10 d.coefficient).head? = some '0' := by
    rw [digits, List.head?_append, head]
    rfl
  by_contra nonzero
  exact Numeral.head?_toDigits (Nat.pos_of_ne_zero nonzero) first

theorem getLast?_significantDigits {d : Decimal} (nonzero : d.coefficient ≠ 0) :
    d.significantDigits.getLast? ≠ some '0' := by
  rw [significantDigits, if_neg nonzero, List.getLast?_reverse]
  intro last
  have kept := List.head?_dropWhile_not (fun c => decide (c = '0'))
    (Nat.toDigits 10 d.coefficient).reverse
  rw [last] at kept
  exact absurd kept (by decide)

theorem significantDigits_ne_nil (d : Decimal) : d.significantDigits ≠ [] := by
  intro empty
  by_cases zero : d.coefficient = 0
  · rw [significantDigits_of_coefficient_eq_zero zero] at empty
    cases empty
  · obtain ⟨zeros, digits⟩ := d.exists_trailingZeros
    rw [empty, List.nil_append] at digits
    have value := Numeral.ofDigits_toDigits d.coefficient
    rw [digits, Numeral.ofDigits_zeros] at value
    exact zero value.symm

theorem getLast?_drop_significantDigits (d : Decimal) {count : Nat} (positive : 0 < count) :
    (d.significantDigits.drop count).getLast? ≠ some '0' := by
  rw [List.getLast?_drop]
  split
  next => exact (Option.some_ne_none _).symm
  next more =>
    have nonzero : d.coefficient ≠ 0 := by
      intro zero
      rw [significantDigits_of_coefficient_eq_zero zero, List.length_singleton] at more
      omega
    exact getLast?_significantDigits nonzero

theorem value_eq_significantDigits (d : Decimal) : d.value =
    Numeral.ofDigits d.significantDigits *
      10 ^ (d.exponent - (d.significantDigits.length - 1 : Nat)) := by
  obtain ⟨zeros, digits⟩ := d.exists_trailingZeros
  have coefficient : d.coefficient = Numeral.ofDigits d.significantDigits * 10 ^ zeros := by
    rw [← Numeral.ofDigits_append_zeros, ← digits, Numeral.ofDigits_toDigits]
  have width : width d.coefficient = d.significantDigits.length + zeros := by
    rw [width, digits, List.length_append, List.length_replicate]
  have some := List.length_pos_iff.mpr d.significantDigits_ne_nil
  have scale : d.exponent - (d.significantDigits.length - 1 : Nat) = d.scale + zeros := by
    rw [exponent, width]
    omega
  rw [scale, value, coefficient, zpow_add₀ (by norm_num), zpow_natCast]
  push_cast
  ring

end Reckoner.Decimal
