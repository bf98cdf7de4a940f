import Reckoner.Proofs.Number.Digits

/-!
Every layout without a bare point writes a decimal as a plain number: digits without needless zeros
in front, digits behind a point without needless zeros at the end, and an exponent, of which the
last two may be missing. Such a text is read as a decimal of the same value.
-/
namespace Reckoner.Decimal

structure Writing where
  /-- The digits in front of the point. -/
  whole : List Char
  /-- The digits behind the point; without any there is no point. -/
  places : List Char
  exponent : Option Int
  digits : ∀ c ∈ whole ++ places, c.isDigit = true
  present : whole ≠ []
  /-- A number begins with a zero only in front of its point. -/
  leading : whole.head? = some '0' → whole = ['0']

namespace Writing

def exponentPart (writing : Writing) : List Char :=
  (writing.exponent.map fun exponent => 'e' :: exponentText exponent).getD []

def text (writing : Writing) : List Char :=
  writing.whole ++ fraction false writing.places ++ writing.exponentPart

def decimal (writing : Writing) : Decimal where
  coefficient := Numeral.ofDigits (writing.whole ++ writing.places)
  scale := writing.exponent.getD 0 - writing.places.length

end Writing

/-- A writing of a decimal by a text. Its places end in no zero, unless whole numbers are marked by
one. -/
structure Writing.Renders (writing : Writing) (d : Decimal) (marksWhole : Bool)
    (text : List Char) : Prop where
  text_eq : writing.text = text
  value_eq : writing.decimal.value = d.value
  trimmed : marksWhole = false → writing.places.getLast? ≠ some '0'

def WrittenAs (d : Decimal) (exponent : Option Int) (text : List Char) : Prop :=
  ∃ writing : Writing,
    writing.exponent = exponent ∧ writing.text = text ∧ writing.decimal.value = d.value

section Layout

variable {d : Decimal}

/-- A writing with the significant digits of a number, followed by zeros, has its value if the last
digit stands in the right place. -/
theorem Writing.value_decimal {writing : Writing} (zeros : Nat)
    (coefficient : Numeral.ofDigits (writing.whole ++ writing.places) =
      Numeral.ofDigits d.significantDigits * 10 ^ zeros)
    (place : writing.exponent.getD 0 - writing.places.length + zeros =
      d.exponent - (d.significantDigits.length - 1 : Nat)) :
    writing.decimal.value = d.value := by
  rw [value_eq_significantDigits d, ← place, value, decimal, coefficient, zpow_add₀ (by norm_num),
    zpow_natCast]
  push_cast
  ring

theorem leading_of_head? {digits : List Char} (same : digits.head? = d.significantDigits.head?)
    (short : d.coefficient = 0 → digits.length = 1) (head : digits.head? = some '0') :
    digits = ['0'] := by
  have zero : d.coefficient = 0 := coefficient_eq_zero_of_head? (same.symm.trans head)
  obtain ⟨c, single⟩ := List.length_eq_one_iff.mp (short zero)
  rw [single, List.head?_cons] at head
  rw [single, Option.some.inj head]

theorem leading_take {count : Nat} (positive : 0 < count) :
    (d.significantDigits.take count).head? = some '0' → d.significantDigits.take count = ['0'] := by
  apply leading_of_head? (List.head?_take.trans (if_neg positive.ne'))
  intro zero
  rw [significantDigits_of_coefficient_eq_zero zero, List.length_take, List.length_singleton]
  omega

theorem digits_append {front back : List Char} (digits : ∀ c ∈ front, c.isDigit = true)
    (digits' : ∀ c ∈ back, c.isDigit = true) : ∀ c ∈ front ++ back, c.isDigit = true := by
  intro c member
  rcases List.mem_append.mp member with before | after
  · exact digits c before
  · exact digits' c after

theorem exists_positional_of_neg (marksWhole : Bool) (zero : d.coefficient = 0 → d.exponent = 0)
    (negative : d.exponent < 0) :
    ∃ writing : Writing, writing.exponent = none ∧ writing.Renders d marksWhole
      (positional marksWhole false d.significantDigits d.exponent) := by
  have nonzero : d.coefficient ≠ 0 := fun none => negative.ne (zero none)
  have zero : ∀ c ∈ ['0'], c.isDigit = true := List.forall_mem_singleton.mpr rfl
  have zeros : ∀ c ∈ List.replicate (-d.exponent - 1).toNat '0', c.isDigit = true := fun _ =>
    Numeral.isDigit_of_mem_zeros
  have digits : ∀ c ∈ d.significantDigits, c.isDigit = true := fun _ =>
    isDigit_of_mem_significantDigits
  have some := List.length_pos_iff.mpr d.significantDigits_ne_nil
  refine ⟨⟨['0'], List.replicate (-d.exponent - 1).toNat '0' ++ d.significantDigits, none,
    digits_append zero (digits_append zeros digits), by decide, fun _ => rfl⟩, rfl, ?_, ?_, ?_⟩
  · rw [positional, if_pos negative, Writing.text, Writing.exponentPart]
    simp
  · apply Writing.value_decimal 0
    · rw [Nat.pow_zero, Nat.mul_one]
      exact (Numeral.ofDigits_zeros_append 1 _).trans (Numeral.ofDigits_zeros_append _ _)
    · simp only [List.length_append, List.length_replicate, Option.getD_none]
      omega
  · intro _
    rw [List.getLast?_append_of_ne_nil _ d.significantDigits_ne_nil]
    exact getLast?_significantDigits nonzero

theorem exists_positional_of_whole (marksWhole : Bool)
    (zero : d.coefficient = 0 → d.exponent = 0) (positive : 0 ≤ d.exponent)
    (whole : d.significantDigits.length ≤ d.exponent.toNat + 1) :
    ∃ writing : Writing, writing.exponent = none ∧ writing.Renders d marksWhole
      (positional marksWhole false d.significantDigits d.exponent) := by
  have zeros {count : Nat} : ∀ c ∈ List.replicate count '0', c.isDigit = true := fun _ =>
    Numeral.isDigit_of_mem_zeros
  have digits : ∀ c ∈ d.significantDigits, c.isDigit = true := fun _ =>
    isDigit_of_mem_significantDigits
  have some := List.length_pos_iff.mpr d.significantDigits_ne_nil
  obtain ⟨count, fills⟩ : ∃ count, count = d.exponent.toNat + 1 - d.significantDigits.length :=
    ⟨_, rfl⟩
  obtain ⟨marks, marked⟩ : ∃ marks, marks = if marksWhole then 1 else 0 := ⟨_, rfl⟩
  refine ⟨⟨d.significantDigits ++ List.replicate count '0', List.replicate marks '0', none,
    digits_append (digits_append digits zeros) zeros, by simp [d.significantDigits_ne_nil],
    leading_of_head? (List.head?_append_of_ne_nil _ d.significantDigits_ne_nil) ?_⟩,
    rfl, ?_, ?_, ?_⟩
  · -- A zero has one digit and the exponent zero, so nothing is filled up.
    intro none
    have unit : d.significantDigits.length = 1 := by
      rw [significantDigits_of_coefficient_eq_zero none, List.length_singleton]
    have first := zero none
    rw [List.length_append, List.length_replicate]
    omega
  · rw [positional, if_neg (by omega), Writing.text, Writing.exponentPart]
    simp only [fills, marked, whole, decide_true, Bool.and_true, List.take_of_length_le,
      List.drop_of_length_le, Option.map_none, Option.getD_none, List.append_nil]
    cases marksWhole <;> rfl
  · apply Writing.value_decimal (count + marks)
    · rw [List.append_assoc, List.replicate_append_replicate, Numeral.ofDigits_append_zeros]
    · simp only [List.length_replicate, Option.getD_none]
      omega
  · intro unmarked
    simp [marked, unmarked]

theorem exists_positional_of_fraction (marksWhole : Bool) (positive : 0 ≤ d.exponent)
    (fraction : d.exponent.toNat + 1 < d.significantDigits.length) :
    ∃ writing : Writing, writing.exponent = none ∧ writing.Renders d marksWhole
      (positional marksWhole false d.significantDigits d.exponent) := by
  have split := List.take_append_drop (d.exponent.toNat + 1) d.significantDigits
  refine ⟨⟨d.significantDigits.take (d.exponent.toNat + 1),
    d.significantDigits.drop (d.exponent.toNat + 1), none, ?_,
    by simp [d.significantDigits_ne_nil], leading_take (by omega)⟩, rfl, ?_, ?_,
    fun _ => d.getLast?_drop_significantDigits (by omega)⟩
  · rw [split]
    exact fun _ => isDigit_of_mem_significantDigits
  · have many : ¬d.significantDigits.length ≤ d.exponent.toNat + 1 := by omega
    rw [positional, if_neg (by omega), Writing.text, Writing.exponentPart]
    simp [many, Nat.sub_eq_zero_of_le fraction.le]
  · apply Writing.value_decimal 0
    · rw [split, Nat.pow_zero, Nat.mul_one]
    · simp only [List.length_drop, Option.getD_none]
      omega

/-- In positional form a number has no exponent. A zero has to be a plain one. -/
theorem exists_positional (marksWhole : Bool) (zero : d.coefficient = 0 → d.exponent = 0) :
    ∃ writing : Writing, writing.exponent = none ∧ writing.Renders d marksWhole
      (positional marksWhole false d.significantDigits d.exponent) := by
  by_cases negative : d.exponent < 0
  · exact exists_positional_of_neg marksWhole zero negative
  · by_cases whole : d.significantDigits.length ≤ d.exponent.toNat + 1
    · exact exists_positional_of_whole marksWhole zero (by omega) whole
    · exact exists_positional_of_fraction marksWhole (by omega) (by omega)

theorem exists_scientific (d : Decimal) (marksWhole : Bool) :
    ∃ writing : Writing, writing.exponent = some d.exponent ∧ writing.whole.length = 1 ∧
      writing.Renders d marksWhole (scientific false d.significantDigits d.exponent) := by
  have split := List.take_append_drop 1 d.significantDigits
  have some := List.length_pos_iff.mpr d.significantDigits_ne_nil
  refine ⟨⟨d.significantDigits.take 1, d.significantDigits.drop 1, .some d.exponent, ?_,
    by simp [d.significantDigits_ne_nil], leading_take (by omega)⟩, rfl, ?_, ?_, ?_,
    fun _ => d.getLast?_drop_significantDigits (by omega)⟩
  · rw [split]
    exact fun _ => isDigit_of_mem_significantDigits
  · rw [List.length_take]
    omega
  · rw [scientific, Writing.text, Writing.exponentPart]
    simp
  · apply Writing.value_decimal 0
    · rw [split, Nat.pow_zero, Nat.mul_one]
    · simp only [List.length_drop, Option.getD_some]
      omega

/-- What a layout without a bare point writes is a plain number of the same value. An exponent is
written outside the window of the layout only. -/
theorem Layout.exists_renders (layout : Layout) (unpointed : layout.pointed = false)
    (zero : d.coefficient = 0 → d.exponent = 0) : ∃ writing : Writing,
      writing.Renders d layout.marksWhole (layout.place d.significantDigits d.exponent) ∧
        (layout.lowest ≤ d.exponent ∧ d.exponent < layout.limit → writing.exponent = none) ∧
        (¬(layout.lowest ≤ d.exponent ∧ d.exponent < layout.limit) →
          writing.exponent = some d.exponent ∧ writing.whole.length = 1) := by
  rw [place, unpointed]
  split
  next within =>
    obtain ⟨writing, plain, renders⟩ := exists_positional layout.marksWhole zero
    exact ⟨writing, renders, fun _ => plain, fun outside => absurd within outside⟩
  next outside =>
    obtain ⟨writing, exponent, single, renders⟩ := d.exists_scientific layout.marksWhole
    exact ⟨writing, renders, fun within => absurd within outside, fun _ => ⟨exponent, single⟩⟩

theorem Layout.exists_writtenAs (layout : Layout) (unpointed : layout.pointed = false)
    (zero : d.coefficient = 0 → d.exponent = 0) :
    ∃ exponent, d.WrittenAs exponent (layout.place d.significantDigits d.exponent) := by
  obtain ⟨writing, renders, _⟩ := layout.exists_renders unpointed zero
  exact ⟨writing.exponent, writing, rfl, renders.text_eq, renders.value_eq⟩

end Layout

end Reckoner.Decimal
