import Mathlib.Data.String.Basic
import Reckoner.Log.Timestamp
import Reckoner.Proofs.Calendar.Gregorian
import Reckoner.Proofs.Number.Digits

/-!
Dates with times of day, as they are written in fields of fixed width. The texts of two of them are
in the same order as the milliseconds that have passed, and every number of milliseconds in the
years of four digits is written as the moment that it leads to.
-/
namespace Reckoner

open Text (decimal)

/-! Digits of fixed width. -/

namespace Numeral

theorem ofDigits_cons (c : Char) (digits : List Char) :
    ofDigits (c :: digits) = (c.toNat - '0'.toNat) * 10 ^ digits.length + ofDigits digits := by
  have one : ofDigits [c] = c.toNat - '0'.toNat := by simp [ofDigits, Decimal.ofDigits]
  rw [← List.singleton_append, ofDigits_append, one]

theorem digit_bounds {c : Char} (digit : c.isDigit = true) :
    '0'.toNat ≤ c.toNat ∧ c.toNat < '0'.toNat + 10 := by
  simp only [Char.isDigit, Bool.and_eq_true, decide_eq_true_eq] at digit
  exact ⟨UInt32.le_iff_toNat_le.mp digit.1, Nat.lt_succ_of_le (UInt32.le_iff_toNat_le.mp digit.2)⟩

theorem ofDigits_lt {digits : List Char} (inside : ∀ c ∈ digits, c.isDigit = true) :
    ofDigits digits < 10 ^ digits.length := by
  induction digits with
  | nil => exact Nat.one_pos
  | cons c digits ih =>
    have others := ih fun c member => inside c (List.mem_cons_of_mem _ member)
    have first := digit_bounds (inside c List.mem_cons_self)
    have most : (c.toNat - '0'.toNat) * 10 ^ digits.length ≤ 9 * 10 ^ digits.length :=
      Nat.mul_le_mul_right _ (by omega)
    rw [ofDigits_cons, List.length_cons, Nat.pow_succ]
    omega

theorem ofDigits_lt_ofDigits {first second : List Char}
    (inside : ∀ c ∈ first, c.isDigit = true) (inside' : ∀ c ∈ second, c.isDigit = true)
    (same : first.length = second.length) (less : first < second) :
    ofDigits first < ofDigits second := by
  induction first generalizing second with
  | nil =>
    rw [List.length_eq_zero_iff.mp same.symm] at less
    exact absurd less (lt_irrefl _)
  | cons c first ih =>
    obtain ⟨d, second, rfl⟩ := List.exists_cons_of_length_eq_add_one same.symm
    have same' : first.length = second.length := Nat.succ.inj same
    rw [ofDigits_cons, ofDigits_cons, same']
    rcases List.cons_lt_cons_iff.mp less with lower | ⟨rfl, later⟩
    · have small := ofDigits_lt fun c member => inside c (List.mem_cons_of_mem _ member)
      have bounds := digit_bounds (inside c List.mem_cons_self)
      have lower' : c.toNat < d.toNat := UInt32.lt_iff_toNat_lt.mp (Char.lt_def.mp lower)
      have next : (c.toNat - '0'.toNat + 1) * 10 ^ second.length ≤
          (d.toNat - '0'.toNat) * 10 ^ second.length := Nat.mul_le_mul_right _ (by omega)
      rw [same'] at small
      rw [Nat.add_one_mul] at next
      omega
    · have others := ih (fun c member => inside c (List.mem_cons_of_mem _ member))
        (fun c member => inside' c (List.mem_cons_of_mem _ member)) same' later
      omega

theorem length_decimal {width n : Nat} (positive : 0 < width) (short : n < 10 ^ width) :
    (decimal width n).length = width := by
  have few := (Nat.length_toDigits_le_iff (b := 10) (by decide) positive).mpr short
  rw [decimal, Text.length_padded]
  omega

theorem decimal_lt_decimal {width first second : Nat} (positive : 0 < width)
    (short : second < 10 ^ width) (less : first < second) :
    decimal width first < decimal width second := by
  have same : (decimal width second).length = (decimal width first).length := by
    rw [length_decimal positive short, length_decimal positive (less.trans short)]
  refine lt_of_not_ge fun notLess => ?_
  rcases lt_or_eq_of_le notLess with greater | equal
  · have turned := ofDigits_lt_ofDigits (fun _ => isDigit_of_mem_decimal)
      (fun _ => isDigit_of_mem_decimal) same greater
    rw [ofDigits_decimal, ofDigits_decimal] at turned
    omega
  · have turned := congrArg ofDigits equal
    rw [ofDigits_decimal, ofDigits_decimal] at turned
    omega

end Numeral

namespace Log

def spelled : List (Nat × String) → List Nat → List Char
  | (width, behind) :: layout, number :: numbers =>
    decimal width number ++ (behind.toList ++ spelled layout numbers)
  | _, _ => []

def Fits (layout : List (Nat × String)) (numbers : List Nat) : Prop :=
  List.Forall₂ (fun field number => 0 < field.1 ∧ number < 10 ^ field.1) layout numbers

theorem append_lt_append {first second : List Char} (same : first.length = second.length)
    (less : first < second) (rest rest' : List Char) : first ++ rest < second ++ rest' := by
  induction first generalizing second with
  | nil =>
    rw [List.length_eq_zero_iff.mp same.symm] at less
    exact absurd less (lt_irrefl _)
  | cons c first ih =>
    obtain ⟨d, second, rfl⟩ := List.exists_cons_of_length_eq_add_one same.symm
    rcases List.cons_lt_cons_iff.mp less with lower | ⟨rfl, later⟩
    · exact List.cons_lt_cons_iff.mpr (Or.inl lower)
    · exact List.cons_lt_cons_iff.mpr (Or.inr ⟨rfl, ih (Nat.succ.inj same) later⟩)

theorem spelled_lt_spelled {layout : List (Nat × String)} {first second : List Nat}
    (fits : Fits layout first) (fits' : Fits layout second) (less : first < second) :
    spelled layout first < spelled layout second := by
  induction layout generalizing first second with
  | nil =>
    cases fits
    cases fits'
    exact absurd less (lt_irrefl _)
  | cons field layout ih =>
    obtain ⟨number, first, ⟨positive, short⟩, others, rfl⟩ := List.forall₂_cons_left_iff.mp fits
    obtain ⟨number', second, ⟨_, short'⟩, others', rfl⟩ := List.forall₂_cons_left_iff.mp fits'
    rcases List.cons_lt_cons_iff.mp less with lower | ⟨rfl, later⟩
    · refine append_lt_append ?_ (Numeral.decimal_lt_decimal positive short' lower) _ _
      rw [Numeral.length_decimal positive short, Numeral.length_decimal positive short']
    · exact List.append_left_lt (List.append_left_lt (ih others others' later))

/-- A date in a year of four digits and a time of day in UTC, to the millisecond. -/
structure Moment where
  year : Nat
  month : Nat
  day : Nat
  hour : Nat
  minute : Nat
  second : Nat
  millisecond : Nat
  isDate : Calendar.IsDate year month day
  year_pos : 1 ≤ year
  year_lt : year < 10000
  hour_lt : hour < 24
  minute_lt : minute < 60
  second_lt : second < 60
  millisecond_lt : millisecond < 1000

namespace Moment

open Calendar (daysTo daysToYear)

def fields (moment : Moment) : List Nat :=
  [moment.year, moment.month, moment.day, moment.hour, moment.minute, moment.second,
    moment.millisecond]

def layout : List (Nat × String) :=
  [(4, "-"), (2, "-"), (2, "T"), (2, ":"), (2, ":"), (2, "."), (3, "+00:00")]

/-- The text of a moment, such as `2026-01-31T23:59:59.999+00:00`. -/
def text (moment : Moment) : String := String.ofList (spelled layout moment.fields)

/-- Milliseconds from the start of 1970 to a moment; they are negative before it. -/
def milliseconds (moment : Moment) : Int :=
  ((((daysTo moment.year moment.month moment.day - daysToYear 1970 : Int) * 24 + moment.hour) * 60 +
    moment.minute) * 60 + moment.second) * 1000 + moment.millisecond

theorem fits_fields (moment : Moment) : Fits layout moment.fields := by
  have month := moment.isDate.month_le
  have day := moment.isDate.day_le_thirtyOne
  have hour := moment.hour_lt
  have minute := moment.minute_lt
  have second := moment.second_lt
  refine .cons ⟨by decide, moment.year_lt⟩ ?_
  refine .cons ⟨by decide, Nat.lt_of_le_of_lt month (by decide)⟩ ?_
  refine .cons ⟨by decide, Nat.lt_of_le_of_lt day (by decide)⟩ ?_
  refine .cons ⟨by decide, Nat.lt_trans hour (by decide)⟩ ?_
  refine .cons ⟨by decide, Nat.lt_trans minute (by decide)⟩ ?_
  refine .cons ⟨by decide, Nat.lt_trans second (by decide)⟩ ?_
  exact .cons ⟨by decide, moment.millisecond_lt⟩ .nil

theorem milliseconds_lt {first second : Moment} (less : first.fields < second.fields) :
    first.milliseconds < second.milliseconds := by
  have days := Calendar.daysTo_lt first.isDate second.isDate
  obtain ⟨_, _, _, _, _, _, _, _, _, _, hour, minute, second', millisecond⟩ := first
  obtain ⟨_, _, _, _, _, _, _, _, _, _, _, _, _, _⟩ := second
  unfold fields at less
  simp only [List.cons_lt_cons_iff, lt_irrefl, and_false, or_false] at less
  unfold milliseconds
  simp only at days ⊢
  rcases less with years | ⟨rfl, months | ⟨rfl, days' | ⟨rfl, time⟩⟩⟩
  · have earlier := days (Or.inl years)
    omega
  · have earlier := days (Or.inr ⟨rfl, Or.inl months⟩)
    omega
  · have earlier := days (Or.inr ⟨rfl, Or.inr ⟨rfl, days'⟩⟩)
    omega
  · omega

theorem text_le_text {first second : Moment} (earlier : first.milliseconds ≤ second.milliseconds) :
    first.text ≤ second.text := by
  rw [String.le_iff_toList_le, text, text, String.toList_ofList, String.toList_ofList]
  rcases lt_trichotomy first.fields second.fields with less | same | greater
  · exact le_of_lt (spelled_lt_spelled first.fits_fields second.fits_fields less)
  · rw [same]
  · exact absurd earlier (not_le_of_gt (milliseconds_lt greater))

theorem eq_of_text_eq {first second : Moment} (same : first.text = second.text) :
    first = second := by
  have same' : spelled layout first.fields = spelled layout second.fields :=
    String.ofList_injective same
  have fields : first.fields = second.fields := by
    rcases lt_trichotomy first.fields second.fields with less | equal | greater
    · exact absurd same' (spelled_lt_spelled first.fits_fields second.fits_fields less).ne
    · exact equal
    · exact absurd same'.symm (spelled_lt_spelled second.fits_fields first.fits_fields greater).ne
  cases first
  cases second
  simp only [Moment.fields, List.cons.injEq] at fields
  simp only [Moment.mk.injEq]
  tauto

end Moment

namespace Timestamp

open Calendar (dateOfDay daysTo daysToYear)

theorem daysToYear_epoch : (daysToYear 1970 : Int) = Calendar.epochDay + 60 := by
  have days := Calendar.daysToYear_add 1970
  have common : Calendar.leapDay 1970 = 0 := rfl
  unfold Calendar.epochDay
  omega

theorem exists_moment {count : Int} {time : String} (stamped : ofMilliseconds count = .ok time) :
    ∃ moment : Moment, moment.text = time ∧ moment.milliseconds = count := by
  have epoch := daysToYear_epoch
  unfold ofMilliseconds at stamped
  obtain ⟨day, found⟩ : ∃ day, day = count / 86400000 + Calendar.epochDay := ⟨_, rfl⟩
  obtain ⟨clock, rest⟩ : ∃ clock, clock = (count % 86400000).toNat := ⟨_, rfl⟩
  simp only [← found, ← rest] at stamped
  split at stamped
  next within =>
    obtain ⟨first, last⟩ := within
    obtain ⟨isDate, days⟩ := Calendar.dateOfDay_spec first
    refine ⟨⟨(dateOfDay day).year.toNat, (dateOfDay day).month, (dateOfDay day).day,
      clock / 3600000, clock / 60000 % 60, clock / 1000 % 60, clock % 1000, isDate, by omega,
      by omega, by omega, by omega, by omega, by omega⟩, ?_, ?_⟩
    · rw [← Except.ok.inj stamped]
      simp [Moment.text, spelled, Moment.layout, Moment.fields]
    · simp only [Moment.milliseconds]
      omega
  next => split at stamped <;> cases stamped

theorem exists_stamp_iff {count : Int} : (∃ time, ofMilliseconds count = .ok time) ↔
    ((daysToYear 1 : Int) - daysToYear 1970) * 86400000 ≤ count ∧
      count < ((daysToYear 10000 : Int) - daysToYear 1970) * 86400000 := by
  have epoch := daysToYear_epoch
  have years := @Calendar.year_dateOfDay_iff (count / 86400000 + Calendar.epochDay)
  constructor
  · intro stamped
    obtain ⟨time, stamped⟩ := stamped
    unfold ofMilliseconds at stamped
    extract_lets date clock at stamped
    split at stamped
    next within =>
      have range := years.mp ⟨within.1, Int.lt_add_one_of_le within.2⟩
      omega
    next => split at stamped <;> cases stamped
  · intro range
    obtain ⟨first, last⟩ := years.mpr (by omega)
    unfold ofMilliseconds
    extract_lets date clock
    exact ⟨_, if_pos ⟨first, Int.le_of_lt_add_one last⟩⟩

end Timestamp

end Log

end Reckoner
