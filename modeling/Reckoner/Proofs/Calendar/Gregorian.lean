import Mathlib.Tactic.IntervalCases
import Reckoner.Calendar

/-!
The Gregorian calendar by the lengths of its months and years. Counted by these lengths, the date
that is found for a day lies as many days after the first date as the day itself.
-/
namespace Reckoner.Calendar

/-- Every fourth year is a leap year, but of the years that end a century only every fourth. -/
def isLeap (year : Nat) : Bool := year % 4 = 0 && (year % 100 ≠ 0 || year % 400 = 0)

def monthLengths (year : Nat) : List Nat :=
  [31, if isLeap year then 29 else 28, 31, 30, 31, 30, 31, 31, 30, 31, 30, 31]

def monthLength (year month : Nat) : Nat := (monthLengths year).getD (month - 1) 0

def yearLength (year : Nat) : Nat := (monthLengths year).sum

def daysToMonth (year month : Nat) : Nat := ((monthLengths year).take (month - 1)).sum

def daysToYear (year : Nat) : Nat := ((List.range year).map yearLength).sum

def daysTo (year month day : Nat) : Nat := daysToYear year + daysToMonth year month + (day - 1)

/-! Years. -/

def leapDay (year : Nat) : Nat := if isLeap year then 1 else 0

theorem leapDay_le (year : Nat) : leapDay year ≤ 1 := by
  unfold leapDay
  split <;> omega

theorem leapDay_eq (year : Nat) :
    leapDay year = if year % 4 = 0 ∧ (year % 100 ≠ 0 ∨ year % 400 = 0) then 1 else 0 := by
  simp [leapDay, isLeap]

theorem monthLengths_eq (year : Nat) : monthLengths year =
    [31, 28 + leapDay year, 31, 30, 31, 30, 31, 31, 30, 31, 30, 31] := by
  unfold monthLengths leapDay
  cases isLeap year <;> rfl

theorem yearLength_eq (year : Nat) : yearLength year = 365 + leapDay year := by
  rw [yearLength, monthLengths_eq]
  simp only [List.sum_cons, List.sum_nil]
  omega

theorem daysToYear_succ (year : Nat) :
    daysToYear (year + 1) = daysToYear year + yearLength year := by
  rw [daysToYear, List.range_succ, List.map_append, List.sum_append]
  rfl

theorem daysToYear_add (year : Nat) :
    daysToYear year + leapDay year = 365 * year + year / 4 - year / 100 + year / 400 + 1 := by
  induction year with
  | zero => rfl
  | succ year ih =>
    rw [daysToYear_succ, yearLength_eq]
    rw [leapDay_eq] at ih ⊢
    rw [leapDay_eq]
    split at ih <;> split <;> split <;> omega

theorem daysBeforeMarch_eq (year : Nat) :
    daysBeforeMarch year = daysToYear year + leapDay year - 1 := by
  have same := daysToYear_add year
  unfold daysBeforeMarch
  omega

theorem daysBeforeMarch_succ (year : Nat) :
    daysBeforeMarch (year + 1) = daysBeforeMarch year + 365 + leapDay (year + 1) := by
  have next := daysBeforeMarch_eq (year + 1)
  rw [daysToYear_succ, yearLength_eq] at next
  have same := daysBeforeMarch_eq year
  push_cast at next
  omega

theorem marchYear_spec (day : Int) :
    daysBeforeMarch (marchYear day) ≤ day ∧ day < daysBeforeMarch (marchYear day + 1) := by
  unfold marchYear daysBeforeMarch
  simp only
  split
  · omega
  · split <;> omega

/-! Months. -/

theorem daysToMonth_eq (year : Nat) {month : Nat} (within : month < 10) :
    daysToMonth year (month + 3) = 59 + leapDay year + daysBeforeMonth month ∧
      daysBeforeMonth month + monthLength year (month + 3) = daysBeforeMonth (month + 1) := by
  unfold daysToMonth monthLength
  rw [monthLengths_eq]
  interval_cases month <;> simp [daysBeforeMonth] <;> omega

theorem daysToMonth_of_winter (year : Nat) {month : Nat} (winter : month = 10 ∨ month = 11) :
    daysToMonth year (month - 9) + 306 = daysBeforeMonth month ∧
      daysBeforeMonth month + monthLength year (month - 9) =
        if month = 10 then daysBeforeMonth 11 else 365 + leapDay year := by
  unfold daysToMonth monthLength
  rw [monthLengths_eq]
  rcases winter with rfl | rfl
  · simp [daysBeforeMonth]
  · simp [daysBeforeMonth]
    omega

theorem daysBeforeMonth_le {dayOfYear month : Nat} (found : month = (5 * dayOfYear + 2) / 153) :
    daysBeforeMonth month ≤ dayOfYear ∧ dayOfYear < daysBeforeMonth (month + 1) := by
  unfold daysBeforeMonth
  omega

structure IsDate (year month day : Nat) : Prop where
  month_pos : 1 ≤ month
  month_le : month ≤ 12
  day_pos : 1 ≤ day
  day_le : day ≤ monthLength year month

theorem IsDate.day_le_thirtyOne {year month day : Nat} (date : IsDate year month day) :
    day ≤ 31 := by
  have one := leapDay_le year
  have longest : ∀ length ∈ monthLengths year, length ≤ 31 := by
    rw [monthLengths_eq]
    simp only [List.mem_cons, List.not_mem_nil, or_false]
    omega
  refine Nat.le_trans date.day_le ?_
  rw [monthLength, List.getD_eq_getElem?_getD]
  cases found : (monthLengths year)[month - 1]? with
  | none => exact Nat.zero_le 31
  | some length => exact longest length (List.mem_of_getElem? found)

section

variable (year : Nat) {dayOfYear month : Nat}

theorem isDate_of_lt (found : month = (5 * dayOfYear + 2) / 153) (spring : month < 10) :
    IsDate year (month + 3) (dayOfYear - daysBeforeMonth month + 1) ∧
      (daysTo year (month + 3) (dayOfYear - daysBeforeMonth month + 1) : Int) =
        daysBeforeMarch year + dayOfYear + 60 := by
  obtain ⟨least, most⟩ := daysBeforeMonth_le found
  obtain ⟨before, length⟩ := daysToMonth_eq year spring
  have march := daysBeforeMarch_eq year
  refine ⟨⟨by omega, by omega, by omega, by omega⟩, ?_⟩
  rw [daysTo]
  omega

theorem isDate_of_le (found : month = (5 * dayOfYear + 2) / 153) (winter : 10 ≤ month)
    (within : dayOfYear < 365 + leapDay (year + 1)) :
    IsDate (year + 1) (month - 9) (dayOfYear - daysBeforeMonth month + 1) ∧
      (daysTo (year + 1) (month - 9) (dayOfYear - daysBeforeMonth month + 1) : Int) =
        daysBeforeMarch year + dayOfYear + 60 := by
  have one := leapDay_le (year + 1)
  have last : month = 10 ∨ month = 11 := by omega
  obtain ⟨least, most⟩ := daysBeforeMonth_le found
  obtain ⟨before, length⟩ := daysToMonth_of_winter (year + 1) last
  have march := daysBeforeMarch_eq year
  have turned := daysToYear_succ year
  rw [yearLength_eq] at turned
  refine ⟨⟨by omega, by omega, by omega, ?_⟩, ?_⟩
  · rcases last with rfl | rfl
    · rw [if_pos rfl] at length
      have most' : dayOfYear < daysBeforeMonth 11 := most
      omega
    · rw [if_neg (by decide)] at length
      omega
  · rw [daysTo]
    omega

end

/-- The date of a day is a date of the calendar, and as many days after the first date as counting
by the lengths of months and years tells. -/
theorem dateOfDay_spec {day : Int} (positive : 1 ≤ (dateOfDay day).year) :
    IsDate (dateOfDay day).year.toNat (dateOfDay day).month (dateOfDay day).day ∧
      (daysTo (dateOfDay day).year.toNat (dateOfDay day).month (dateOfDay day).day : Int) =
        day + 60 := by
  obtain ⟨lower, upper⟩ := marchYear_spec day
  have nonneg : 0 ≤ marchYear day := by
    simp only [dateOfDay] at positive
    split at positive <;> omega
  obtain ⟨year, same⟩ := Int.eq_ofNat_of_zero_le nonneg
  have next := daysBeforeMarch_succ year
  rw [same] at lower upper
  obtain ⟨dayOfYear, offset⟩ := Int.eq_ofNat_of_zero_le (Int.sub_nonneg_of_le lower)
  have within : dayOfYear < 365 + leapDay (year + 1) := by omega
  have reached : (daysBeforeMarch year + dayOfYear + 60 : Int) = day + 60 := by omega
  simp only [dateOfDay, same, offset, Int.toNat_natCast]
  by_cases spring : (5 * dayOfYear + 2) / 153 < 10
  · rw [if_pos spring, if_pos spring, Int.toNat_natCast, ← reached]
    exact isDate_of_lt year rfl spring
  · rw [if_neg spring, if_neg spring, ← reached]
    exact isDate_of_le year rfl (Nat.le_of_not_lt spring) within

/-! The order of dates. -/

theorem daysToYear_mono : Monotone daysToYear :=
  monotone_nat_of_le_succ fun year => daysToYear_succ year ▸ Nat.le_add_right _ _

theorem daysToMonth_succ (year : Nat) {month : Nat} (positive : 1 ≤ month) :
    daysToMonth year (month + 1) = daysToMonth year month + monthLength year month := by
  obtain ⟨month, rfl⟩ := Nat.exists_eq_add_of_le' positive
  simp only [daysToMonth, monthLength, Nat.add_sub_cancel]
  rw [List.take_add_one, List.sum_append, List.getD_eq_getElem?_getD]
  cases (monthLengths year)[month]? <;> simp

theorem daysToMonth_add_le (year : Nat) {first second : Nat} (positive : 1 ≤ first)
    (earlier : first < second) :
    daysToMonth year first + monthLength year first ≤ daysToMonth year second := by
  rw [← daysToMonth_succ year positive]
  induction earlier with
  | refl => exact Nat.le_refl _
  | @step month later ih =>
    have behind : 1 ≤ month := Nat.le_trans (Nat.le_add_left 1 first) later
    rw [Nat.succ_eq_add_one, daysToMonth_succ year behind]
    exact Nat.le_trans ih (Nat.le_add_right _ _)

theorem daysToMonth_add_le_yearLength (year : Nat) {month : Nat} (positive : 1 ≤ month)
    (last : month ≤ 12) : daysToMonth year month + monthLength year month ≤ yearLength year :=
  daysToMonth_add_le year positive (Nat.lt_succ_of_le last)

theorem daysTo_bounds {year month day : Nat} (date : IsDate year month day) :
    daysToYear year ≤ daysTo year month day ∧ daysTo year month day < daysToYear (year + 1) := by
  obtain ⟨positive, last, first, most⟩ := date
  have within := daysToMonth_add_le_yearLength year positive last
  rw [daysToYear_succ, daysTo]
  omega

theorem daysTo_lt {year month day year' month' day' : Nat} (date : IsDate year month day)
    (date' : IsDate year' month' day')
    (earlier : year < year' ∨ year = year' ∧ (month < month' ∨ month = month' ∧ day < day')) :
    daysTo year month day < daysTo year' month' day' := by
  rcases earlier with years | ⟨rfl, later⟩
  · have before := daysToYear_mono (Nat.succ_le_of_lt years)
    exact (daysTo_bounds date).2.trans_le (before.trans (daysTo_bounds date').1)
  · obtain ⟨positive, last, first, most⟩ := date
    obtain ⟨_, _, first', _⟩ := date'
    unfold daysTo
    rcases later with months | ⟨rfl, days⟩
    · have before := daysToMonth_add_le year positive months
      omega
    · omega

theorem year_dateOfDay_iff {day : Int} :
    (1 ≤ (dateOfDay day).year ∧ (dateOfDay day).year < 10000) ↔
      (daysToYear 1 : Int) ≤ day + 60 ∧ day + 60 < daysToYear 10000 := by
  constructor
  · intro within
    obtain ⟨positive, short⟩ := within
    obtain ⟨isDate, same⟩ := dateOfDay_spec positive
    obtain ⟨lower, upper⟩ := daysTo_bounds isDate
    have first : daysToYear 1 ≤ daysToYear (dateOfDay day).year.toNat :=
      daysToYear_mono (by omega)
    have last : daysToYear ((dateOfDay day).year.toNat + 1) ≤ daysToYear 10000 :=
      daysToYear_mono (by omega)
    omega
  · intro within
    obtain ⟨lower, upper⟩ := marchYear_spec day
    have first : daysToYear 1 = 366 := rfl
    have last := daysToYear_add 10000
    have leap : leapDay 10000 = 1 := rfl
    simp only [dateOfDay]
    unfold daysBeforeMarch at lower upper ⊢
    split
    next spring => omega
    next winter => omega

end Reckoner.Calendar
