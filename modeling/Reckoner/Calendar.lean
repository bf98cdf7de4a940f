/-!
The Gregorian calendar, extended to all years. Years are counted from the first of March, so that a
leap day is the last day of its year.
-/
namespace Reckoner.Calendar

structure Date where
  year : Int
  month : Nat
  day : Nat
  deriving DecidableEq, Repr

/-- Days from the first of March of year zero to the first of March of a year. -/
def daysBeforeMarch (year : Int) : Int := 365 * year + year / 4 - year / 100 + year / 400

def daysBeforeMonth (month : Nat) : Nat := (153 * month + 2) / 5

/-- The March-based year that holds a day: the estimate by the mean length of a year, put right. -/
def marchYear (day : Int) : Int :=
  let estimate := 400 * day / 146097
  if day < daysBeforeMarch estimate then estimate - 1
  else if daysBeforeMarch (estimate + 1) ≤ day then estimate + 1
  else estimate

def dateOfDay (day : Int) : Date :=
  let year := marchYear day
  let dayOfYear := (day - daysBeforeMarch year).toNat
  let month := (5 * dayOfYear + 2) / 153
  ⟨if month < 10 then year else year + 1, if month < 10 then month + 3 else month - 9,
    dayOfYear - daysBeforeMonth month + 1⟩

def epochDay : Int := 719468

end Reckoner.Calendar
