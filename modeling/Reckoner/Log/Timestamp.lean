import Reckoner.Binary64.Basic
import Reckoner.Calendar
import Reckoner.Text.Padded

/-!
Time stamps of log lines: seconds since the start of 1970 as a date and time of day in UTC, to the
millisecond.
-/
namespace Reckoner.Log.Timestamp

open Text (decimal)

inductive Fault where
  | notANumber
  | beyondClock
  | beyondYearCount
  | yearOutOfRange (year : Int)
  deriving DecidableEq, Repr

def Fault.message : Fault → String
  | notANumber => "Invalid value NaN (not a number)"
  | beyondClock => "timestamp out of range for platform time_t"
  | beyondYearCount => "[Errno 75] Value too large for defined data type"
  | yearOutOfRange year => "year " ++ toString year ++ " is out of range"

/-- The microseconds nearest to a finite number of seconds. The fraction is scaled in doubles and
then rounded, halves to the even microsecond. -/
def microseconds (seconds : Float) : Int :=
  let exact := Binary64.units seconds
  let whole := exact.tdiv Binary64.unitsPerOne
  let scaled := Binary64.ofUnits ((exact - whole * Binary64.unitsPerOne) * 1000000)
  let rounded : Int := Binary64.divideToEven (Binary64.magnitude scaled) Binary64.unitsPerOne
  whole * 1000000 + if Binary64.isNegative scaled then -rounded else rounded

def fitsWord (bits : Nat) (number : Int) : Bool :=
  -Int.pow 2 (bits - 1) ≤ number && number < Int.pow 2 (bits - 1)

/-- The stamp of a whole number of milliseconds, for the years 1 to 9999. Years are counted from
1900 in a word of 32 bits; a year too large for such a word itself is named by what is left of it
there. -/
def ofMilliseconds (count : Int) : Except Fault String :=
  let date := Calendar.dateOfDay (count / 86400000 + Calendar.epochDay)
  let time := (count % 86400000).toNat
  if 1 ≤ date.year ∧ date.year ≤ 9999 then
    .ok (String.ofList
      (decimal 4 date.year.toNat ++ '-' :: decimal 2 date.month ++ '-' :: decimal 2 date.day ++
        'T' :: decimal 2 (time / 3600000) ++ ':' :: decimal 2 (time / 60000 % 60) ++
        ':' :: decimal 2 (time / 1000 % 60) ++ '.' :: decimal 3 (time % 1000) ++
        "+00:00".toList))
  else if fitsWord 32 (date.year - 1900) then
    .error (.yearOutOfRange (date.year.bmod (Nat.pow 2 32)))
  else .error .beyondYearCount

/-- The stamp of a number of seconds; what is left of a millisecond is cut off. The clock counts
whole seconds in a word of 64 bits. -/
def ofSeconds (seconds : Float) : Except Fault String :=
  if Binary64.isFinite seconds then
    if fitsWord 64 (microseconds seconds / 1000000) then
      ofMilliseconds (microseconds seconds / 1000)
    else .error .beyondClock
  else .error (if Binary64.isNaN seconds then .notANumber else .beyondClock)

end Reckoner.Log.Timestamp
