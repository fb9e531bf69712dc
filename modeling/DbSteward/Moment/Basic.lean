/-!
# Moments

Moments of universal time to the nanosecond, and the calendar days they fall on.
-/

namespace DbSteward

/-- A moment, in whole seconds from the start of 1970 and nanoseconds after them.
A leap second is the second before it with a billion nanoseconds more. -/
structure Moment where
  seconds : Int
  nanos : Nat
  deriving DecidableEq, Repr

/-- A day of the Gregorian calendar, extended to all years. -/
structure CalendarDay where
  year : Int
  month : Nat
  day : Nat
  deriving DecidableEq, Repr

namespace CalendarDay

def isLeapYear (year : Int) : Bool :=
  year % 4 == 0 && (year % 100 != 0 || year % 400 == 0)

def daysInMonth (year : Int) (month : Nat) : Nat :=
  if month == 2 then (if isLeapYear year then 29 else 28)
  else if month == 4 || month == 6 || month == 9 || month == 11 then 30
  else 31

def isValid (d : CalendarDay) : Bool :=
  1 ≤ d.month && d.month ≤ 12 && 1 ≤ d.day && d.day ≤ daysInMonth d.year d.month

/-- Days from the start of March of the year zero to the start of 1970. -/
def epochOffset : Int := 719468

/-- The number of the day, counted from the start of 1970.  Years run from March
here, so that the leap day is the last day of its year. -/
def toDays (d : CalendarDay) : Int :=
  let year := if d.month ≤ 2 then d.year - 1 else d.year
  let month := (d.month + 9) % 12
  let dayOfYear : Int := (153 * month + 2) / 5 + d.day - 1
  365 * year + year / 4 - year / 100 + year / 400 + dayOfYear - epochOffset

def ofDays (days : Int) : CalendarDay :=
  let shifted := days + epochOffset
  let era := shifted / 146097
  let dayOfEra := shifted % 146097
  let yearOfEra :=
    (dayOfEra - dayOfEra / 1460 + dayOfEra / 36524 - dayOfEra / 146096) / 365
  let dayOfYear := dayOfEra - (365 * yearOfEra + yearOfEra / 4 - yearOfEra / 100)
  let month := (5 * dayOfYear + 2) / 153
  let day := dayOfYear - (153 * month + 2) / 5 + 1
  let calendarMonth := if month < 10 then month + 3 else month - 9
  let year := yearOfEra + 400 * era
  ⟨if calendarMonth ≤ 2 then year + 1 else year, calendarMonth.toNat, day.toNat⟩

end CalendarDay

namespace Moment

def secondsPerDay : Int := 86400

def day (m : Moment) : CalendarDay :=
  CalendarDay.ofDays (m.seconds / secondsPerDay)

def yearRange : Int × Int := (-262143, 262142)

def inRange (d : CalendarDay) : Bool :=
  yearRange.1 ≤ d.year && d.year ≤ yearRange.2

end Moment
end DbSteward
