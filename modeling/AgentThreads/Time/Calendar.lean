/-!
# The calendar

Dates of the Gregorian calendar, continued in both directions without end, and their count in days
from 1970-01-01.

Years are taken to begin in March, so that a leap day is the last of its year, of its four years and
of its four hundred years. A day then has a place in its 400 years, in one of the four centuries of
these, in four years of the century, in a year of the four, and in a month.
-/

namespace AgentThreads

/-- A date. The year before year 1 is year 0. -/
structure Date where
  /-- The year. -/
  year : Int
  /-- The month, from 1 to 12. -/
  month : Nat
  /-- The day of the month, from 1. -/
  day : Nat
  deriving DecidableEq

namespace Date

/-- The year has a leap day. -/
def isLeapYear (year : Int) : Bool :=
  year % 4 == 0 && (year % 100 != 0 || year % 400 == 0)

/-- The number of days in a month. -/
def daysIn (year : Int) (month : Nat) : Nat :=
  if month = 2 then (if isLeapYear year then 29 else 28)
  else if month = 4 ∨ month = 6 ∨ month = 9 ∨ month = 11 then 30
  else 31

/-- The date exists. -/
def isValid (d : Date) : Bool :=
  1 ≤ d.month && d.month ≤ 12 && 1 ≤ d.day && d.day ≤ daysIn d.year d.month

/-- The number of days from 0000-03-01 to 1970-01-01. -/
def epoch : Int := 719468

/-- The number of days before a month, counted from March as month 0. -/
def daysBefore (month : Nat) : Nat :=
  (153 * month + 2) / 5

/-- The days from 1970-01-01 to the date. -/
def toDays (d : Date) : Int :=
  let year := if d.month ≤ 2 then d.year - 1 else d.year
  let inEra := (year % 400).toNat
  146097 * (year / 400) + 36524 * (inEra / 100 : Nat) + 1461 * (inEra % 100 / 4 : Nat)
    + 365 * (inEra % 4 : Nat) + daysBefore ((d.month + 9) % 12) + d.day - 1 - epoch

/-- The date so many days from 1970-01-01. -/
def ofDays (days : Int) : Date :=
  let era := (days + epoch) / 146097
  let inEra := ((days + epoch) % 146097).toNat
  let century := min (inEra / 36524) 3
  let inCentury := inEra - 36524 * century
  let four := inCentury / 1461
  let inFour := inCentury % 1461
  let single := min (inFour / 365) 3
  let inYear := inFour - 365 * single
  let month := (5 * inYear + 2) / 153
  let year := 400 * era + (100 * century + 4 * four + single : Nat)
  { year := if month < 10 then year else year + 1
    month := if month < 10 then month + 3 else month - 9
    day := inYear - daysBefore month + 1 }

end Date

end AgentThreads
