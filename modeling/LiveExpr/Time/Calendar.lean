/-!
# The calendar

Days of the proleptic Gregorian calendar and their numbers, counted from 1970-01-01.
The year is taken to begin in March, so that a leap day is the last day of its year, and
400 such years are an era of 146097 days.
-/

namespace LiveExpr

/-- A day by year, month and day of the month. -/
structure CalendarDay where
  year : Int
  month : Int
  day : Int
deriving DecidableEq, Repr

namespace CalendarDay

/-- Whether a year has a leap day. -/
def isLeapYear (year : Int) : Bool :=
  year % 4 = 0 ∧ (year % 100 ≠ 0 ∨ year % 400 = 0)

/-- The number of days of a month. -/
def monthLength (year month : Int) : Int :=
  if month = 2 then (if isLeapYear year then 29 else 28)
  else if month = 4 ∨ month = 6 ∨ month = 9 ∨ month = 11 then 30
  else 31

/-- The first and the last year of the calendar. -/
def firstYear : Int := -262143

/-- The last year of the calendar. -/
def lastYear : Int := 262142

/-- Whether a day is in the calendar. -/
def isValid (d : CalendarDay) : Bool :=
  firstYear ≤ d.year ∧ d.year ≤ lastYear ∧ 1 ≤ d.month ∧ d.month ≤ 12
    ∧ 1 ≤ d.day ∧ d.day ≤ monthLength d.year d.month

/-- The number of a day. -/
def number (d : CalendarDay) : Int :=
  let year := if d.month ≤ 2 then d.year - 1 else d.year
  let month := if d.month ≤ 2 then d.month + 9 else d.month - 3
  let yearOfEra := year % 400
  let dayOfYear := (153 * month + 2) / 5 + d.day - 1
  let dayOfEra := yearOfEra * 365 + yearOfEra / 4 - yearOfEra / 100 + dayOfYear
  year / 400 * 146097 + dayOfEra - 719468

/-- The day of a number. -/
def ofNumber (n : Int) : CalendarDay :=
  let shifted := n + 719468
  let dayOfEra := shifted % 146097
  let yearOfEra := (dayOfEra - dayOfEra / 1460 + dayOfEra / 36524 - dayOfEra / 146096) / 365
  let dayOfYear := dayOfEra - (365 * yearOfEra + yearOfEra / 4 - yearOfEra / 100)
  let month := (5 * dayOfYear + 2) / 153
  let day := dayOfYear - (153 * month + 2) / 5 + 1
  let year := yearOfEra + shifted / 146097 * 400
  if month < 10 then ⟨year, month + 3, day⟩ else ⟨year + 1, month - 9, day⟩

end CalendarDay

end LiveExpr
