import LiveExpr.Time.Calendar

/-!
# Timestamps

A moment of universal time, counted in seconds from 1970-01-01T00:00:00, and its day and
time of day.
-/

namespace LiveExpr

/-- A moment of universal time.  `nanos` counts the nanoseconds within the second, and
10^9 of them or more mark the leap second that follows it. -/
structure Timestamp where
  seconds : Int
  nanos : Nat
deriving DecidableEq, Repr

/-- A time of day. -/
structure ClockTime where
  hour : Int
  minute : Int
  second : Int
deriving DecidableEq, Repr

namespace Timestamp

/-- Drops the part of a second. -/
def truncate (t : Timestamp) : Timestamp :=
  { t with nanos := 0 }

/-- The calendar day of a moment. -/
def day (t : Timestamp) : CalendarDay :=
  .ofNumber (t.seconds / 86400)

/-- The time of day of a moment; a leap second counts as one second more. -/
def clock (t : Timestamp) : ClockTime where
  hour := t.seconds % 86400 / 3600
  minute := t.seconds % 3600 / 60
  second := t.seconds % 60 + (t.nanos / 1000000000 : Nat)

/-- The whole second of a day and a time of day; second 60 counts as second 59. -/
def ofParts (d : CalendarDay) (c : ClockTime) : Timestamp where
  seconds := d.number * 86400 + c.hour * 3600 + c.minute * 60 + min c.second 59
  nanos := 0

end Timestamp

end LiveExpr
