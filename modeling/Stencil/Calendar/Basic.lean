/-!
# Instants and the calendar

An instant is a number of seconds since the start of 1970 in universal time, with a part of a second
in nanoseconds.  The day number of a date (`daysToDate`) and the date of a day number (`dateOfDay`)
follow the Gregorian rule in both directions of time.
-/
namespace Stencil.Calendar

/-- A point in time.  A leap second counts as the second before it with a part of at least one
second. -/
structure Instant where
  /-- Seconds since the start of 1970, negative before. -/
  seconds : Int
  /-- Nanoseconds since that second, `1_000_000_000` and more within a leap second. -/
  nanos : Nat
  deriving Repr, DecidableEq

/-- A day of the calendar. -/
structure Date where
  year : Int
  /-- From one to twelve. -/
  month : Nat
  /-- From one on. -/
  day : Nat
  deriving Repr, DecidableEq

/-- Whether a year has a 29th of February. -/
def isLeapYear (year : Int) : Bool :=
  year % 4 == 0 && (year % 100 != 0 || year % 400 == 0)

/-- The number of days of a month. -/
def daysInMonth (year : Int) (month : Nat) : Nat :=
  match month with
  | 2 => if isLeapYear year then 29 else 28
  | 4 | 6 | 9 | 11 => 30
  | _ => 31

/-- Days of the year before the first of a month. -/
def daysBeforeMonth (year : Int) (month : Nat) : Nat :=
  ((List.range (month - 1)).map fun m => daysInMonth year (m + 1)).foldl (· + ·) 0

/-- Days from the first day of year one to the first day of a year. -/
def daysBeforeYear (year : Int) : Int :=
  let past := year - 1
  365 * past + past / 4 - past / 100 + past / 400

/-- Days from the first day of year one to the first day of 1970. -/
def epochDay : Int := 719162

/-- The day number of a date, zero for the first day of 1970. -/
def daysToDate (d : Date) : Int :=
  daysBeforeYear d.year + daysBeforeMonth d.year d.month + (d.day - 1 : Nat) - epochDay

/-- The month and the day of the month for a day counted from the start of its year. -/
def monthOfDay (year : Int) (day : Nat) : Nat × Nat :=
  go 1 day 11
where
  /-- `left` bounds the months still to come after this one. -/
  go (month day : Nat) : Nat → Nat × Nat
    | 0 => (month, day + 1)
    | left + 1 =>
      if day < daysInMonth year month then (month, day + 1)
      else go (month + 1) (day - daysInMonth year month) left

/-- The date of a day number. -/
def dateOfDay (number : Int) : Date :=
  let n := number + epochDay
  let (cycles, n) := (n / 146097, n % 146097)
  let centuries := min (n / 36524) 3
  let n := n - centuries * 36524
  let (quads, n) := (n / 1461, n % 1461)
  let years := min (n / 365) 3
  let year := cycles * 400 + centuries * 100 + quads * 4 + years + 1
  let (month, day) := monthOfDay year (n - years * 365).toNat
  ⟨year, month, day⟩

/-- The earliest year with instants of its own. -/
def minYear : Int := -262143

/-- The latest year with instants of its own. -/
def maxYear : Int := 262142

/-- Whether a date exists. -/
def Date.isValid (d : Date) : Bool :=
  minYear ≤ d.year && d.year ≤ maxYear && 1 ≤ d.month && d.month ≤ 12 && 1 ≤ d.day
    && d.day ≤ daysInMonth d.year d.month

/-- The day of the week of a day number, zero for Sunday. -/
def weekdayOfDay (number : Int) : Nat :=
  ((number + 4) % 7).toNat

namespace Instant

/-- Seconds of a day. -/
def daySeconds : Int := 86400

/-- The instant, if the years with instants of their own hold it. -/
def bounded? (i : Instant) : Option Instant :=
  let day := i.seconds / daySeconds
  if daysToDate ⟨minYear, 1, 1⟩ ≤ day ∧ day ≤ daysToDate ⟨maxYear, 12, 31⟩ then some i else none

/-- The instant a number of milliseconds after the start of 1970. -/
def ofMillis? (ms : Int) : Option Instant :=
  bounded? ⟨ms / 1000, (ms % 1000).toNat * 1000000⟩

/-- Milliseconds since the start of 1970. -/
def toMillis (i : Instant) : Int :=
  i.seconds * 1000 + (i.nanos / 1000000 : Nat)

/-- The date. -/
def date (i : Instant) : Date :=
  dateOfDay (i.seconds / daySeconds)

/-- The day of the week, zero for Sunday. -/
def weekday (i : Instant) : Nat :=
  weekdayOfDay (i.seconds / daySeconds)

/-- Seconds since midnight. -/
def secondOfDay (i : Instant) : Nat :=
  (i.seconds % daySeconds).toNat

/-- The hour of the day. -/
def hour (i : Instant) : Nat :=
  i.secondOfDay / 3600

/-- The minute of the hour. -/
def minute (i : Instant) : Nat :=
  i.secondOfDay / 60 % 60

/-- The second of the minute, 59 within a leap second. -/
def second (i : Instant) : Nat :=
  i.secondOfDay % 60

/-- The milliseconds since the second, at least 1000 within a leap second. -/
def millisecond (i : Instant) : Nat :=
  i.nanos / 1000000

end Instant
end Stencil.Calendar
