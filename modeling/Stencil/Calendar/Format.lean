import Stencil.Calendar.Basic
/-!
# Instants as text

The texts in which scripts see an instant: the internet format with milliseconds, and the forms for
readers.
-/
namespace Stencil.Calendar

/-- A number with at least `width` digits. -/
def padded (width n : Nat) : String :=
  let ds := Nat.toDigits 10 n
  String.ofList (List.replicate (width - ds.length) '0' ++ ds)

/-- A year: four digits, and outside of those a sign before at least four digits. -/
def yearText (year : Int) : String :=
  if 0 ≤ year ∧ year ≤ 9999 then padded 4 year.toNat
  else (if year < 0 then "-" else "+") ++ padded 4 year.natAbs

/-- The short names of the days of the week, Sunday first. -/
def weekdayNames : List String :=
  ["Sun", "Mon", "Tue", "Wed", "Thu", "Fri", "Sat"]

/-- The short names of the months. -/
def monthNames : List String :=
  ["Jan", "Feb", "Mar", "Apr", "May", "Jun", "Jul", "Aug", "Sep", "Oct", "Nov", "Dec"]

namespace Instant

/-- The second as it is written, 60 within a leap second. -/
def writtenSecond (i : Instant) : Nat :=
  i.second + i.nanos / 1000000000

/-- Minutes and seconds. -/
def minuteText (i : Instant) : String :=
  padded 2 i.minute ++ ":" ++ padded 2 i.writtenSecond

/-- The internet format with milliseconds. -/
def isoText (i : Instant) : String :=
  let d := i.date
  yearText d.year ++ "-" ++ padded 2 d.month ++ "-" ++ padded 2 d.day ++ "T" ++ padded 2 i.hour
    ++ ":" ++ i.minuteText ++ "." ++ padded 3 (i.millisecond % 1000) ++ "Z"

/-- The short name of the day of the week. -/
def weekdayName (i : Instant) : String :=
  weekdayNames.getD i.weekday ""

/-- The short name of the month. -/
def monthName (i : Instant) : String :=
  monthNames.getD (i.date.month - 1) ""

/-- Day of the week, date and time. -/
def fullText (i : Instant) : String :=
  i.weekdayName ++ ", " ++ padded 2 i.date.day ++ " " ++ i.monthName ++ " " ++ yearText i.date.year
    ++ " " ++ padded 2 i.hour ++ ":" ++ i.minuteText ++ " GMT"

/-- Day of the week and date. -/
def dateText (i : Instant) : String :=
  i.weekdayName ++ " " ++ i.monthName ++ " " ++ padded 2 i.date.day ++ " " ++ yearText i.date.year

/-- The date in numbers, month first. -/
def shortDateText (i : Instant) : String :=
  toString i.date.month ++ "/" ++ toString i.date.day ++ "/" ++ yearText i.date.year

/-- The time on a clock of twelve hours. -/
def clockText (i : Instant) : String :=
  let hour := if i.hour % 12 = 0 then 12 else i.hour % 12
  toString hour ++ ":" ++ i.minuteText ++ (if i.hour < 12 then " AM" else " PM")

end Instant
end Stencil.Calendar
