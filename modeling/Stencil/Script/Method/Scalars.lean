import Stencil.Calendar.Format
import Stencil.Number.Radix
import Stencil.Script.Method.Basic
/-!
# Methods of numbers, dates, truth values and objects

None of these methods calls back into the script, and none of them fails.
-/
namespace Stencil.Script.Method
open Value (argument)

/-- A method of numbers; `none` if there is none of that name. -/
def ofNumber (x : Float) (name : String) (args : List Value) : Option Value :=
  match name with
  | "toFixed" =>
    some (.string (Number.fixedText x (min (Number.toCount (argument args 0).toNumber) 100)))
  | "toString" =>
    match argument args 0 with
    | .undefined => some (.string (Number.text x))
    | base => some (.string (Number.radixText x (Number.toCount base.toNumber)))
  | "toLocaleString" => some (.string (Number.groupedText x))
  | "valueOf" => some (.number x)
  | _ => none

/-- A method of dates; `none` if there is none of that name. -/
def ofDate (i : Calendar.Instant) (name : String) : Option Value :=
  match name with
  | "getTime" | "valueOf" => some (.number (Number.ofInt i.toMillis))
  | "getFullYear" | "getUTCFullYear" => some (.number (Number.ofInt i.date.year))
  | "getMonth" | "getUTCMonth" => some (count (i.date.month - 1))
  | "getDate" | "getUTCDate" => some (count i.date.day)
  | "getDay" | "getUTCDay" => some (count i.weekday)
  | "getHours" | "getUTCHours" => some (count i.hour)
  | "getMinutes" | "getUTCMinutes" => some (count i.minute)
  | "getSeconds" | "getUTCSeconds" => some (count i.second)
  | "getMilliseconds" | "getUTCMilliseconds" => some (count i.millisecond)
  | "toISOString" | "toJSON" => some (.string i.isoText)
  | "toString" | "toUTCString" => some (.string i.fullText)
  | "toDateString" => some (.string i.dateText)
  | "toLocaleDateString" => some (.string i.shortDateText)
  | "toLocaleTimeString" => some (.string i.clockText)
  | "toLocaleString" => some (.string (i.shortDateText ++ ", " ++ i.clockText))
  | _ => none

/-- A method of truth values; `none` if there is none of that name. -/
def ofBool (b : Bool) (name : String) : Option Value :=
  match name with
  | "toString" => some (.string (if b then "true" else "false"))
  | "valueOf" => some (.bool b)
  | _ => none

/-- A method of objects; `none` if there is none of that name. -/
def ofObject (members : List (String × Value)) (name : String) (args : List Value) : Option Value :=
  match name with
  | "hasOwnProperty" => some (.bool (members.lookup (textArgument args 0)).isSome)
  | "toString" => some (.string "[object Object]")
  | _ => none

end Stencil.Script.Method
