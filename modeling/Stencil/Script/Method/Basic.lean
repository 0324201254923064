import Stencil.Script.Machine
import Stencil.Script.Value.Equality
import Stencil.Script.Value.Text
/-!
# Arguments of methods

What the methods of the built-in kinds share: how they read their arguments and how they call a
function that they are given.
-/
namespace Stencil.Script

/-- How a function is called with evaluated arguments. -/
abbrev Call := Value → List Value → Eval Value

namespace Method
open Value (argument)

/-- An argument as text; a missing one reads `undefined`. -/
def textArgument (args : List Value) (i : Nat) : String :=
  (argument args i).text

/-- An argument as text, or a default if it is missing or `undefined`. -/
def textOr (default : String) (v : Value) : String :=
  if v.isUndefined then default else v.text

/-- A natural number as a value. -/
def count (n : Nat) : Value :=
  .number (Number.ofNat n)

/-- The place that was found, or minus one. -/
def placeOrMinusOne (place : Option Nat) : Value :=
  (place.map count).getD (.number (-1))

/-- A place given by a number that may count from the end, kept within a length; a missing one is
the default. -/
def relativeIndex (v : Value) (length default : Nat) : Nat :=
  if v.isNullish then default
  else
    let n := v.toNumber
    if n.isNaN then 0
    else
      let n := Number.roundToZero n
      if n < 0 then Number.toCount (Number.ofNat length + n) else min (Number.toCount n) length

/-- The place that `at` reads: a negative number counts from the end. -/
def relativePlace? (v : Value) (length : Nat) : Option Nat :=
  let n := Number.roundToZero v.toNumber
  let n := if n < 0 then Number.ofNat length + n else n
  if n < 0 then none else some (Number.toCount n)

/-- The function in the first argument, on which the method has to insist. -/
def callback (args : List Value) : Eval Value := do
  let f := argument args 0
  if f.isCallable then return f else throw (.notFunction f.text)

end Method
end Stencil.Script
