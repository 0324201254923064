import Stencil.Number.Read
import Stencil.Script.Value.Basic
import Stencil.Calendar.Basic
/-!
# Comparing values

The conversion to a number and the three comparisons: strict equality by identity (`===`), loose
equality with conversions (`==`), and sameness of content (`Value.same`), which looks into
containers.
-/
namespace Stencil.Script.Value

/-- The value converted to a number. -/
def toNumber : Value → Float
  | .undefined => Number.notANumber
  | .null => 0
  | .bool b => if b then 1 else 0
  | .number x => x
  | .string s => Number.ofText s
  | .array _ ⟨[]⟩ => 0
  | .array _ ⟨[v]⟩ => v.toNumber
  | .date i => Number.ofInt i.toMillis
  | _ => Number.notANumber

/-- Equality without conversions; containers and functions are equal to themselves alone. -/
def strictEquals : Value → Value → Bool
  | .undefined, .undefined | .null, .null => true
  | .bool a, .bool b => a == b
  | .number x, .number y => x == y
  | .string s, .string t => s == t
  | .array a _, .array b _ | .object a _, .object b _ | .closure a .., .closure b .. => a == b
  | .date i, .date j => i == j
  | .native f, .native g => f == g
  | _, _ => false

/-- Whether two values are compared as numbers if they are compared loosely. -/
def comparedAsNumbers : Value → Value → Bool
  | .number _, .string _ | .string _, .number _ | .bool _, _ | _, .bool _
  | .date _, .number _ | .number _, .date _ => true
  | _, _ => false

/-- Equality with conversions: `undefined` and `null` are equal to each other alone, and numbers,
strings, truth values and dates meet as numbers. -/
def looseEquals (v w : Value) : Bool :=
  if v.isNullish || w.isNullish then v.isNullish && w.isNullish
  else if comparedAsNumbers v w then v.toNumber == w.toNumber
  else v.strictEquals w

mutual

/-- Equality of content: arrays by their items, objects by their members in any order, everything
else strictly. -/
def same : Value → Value → Bool
  | .array _ ⟨xs⟩, .array _ ys => xs.length == ys.size && sameItems xs ys.toList
  | .object _ ms, .object _ ns => ms.length == ns.length && sameMembers ms ns
  | v, w => v.strictEquals w

/-- Equality of content item by item. -/
def sameItems : List Value → List Value → Bool
  | [], [] => true
  | v :: vs, w :: ws => v.same w && sameItems vs ws
  | _, _ => false

/-- Whether every member has one of equal content under its key. -/
def sameMembers : List (String × Value) → List (String × Value) → Bool
  | [], _ => true
  | (key, v) :: rest, ns =>
    (match ns.lookup key with
      | some w => v.same w
      | none => false) && sameMembers rest ns

end
end Stencil.Script.Value
