import Stencil.Script.Bindings
import Stencil.Script.Value.Equality
/-!
# Operators

What the operators of the language compute from evaluated operands.
-/
namespace Stencil.Script

namespace Value

/-- Containers, dates and functions converted to text; other values as they are. -/
def toPrimitive (v : Value) : Value :=
  match v with
  | .array .. | .object .. | .date _ | .closure .. | .native _ => .string v.text
  | v => v

/-- Whether the value is a string. -/
def isString : Value → Bool
  | .string _ => true
  | _ => false

/-- How two values compare: as texts if both are texts, otherwise as numbers; `none` if one is no
number. -/
def compare? (v w : Value) : Option Ordering :=
  match v.toPrimitive, w.toPrimitive with
  | .string s, .string t => some (compare s t)
  | v, w =>
    let (x, y) := (v.toNumber, w.toNumber)
    if x < y then some .lt else if x == y then some .eq else if y < x then some .gt else none

/-- Whether a container has a member under a key. -/
def hasMember (key : String) (v : Value) : Except ScriptError Bool :=
  match v with
  | .object _ members => .ok (members.lookup key).isSome
  | .array _ items => .ok (key == "length" || (Number.index? key).any (· < items.size))
  | v => .error (.wrongType s!"Cannot use 'in' operator to search for '{key}' in {v.text}")

end Value

namespace Eval

/-- The sum of numbers, or the texts one after the other if one operand is text. -/
def add (v w : Value) : Eval Value := do
  let (v, w) := (v.toPrimitive, w.toPrimitive)
  if v.isString || w.isString then newString (v.text ++ w.text)
  else return .number (v.toNumber + w.toNumber)

/-- An operator on two evaluated operands. -/
def binary (op : BinaryOp) (v w : Value) : Eval Value := do
  match op with
  | .add => add v w
  | .sub => return .number (v.toNumber - w.toNumber)
  | .mul => return .number (v.toNumber * w.toNumber)
  | .div => return .number (v.toNumber / w.toNumber)
  | .rem => return .number (Number.remainder v.toNumber w.toNumber)
  | .pow => return .number (v.toNumber.pow w.toNumber)
  | .eq => return .bool (v.looseEquals w)
  | .notEq => return .bool (!v.looseEquals w)
  | .strictEq => return .bool (v.strictEquals w)
  | .strictNotEq => return .bool (!v.strictEquals w)
  | .lt => return .bool ((v.compare? w).any (·.isLT))
  | .ltEq => return .bool ((v.compare? w).any (·.isLE))
  | .gt => return .bool ((v.compare? w).any (·.isGT))
  | .gtEq => return .bool ((v.compare? w).any (·.isGE))
  | .mem => return .bool (← ofExcept (w.hasMember v.keyText))

/-- An operator on one evaluated operand. -/
def unary (op : UnaryOp) (v : Value) : Value :=
  match op with
  | .not => .bool (!v.truthy)
  | .neg => .number (-v.toNumber)
  | .plus => .number v.toNumber
  | .typeOf => .string v.typeOf
  | .void => .undefined

/-- The number that a step by one makes of a number. -/
def stepped (op : UpdateOp) (x : Float) : Float :=
  match op with
  | .inc => x + 1
  | .dec => x - 1

/-- Whether the left operand decides, so that the right one is not evaluated. -/
def decides (op : LogicalOp) (v : Value) : Bool :=
  match op with
  | .and => !v.truthy
  | .or => v.truthy
  | .nullish => !v.isNullish

end Eval
end Stencil.Script
