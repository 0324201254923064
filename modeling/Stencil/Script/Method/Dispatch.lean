import Stencil.Script.Method.Arrays
import Stencil.Script.Method.Scalars
import Stencil.Script.Method.Strings
import Stencil.Script.Error
/-!
# Methods and members of values

`Method.invoke` calls a built-in method of any value, and `Value.member` reads a member.
-/
namespace Stencil.Script
open Value (argument)

/-- A method of functions; `none` if there is none of that name. -/
def Method.ofFunction (call : Call) (self : Value) (name : String) (args : List Value) :
    Eval (Option Value) := do
  match name with
  | "call" => some <$> call self args.tail
  | "apply" => some <$> call self (((argument args 1).items?.getD #[]).toList)
  | "toString" => return some (.string self.text)
  | _ => return none

/-- Calls a built-in method; `none` if the value has none of that name. -/
def Method.invoke (call : Call) (self : Value) (name : String) (args : List Value) :
    Eval (Option Value) :=
  match self with
  | .string s => ofString call s name args
  | .array _ items => ofArray call self items.toList name args
  | .number x => pure (ofNumber x name args)
  | .date i => pure (ofDate i name)
  | .bool b => pure (ofBool b name)
  | .object _ members => pure (ofObject members name args)
  | .closure .. | .native _ => ofFunction call self name args
  | .undefined | .null => pure none

namespace Value

/-- What is thrown for a member of `undefined` or `null`. -/
def noMembers (v : Value) (key : String) : ScriptError :=
  .wrongType s!"Cannot read properties of {v.text} (reading '{key}')"

/-- The member under a key, with the lengths of strings and arrays and the names of functions. -/
def member (v : Value) (key : String) : Except ScriptError Value :=
  if Security.isDenied key then .error (.deniedName key)
  else match v with
    | .undefined | .null => .error (v.noMembers key)
    | .object _ members => .ok ((members.lookup key).getD .undefined)
    | .array _ items =>
      if key = "length" then .ok (Method.count items.size)
      else .ok ((Number.index? key >>= fun i => items[i]?).getD .undefined)
    | .string s =>
      if key = "length" then .ok (Method.count s.length)
      else .ok (Method.ofChar? (Number.index? key >>= fun i => s.toList[i]?))
    | .closure _ definition _ _ =>
      if key = "name" then .ok (.string (definition.name.getD ""))
      else if key = "length" then .ok (Method.count definition.params.length)
      else .ok .undefined
    | .native f =>
      if key = "name" then .ok (.string f.name)
      else if key = "length" then .ok (Method.count f.arity)
      else .ok .undefined
    | _ => .ok .undefined

end Value
end Stencil.Script
