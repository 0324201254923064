import Std.Data.HashSet
import Stencil.Script.Limits
import Stencil.Script.Value.Height
/-!
# Arguments of helpers

Before a helper is called by its name its arguments are walked: they must not hold too many values,
nest too deep, or hold an object with a forbidden member name.  A container met again, by its
identity, is counted but not walked again.
-/
namespace Stencil.Script

/-- Containers already walked and the number of values met. -/
structure Walk where
  visited : Std.HashSet Identity := ∅
  nodes : Nat := 0

/-- Counts a value that stands `depth` containers below its argument. -/
def Walk.count (limits : ArgumentLimits) (depth : Nat) (w : Walk) : Except ScriptError Walk :=
  if limits.nodes < w.nodes + 1 then
    .error (.outOfRange s!"helper argument exceeds {limits.nodes} nodes")
  else if limits.depth < depth then
    .error (.outOfRange s!"helper argument nested deeper than {limits.depth}")
  else .ok { w with nodes := w.nodes + 1 }

/-- Notes that a container is walked. -/
def Walk.visit (id : Identity) (w : Walk) : Walk :=
  { w with visited := w.visited.insert id }

mutual

/-- Walks a value that stands `depth` containers below its argument. -/
def walk (limits : ArgumentLimits) (depth : Nat) (w : Walk) (v : Value) : Except ScriptError Walk :=
  match w.count limits depth with
  | .error e => .error e
  | .ok w =>
    match v with
    | .array id ⟨items⟩ =>
      if w.visited.contains id then .ok w else walkItems limits (depth + 1) (w.visit id) items
    | .object id members =>
      if w.visited.contains id then .ok w else walkMembers limits (depth + 1) (w.visit id) members
    | _ => .ok w

/-- Walks the items of an array. -/
def walkItems (limits : ArgumentLimits) (depth : Nat) (w : Walk) :
    List Value → Except ScriptError Walk
  | [] => .ok w
  | v :: rest =>
    match walk limits depth w v with
    | .ok w => walkItems limits depth w rest
    | .error e => .error e

/-- Walks the members of an object. -/
def walkMembers (limits : ArgumentLimits) (depth : Nat) (w : Walk) :
    List (String × Value) → Except ScriptError Walk
  | [] => .ok w
  | (key, v) :: rest =>
    if Security.isDenied key then .error (.deniedName key)
    else
      match walk limits depth w v with
      | .ok w => walkMembers limits depth w rest
      | .error e => .error e

end

/-- Whether a helper may be called with the arguments. -/
def checkArguments (limits : ArgumentLimits) (args : List Value) : Except ScriptError Unit :=
  (walkItems limits 0 {} args).map fun _ => ()

end Stencil.Script
