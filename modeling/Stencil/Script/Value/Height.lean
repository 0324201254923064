import Std.Data.HashMap
import Stencil.Script.Error
import Stencil.Script.Value.Basic
/-!
# Heights of values

The height of a value is the number of containers on its longest chain of arrays, objects and
captured locals.  `Value.measure` checks that a value fits below a level; it measures a container
that occurs in several places once, by its identity.
-/
namespace Stencil.Script.Value

mutual

/-- The height: zero for scalars, and one more than the highest content for containers. -/
def height : Value → Nat
  | .array _ ⟨items⟩ => itemsHeight items + 1
  | .object _ members => membersHeight members + 1
  | .closure _ _ captured _ => membersHeight captured + 1
  | _ => 0

/-- The greatest height among items. -/
def itemsHeight : List Value → Nat
  | [] => 0
  | v :: rest => max v.height (itemsHeight rest)

/-- The greatest height among members. -/
def membersHeight : List (String × Value) → Nat
  | [] => 0
  | (_, v) :: rest => max v.height (membersHeight rest)

end

/-- Heights of containers already measured. -/
abbrev Heights := Std.HashMap Identity Nat

/-- A value nested deeper than `limit`. -/
def tooDeep (limit : Nat) : ScriptError :=
  .outOfRange s!"Value nested deeper than {limit}"

/-- What is known about a container without looking into it: that it stands too deep, or its height
if it was measured before. -/
def known (limit level : Nat) (seen : Heights) (id : Identity) :
    Option (Except ScriptError (Nat × Heights)) :=
  if limit ≤ level then some (.error (tooDeep limit))
  else seen[id]?.map fun h => if limit < level + h then .error (tooDeep limit) else .ok (h, seen)

/-- The height of a container whose content is `inside` high, noted under its identity. -/
def noted (id : Identity) : Nat × Heights → Nat × Heights
  | (inside, seen) => (inside + 1, seen.insert id (inside + 1))

mutual

/-- The height of a value that stands `level` containers below its binding; fails if it reaches
below `limit` containers. -/
def measure (limit level : Nat) (seen : Heights) : Value → Except ScriptError (Nat × Heights)
  | .array id ⟨items⟩ =>
    match known limit level seen id with
    | some answer => answer
    | none => (measureItems limit (level + 1) 0 seen items).map (noted id)
  | .object id members =>
    match known limit level seen id with
    | some answer => answer
    | none => (measureMembers limit (level + 1) 0 seen members).map (noted id)
  | .closure id _ captured _ =>
    match known limit level seen id with
    | some answer => answer
    | none => (measureMembers limit (level + 1) 0 seen captured).map (noted id)
  | _ => .ok (0, seen)

/-- The greatest height among items and `highest`. -/
def measureItems (limit level highest : Nat) (seen : Heights) :
    List Value → Except ScriptError (Nat × Heights)
  | [] => .ok (highest, seen)
  | v :: rest =>
    match measure limit level seen v with
    | .ok (h, seen) => measureItems limit level (max highest h) seen rest
    | .error e => .error e

/-- The greatest height among members and `highest`. -/
def measureMembers (limit level highest : Nat) (seen : Heights) :
    List (String × Value) → Except ScriptError (Nat × Heights)
  | [] => .ok (highest, seen)
  | (_, v) :: rest =>
    match measure limit level seen v with
    | .ok (h, seen) => measureMembers limit level (max highest h) seen rest
    | .error e => .error e

end

/-- Whether every one of the values fits `level` containers below a binding. -/
def checkHeights (limit level : Nat) (values : List Value) : Except ScriptError Unit :=
  (measureItems limit level 0 ∅ values).map fun _ => ()

end Stencil.Script.Value
