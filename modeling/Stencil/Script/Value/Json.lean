import Stencil.Json.Write
import Stencil.Script.Error
import Stencil.Script.Value.Text
/-!
# Values and JSON

`Value.toJson` expands a value into a JSON tree, within limits on nodes and nesting, and
`Value.ofJson` makes a value of a JSON tree.  `Value.output` is the text that a rendered template
shows for a value.
-/
namespace Stencil.Script.Value

/-- The greatest number of nodes of a JSON tree that a value expands into. -/
def maxJsonNodes : Nat := 1000000

/-- Integers below this bound are written as integers. -/
def integerBound : Float := 9.0e15

/-- A number as JSON: what is no finite number becomes `null`. -/
def numberJson (x : Float) : Json :=
  if !Number.isFinite x then .null
  else if Number.isInteger x && x.abs < integerBound then .number (.integer (Number.truncate x))
  else .number (.real x)

/-- Whether an object leaves a member with this value out of its JSON. -/
def isOmitted (v : Value) : Bool :=
  v.isUndefined || v.isCallable

mutual

/-- The JSON tree of a value that stands `depth` containers deep, and the number of nodes so far. -/
def jsonNode (depth nodes : Nat) (v : Value) : Except ScriptError (Json × Nat) :=
  if maxJsonNodes < nodes + 1 then
    .error (.outOfRange s!"Value has more than {maxJsonNodes} JSON nodes")
  else if maxNesting ≤ depth then .error (.outOfRange s!"Value nested deeper than {maxNesting}")
  else match v with
    | .undefined | .null | .closure .. | .native _ => .ok (.null, nodes + 1)
    | .bool b => .ok (.bool b, nodes + 1)
    | .number x => .ok (numberJson x, nodes + 1)
    | .string s => .ok (.string s, nodes + 1)
    | .date i => .ok (.string i.isoText, nodes + 1)
    | .array _ ⟨items⟩ =>
      match jsonItems (depth + 1) (nodes + 1) [] items with
      | .ok (js, nodes) => .ok (.array js, nodes)
      | .error e => .error e
    | .object _ members =>
      match jsonMembers (depth + 1) (nodes + 1) [] members with
      | .ok (ms, nodes) => .ok (.object ms, nodes)
      | .error e => .error e

/-- The JSON trees of items; `done` holds those already made, last first. -/
def jsonItems (depth nodes : Nat) (done : List Json) :
    List Value → Except ScriptError (List Json × Nat)
  | [] => .ok (done.reverse, nodes)
  | v :: rest =>
    match jsonNode depth nodes v with
    | .ok (j, nodes) => jsonItems depth nodes (j :: done) rest
    | .error e => .error e

/-- The JSON trees of the members that JSON can show. -/
def jsonMembers (depth nodes : Nat) (done : List (String × Json)) :
    List (String × Value) → Except ScriptError (List (String × Json) × Nat)
  | [] => .ok (done.reverse, nodes)
  | (key, v) :: rest =>
    if v.isOmitted then jsonMembers depth nodes done rest
    else
      match jsonNode depth nodes v with
      | .ok (j, nodes) => jsonMembers depth nodes ((key, j) :: done) rest
      | .error e => .error e

end

/-- The value as JSON.  Functions and `undefined` become `null`; as members of objects they are left
out. -/
def toJson (v : Value) : Except ScriptError Json :=
  (jsonNode 0 0 v).map (·.1)

/-- The double of a JSON number. -/
def jsonNumber : Json.Number → Float
  | .integer i => Number.ofInt i
  | .real x => x

mutual

/-- The value of a JSON tree; containers get identities from `next` on, and the first unused one is
returned with the value. -/
def ofJson (next : Identity) : Json → Value × Identity
  | .null => (.null, next)
  | .bool b => (.bool b, next)
  | .number n => (.number (jsonNumber n), next)
  | .string s => (.string s, next)
  | .array items =>
    let (values, after) := ofJsonItems (next + 1) #[] items
    (.array next values, after)
  | .object members =>
    let (values, after) := ofJsonMembers (next + 1) [] members
    (.object next values, after)

/-- The values of items; `done` holds those already made. -/
def ofJsonItems (next : Identity) (done : Array Value) : List Json → Array Value × Identity
  | [] => (done, next)
  | j :: rest =>
    let (v, next) := ofJson next j
    ofJsonItems next (done.push v) rest

/-- The values of members; `done` holds those already made, last first. -/
def ofJsonMembers (next : Identity) (done : List (String × Value)) :
    List (String × Json) → List (String × Value) × Identity
  | [] => (done.reverse, next)
  | (key, j) :: rest =>
    let (v, next) := ofJson next j
    ofJsonMembers next ((key, v) :: done) rest

end

/-- The text of a value in a rendered template: nothing for `undefined` and `null`, JSON for
objects, and the conversion to a string for everything else. -/
def output (v : Value) : Except ScriptError String := do
  let text ← match v with
    | .undefined | .null => pure ""
    | .object .. => (·.compact) <$> v.toJson
    | v => pure v.text
  if isOverlong text then
    .error (.outOfRange s!"Rendered value is larger than {maxTextBytes} bytes")
  else .ok text

end Stencil.Script.Value
