import Stencil.Json.Basic
import Stencil.Number.Read
import Stencil.Script.Globals
import Stencil.Script.Machine
import Stencil.Script.Value.Text
/-!
# Names and places

How names are looked up and declared, how functions capture the locals around them, and how a place
(a local name, or a member reached from one) is updated.  An update leaves every other holder of the
old container as it was, because it makes new containers along its path.
-/
namespace Stencil.Script

/-- The binding of a name in the innermost of the frames that has it. -/
def findBinding? (name : String) (frames : List Frame) : Option Binding :=
  frames.findSome? fun frame => frame.lookup name

/-- The value of a name among read-only names. -/
def Scope.lookup? (scope : Scope) (name : String) : Option Value :=
  scope.helpers.lookup name <|> scope.vars.lookup name <|> scope.capabilities.lookup name
    <|> Globals.table.lookup name

/-- Whether a name is that of a helper. -/
def Scope.isHelper (scope : Scope) (name : String) : Bool :=
  (scope.helpers.lookup name).isSome

namespace Eval

/-- The frames of the function being run. -/
def frames : Eval (List Frame) := do
  return (← get).current.frames

/-- Whether a name is local to the function being run. -/
def isLocal (name : String) : Eval Bool := do
  return (findBinding? name (← frames)).isSome

/-- Whether a name is that of a helper. -/
def isHelper (name : String) : Eval Bool := do
  return (← read).scope.isHelper name

/-- The value of a name of the module of the function being run. -/
def lookupSibling? (name : String) : Eval (Option Value) := do
  let siblings := (← get).current.siblings
  match siblings.lookup name with
  | none => return none
  | some (.constant v) => return some v
  | some (.function definition captured) =>
    return some (.closure (← fresh) definition captured siblings)

/-- The value of a read-only name. -/
def readOnly? (name : String) : Eval (Option Value) := do
  return (← read).scope.lookup? name

/-- The value of a name: locals, then captured locals, then the names of the module, then the
read-only names. -/
def lookup? (name : String) : Eval (Option Value) := do
  let a := (← get).current
  match findBinding? name a.frames with
  | some b => return some b.value
  | none =>
    match a.captured.lookup name with
    | some v => return some v
    | none =>
      match ← lookupSibling? name with
      | some v => return some v
      | none => readOnly? name

/-- The value of a name that has to be bound. -/
def lookup (name : String) : Eval Value := do
  match ← lookup? name with
  | some v => return v
  | none => throw (.unbound name)

/-- Applies a change to the innermost frame. -/
def onInnermost (change : Frame → Frame) : List Frame → List Frame
  | frame :: outer => change frame :: outer
  | [] => []

/-- Binds a name in the innermost block. -/
def declare (name : String) (value : Value) (constant : Bool := false) : Eval Unit :=
  modify fun m =>
    { m with current := { m.current with
        frames := onInnermost (Json.insertMember name ⟨value, constant⟩) m.current.frames } }

/-- Whether the innermost block binds a name. -/
def isDeclared (name : String) : Eval Bool := do
  match ← frames with
  | frame :: _ => return (frame.lookup name).isSome
  | [] => return false

/-- The locals visible right now, those of inner blocks in front. -/
def snapshot (a : Activation) : List (String × Value) :=
  let locals := a.frames.flatMap fun frame => frame.map fun (name, b) => (name, b.value)
  (locals ++ a.captured).foldl (fun found (name, v) =>
    if (found.lookup name).isSome then found else (name, v) :: found) []

/-- The function that a definition makes right now. -/
def newClosure (definition : FunctionDef) : Eval Value := do
  let a := (← get).current
  let captured := snapshot a
  ofExcept (Value.checkHeights (← limits).valueDepth 1 (captured.map (·.2)))
  return .closure (← fresh) definition captured a.siblings

/-- The function that a statement declares, exported or not. -/
def declaredFunction? : Stmt → Option FunctionDef
  | .function definition | .export (.function definition) => some definition
  | _ => none

/-- Binds the functions that the statements declare. -/
def hoist (body : List Stmt) : Eval Unit :=
  body.forM fun s => do
    match declaredFunction? s with
    | some definition =>
      match definition.name with
      | some name => declare name (← newClosure definition)
      | none => return
    | none => return

/-- The activation in which a function is run: its own name, unless it is an arrow, and its
parameters, missing ones `undefined`. -/
def activationOf (self : Value) (definition : FunctionDef) (captured : List (String × Value))
    (siblings : Siblings) (args : List Value) : Activation :=
  let own : Frame := match definition.name, definition.isArrow with
    | some name, false => [(name, ⟨self, false⟩)]
    | _, _ => []
  let frame := definition.params.zipIdx.foldl (fun frame (param, i) =>
    Json.insertMember param ⟨Value.argument args i, false⟩ frame) own
  ⟨[frame], captured, siblings⟩

end Eval

/-! ### Places -/

/-- A step on the value in a slot: what it yields and the value left in the slot. -/
abbrev SlotStep (α : Type) := Value → Except ScriptError α × Value

/-- The place that an assignment writes: a name and the keys of the members below it. -/
structure Target where
  root : String
  keys : List String

/-- How far beyond its end an array may be written. -/
def maxGap : Nat := 1024

/-- Runs a step on the member under a key, which starts as `undefined`. -/
def onMember {α : Type} (key : String) (step : SlotStep α) :
    List (String × Value) → Except ScriptError α × List (String × Value)
  | [] => let (r, v) := step .undefined; (r, [(key, v)])
  | (k, v) :: rest =>
    if k = key then let (r, v) := step v; (r, (k, v) :: rest)
    else let (r, rest) := onMember key step rest; (r, (k, v) :: rest)

/-- Runs a step on the item at an index; an array that is too short is filled with `undefined`. -/
def onItem {α : Type} (i : Nat) (step : SlotStep α) (items : Array Value) :
    Except ScriptError α × Array Value :=
  let items := items ++ Array.replicate (i + 1 - items.size) .undefined
  if h : i < items.size then
    let v := items[i]
    let items := items.set i .undefined
    let (r, v) := step v
    (r, items.setIfInBounds i v)
  else (.error Eval.invalidLength, items)

/-- Runs a step on the slot that the keys lead to; the containers on the way get identities from
`id` on. -/
def onPath {α : Type} (step : SlotStep α) (id : Identity) : List String → SlotStep α
  | [], v => step v
  | key :: keys, .object _ members =>
    let (r, members) := onMember key (onPath step (id + 1) keys) members
    (r, .object id members)
  | key :: keys, .array old items =>
    match Number.index? key with
    | none => (.error (.wrongType s!"Cannot set property '{key}' of array"), .array old items)
    | some i =>
      if items.size + maxGap < i then (.error Eval.invalidLength, .array old items)
      else
        let (r, items) := onItem i (onPath step (id + 1) keys) items
        (r, .array id items)
  | key :: _, v =>
    if v.isNullish then
      (.error (.wrongType s!"Cannot set properties of {v.text} (setting '{key}')"), v)
    else (.error (.wrongType s!"Cannot create property '{key}' on {v.describe}"), v)

/-- Runs a step on the value of a name in the innermost frame that has it. -/
def onBinding {α : Type} (name : String) (step : SlotStep α) :
    List Frame → Option (Except ScriptError α) × List Frame
  | [] => (none, [])
  | frame :: outer =>
    match inFrame frame with
    | (some r, frame) => (some r, frame :: outer)
    | (none, frame) => let (r, outer) := onBinding name step outer; (r, frame :: outer)
where
  /-- The same within one frame. -/
  inFrame : Frame → Option (Except ScriptError α) × Frame
    | [] => (none, [])
    | (k, b) :: rest =>
      if k = name then
        let (r, v) := step b.value
        (some r, (k, { b with value := v }) :: rest)
      else let (r, rest) := inFrame rest; (r, (k, b) :: rest)

namespace Eval

/-- Checks that a name is a local that may be written. -/
def checkWritable (target : Target) : Eval Unit := do
  match findBinding? target.root (← frames) with
  | some b =>
    if target.keys.isEmpty && b.constant then throw (.wrongType "Assignment to constant variable.")
  | none =>
    match ← lookup? target.root with
    | some _ => throw (.wrongType s!"Cannot assign to read-only binding '{target.root}'")
    | none => throw (.unbound target.root)

/-- Runs a step on the value in a place. -/
def onPlace {α : Type} (target : Target) (step : SlotStep α) : Eval α := do
  checkWritable target
  let r ← modifyGet fun m =>
    let id := m.next
    let a := m.current
    let m := { m with current := ⟨[], [], []⟩, next := id + target.keys.length }
    let (r, frames) := onBinding target.root (onPath step id target.keys) a.frames
    (r, { m with current := { a with frames } })
  match r with
  | some r => ofExcept r
  | none => throw (.unbound target.root)

/-- Puts a value into a place.  A member must not become nested too deep by it. -/
def assign (target : Target) (value : Value) : Eval Unit := do
  let limit := (← limits).valueDepth
  let level := target.keys.length
  onPlace target fun _ =>
    if level = 0 then (.ok (), value)
    else
      match Value.checkHeights limit level [value] with
      | .ok () => (.ok (), value)
      | .error e => (.error e, .undefined)

end Eval
end Stencil.Script
