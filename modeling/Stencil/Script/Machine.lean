import Stencil.Script.Limits
import Stencil.Script.Value.Height
/-!
# The state of an evaluation

An evaluation reads a `Context`, which it never changes, and works on a `Machine`: the activations
of the functions being run, with their frames of local bindings, and the counters that the limits
bound.  A failing step keeps the machine that it reached.
-/
namespace Stencil.Script

/-- What a host answers when a script asks for the text behind an address. -/
inductive FetchAnswer where
  | body (text : String)
  | failure (message : String)
  /-- No answer comes within any time. -/
  | pending
  deriving Repr, DecidableEq

/-- What the host of an evaluation provides. -/
structure Host where
  /-- The functions that the host provides, by name. -/
  natives : String → List Value → Except String Value := fun _ _ => .ok .undefined
  /-- How addresses are answered, if scripts may ask at all. -/
  fetch : Option (String → FetchAnswer) := none
  /-- The present. -/
  now : Calendar.Instant := ⟨0, 0⟩

/-- The names that a script can read but not change, apart from the global ones: helpers first, then
variables, then capabilities. -/
structure Scope where
  helpers : List (String × Value) := []
  vars : List (String × Value) := []
  capabilities : List (String × Value) := []

/-- What an evaluation reads. -/
structure Context where
  scope : Scope := {}
  limits : Limits := {}
  budget : Budget
  host : Host := {}

/-- A local name: its value, and whether it may not be assigned. -/
structure Binding where
  value : Value
  constant : Bool := false

/-- The names of one block. -/
abbrev Frame := List (String × Binding)

/-- One function being run. -/
structure Activation where
  /-- The blocks being run, innermost first. -/
  frames : List Frame
  /-- The locals among which the function was created. -/
  captured : List (String × Value) := []
  /-- The names of the module of the function. -/
  siblings : Siblings := []

/-- The state of an evaluation. -/
structure Machine where
  /-- The function being run. -/
  current : Activation := ⟨[[]], [], []⟩
  /-- The functions waiting for it, innermost first. -/
  callers : List Activation := []
  /-- The most functions that have been run or been waiting at once. -/
  peak : Nat := 1
  ticks : Nat := 0
  /-- Bytes charged so far. -/
  allocated : Nat := 0
  /-- The first identity not yet in use. -/
  next : Identity
  /-- The value of the last expression statement of the program. -/
  completion : Value := .undefined
  /-- The names that `export` has listed, in order. -/
  exported : List String := []
  defaultExport : Option Value := none
  /-- The state of the random numbers. -/
  seed : Nat := 1
  /-- The addresses for which the host was asked, in order. -/
  requests : List String := []
  /-- The values that came whole from outside, last first: those that JSON texts stand for and those
  that functions of the host answer with. -/
  received : List Value := []

namespace Machine

/-- Opens a block. -/
def openFrame (m : Machine) : Machine :=
  { m with current := { m.current with frames := [] :: m.current.frames } }

/-- Leaves the innermost block. -/
def closeFrame (m : Machine) : Machine :=
  { m with current := { m.current with frames := m.current.frames.tail } }

/-- Makes an activation the one that is run; the present one waits for it. -/
def enter (a : Activation) (m : Machine) : Machine :=
  { m with
    current := a
    callers := m.current :: m.callers
    peak := max m.peak (m.callers.length + 2) }

/-- Goes back to the activation that waits innermost. -/
def leave (m : Machine) : Machine :=
  match m.callers with
  | caller :: callers => { m with current := caller, callers }
  | [] => m

end Machine

/-- Steps of an evaluation. -/
abbrev Eval := ReaderT Context (EStateM ScriptError Machine)

/-- How a statement ends. -/
inductive Flow where
  | normal
  | returned (v : Value)
  | broken
  | continued

namespace Eval

/-- Takes over the outcome of a pure step. -/
def ofExcept {α : Type} : Except ScriptError α → Eval α
  | .ok a => pure a
  | .error e => throw e

/-- The ceilings of the evaluation. -/
def limits : Eval Limits := do
  return (← read).limits

/-- The present. -/
def now : Eval Calendar.Instant := do
  return (← read).host.now

/-- Looks at the budget. -/
def poll (b : Budget) (ticks : Nat) : Except ScriptError Unit :=
  match b.cancelled with
  | some reason => .error (.cancelled reason)
  | none => if b.expiry ≤ ticks then .error (.timeout b.limit) else .ok ()

/-- Counts one unit of work, and looks at the budget at every sixty-fourth. -/
def tick : Eval Unit := do
  modify fun m => { m with ticks := m.ticks + 1 }
  let ticks := (← get).ticks
  if ticks % pollInterval = 0 then ofExcept (poll (← read).budget ticks)

/-- An identity not used before. -/
def fresh : Eval Identity :=
  modifyGet fun m => (m.next, { m with next := m.next + 1 })

/-- Bytes charged for a slot that holds a value. -/
def slotBytes : Nat := 24

/-- Bytes charged for a member of an object. -/
def memberBytes : Nat := 48

/-- Charges bytes that the evaluation is about to make. -/
def charge (bytes : Nat) : Eval Unit := do
  let limit := (← limits).allocation
  let total := (← get).allocated + bytes
  if limit < total then throw (.outOfRange s!"Allocation limit of {limit} bytes exceeded")
  modify fun m => { m with allocated := total }

/-- What is thrown for an array that would become too long. -/
def invalidLength : ScriptError :=
  .outOfRange "Invalid array length"

/-- What is thrown for a string that would become too long. -/
def invalidStringLength : ScriptError :=
  .outOfRange "Invalid string length"

/-- A new string within the limits. -/
def newString (s : String) : Eval Value := do
  if (← limits).stringLength < s.utf8ByteSize then throw invalidStringLength
  charge s.utf8ByteSize
  return .string s

/-- A new array, without regard to limits. -/
def plainArray (items : Array Value) : Eval Value := do
  return .array (← fresh) items

/-- A new object, without regard to limits. -/
def plainObject (members : List (String × Value)) : Eval Value := do
  return .object (← fresh) members

/-- A new array within the limits. -/
def newArray (items : Array Value) : Eval Value := do
  let limits ← limits
  if limits.arrayLength < items.size then throw invalidLength
  charge (items.size * slotBytes)
  ofExcept (Value.checkHeights limits.valueDepth 1 items.toList)
  plainArray items

/-- A new array of listed items within the limits. -/
def newList (items : List Value) : Eval Value :=
  newArray items.toArray

/-- A new object within the limits. -/
def newObject (members : List (String × Value)) : Eval Value := do
  charge (members.length * memberBytes)
  ofExcept (Value.checkHeights (← limits).valueDepth 1 (members.map (·.2)))
  plainObject members

/-- Runs a step between two changes of the machine; the second is made however the step ends. -/
def between {α : Type} (before after : Machine → Machine) (x : Eval α) : Eval α := do
  modify before
  tryCatch (do let a ← x; modify after; return a) fun e => do modify after; throw e

/-- Runs a step in a block of its own, which is left however the step ends. -/
def withFrame {α : Type} (x : Eval α) : Eval α :=
  between Machine.openFrame Machine.closeFrame x

/-- Runs a step in an activation of its own, which is left however the step ends. -/
def withActivation {α : Type} (a : Activation) (x : Eval α) : Eval α :=
  between (Machine.enter a) Machine.leave x

/-- One turn of a loop, which counts as work, and the turns that follow it unless it says how the
loop ends. -/
def oneTurn (turn : Eval (Option Flow)) (rest : Eval Flow) : Eval Flow := do
  tick
  match ← turn with
  | some flow => return flow
  | none => rest

/-- Repeats a turn as long as `go` says so; `turns` bounds their number. -/
def repeatTurns (go : Eval Bool) (turn : Eval (Option Flow)) : Nat → Eval Flow
  | 0 => do throw (.timeout (← read).budget.limit)
  | turns + 1 => do
    if ← go then oneTurn turn (repeatTurns go turn turns) else return .normal

/-- Repeats a turn, which the budget ends. -/
def loop (go : Eval Bool) (turn : Eval (Option Flow)) : Eval Flow := do
  repeatTurns go turn (← read).budget.ceiling

/-- How a loop goes on after its body: it ends with the flow, or it continues. -/
def afterBody : Flow → Option Flow
  | .broken => some .normal
  | .returned v => some (.returned v)
  | .normal | .continued => none

end Eval
end Stencil.Script
