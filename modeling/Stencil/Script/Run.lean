import Stencil.Script.Eval
/-!
# Running programs

`runProgram` runs statements and gives the value of the last expression statement; `runModule` runs
them as the body of a module and collects the names that it binds and those that it exports.
-/
namespace Stencil.Script

namespace Eval

/-- How functions are called at the top of an evaluation, where one call is being run. -/
def topCall (limits : Limits) : Call :=
  callVia (enter (limits.callDepth - 1))

/-- The value of the last expression statement, which is taken out of the machine. -/
def takeCompletion : Eval Value :=
  modifyGet fun m => (m.completion, { m with completion := .undefined })

/-- Runs the statements of a program; a `return` ends it with its value. -/
def programStmts (call : Call) : List Stmt → Eval Value
  | [] => takeCompletion
  | s :: rest => do
    match ← stmt call false s with
    | .normal => programStmts call rest
    | .returned v => return v
    | .broken | .continued => throw (.malformed "Illegal break or continue statement" none)

/-- Runs a program, given how functions are called. -/
def programWith (call : Call) (body : List Stmt) : Eval Value := do
  hoist body
  programStmts call body

/-- Runs a program. -/
def program (body : List Stmt) : Eval Value := do
  programWith (topCall (← limits)) body

/-- The members of a value that is an object. -/
def exportedMembers (v : Option Value) : List (String × Value) :=
  ((v.bind Value.members?).getD [])

/-- The value of `module.exports`, or of `module` itself if that is no object any more. -/
def moduleExports (v : Option Value) : Option Value :=
  match v with
  | some (.object _ members) => members.lookup "exports"
  | v => v

/-- The name under which a default export is known. -/
def defaultName (v : Value) : String :=
  match v with
  | .closure _ definition _ _ => definition.name.getD "default"
  | _ => "default"

/-- Puts values under their keys, one after the other. -/
def overlay (onto : List (String × Value)) (entries : List (String × Value)) :
    List (String × Value) :=
  entries.foldl (fun ms (key, v) => Json.insertMember key v ms) onto

end Eval

/-- What a module binds and exports. -/
structure ModuleOutput where
  /-- The names bound at the top of the module, and their values at its end. -/
  bindings : List (String × Value)
  /-- What `module.exports`, `exports` and `export` name, in this order, each name once. -/
  exports : List (String × Value)

namespace Eval

/-- Collects what a module that has run binds and exports. -/
def collect (m : Machine) : ModuleOutput :=
  let bound := (m.current.frames.getLast?.getD []).map fun (name, b) => (name, b.value)
  let listed := m.exported.filterMap fun name => (bound.lookup name).map fun v => (name, v)
  let exports := overlay (exportedMembers (moduleExports (bound.lookup "module")))
    (exportedMembers (bound.lookup "exports") ++ listed
      ++ (m.defaultExport.map fun v => (defaultName v, v)).toList)
  ⟨bound.filter fun (name, _) => name != "module" && name != "exports", exports⟩

/-- Runs the body of a module, which starts with the names `module` and `exports`. -/
def module (body : List Stmt) : Eval ModuleOutput := do
  let exports ← plainObject []
  declare "module" (← plainObject [("exports", exports)])
  declare "exports" exports
  let _ ← program body
  return collect (← get)

end Eval

/-- The outcome of an evaluation and the first identity that it leaves unused. -/
abbrev Outcome (α : Type) := Except ScriptError α × Identity

/-- Runs a step on a new machine whose identities start at `next`. -/
def runFrom {α : Type} (context : Context) (next : Identity) (x : Eval α) : Outcome α :=
  match (x.run context).run { next } with
  | .ok a m => (.ok a, m.next)
  | .error e m => (.error e, m.next)

/-- Runs a program. -/
def runProgram (context : Context) (next : Identity) (body : List Stmt) : Outcome Value :=
  runFrom context next (Eval.program body)

/-- Runs the body of a module. -/
def runModule (context : Context) (next : Identity) (body : List Stmt) : Outcome ModuleOutput :=
  runFrom context next (Eval.module body)

end Stencil.Script
