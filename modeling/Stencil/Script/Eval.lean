import Stencil.Script.Arguments
import Stencil.Script.Method.Dispatch
import Stencil.Script.Native
import Stencil.Script.Operators
/-!
# Evaluating scripts

Expressions and statements are evaluated by recursion on their trees.  Calls leave the tree, so the
evaluator takes as a parameter how functions are called (`Call`); `Eval.enter` closes the circle by
recursion on the number of calls that may still be nested.
-/
namespace Stencil.Script

namespace Expr

/-- Whether an expression names a place: a name, or a member reached from one. -/
def isPlace : Expr → Bool
  | .name _ => true
  | .member receiver _ _ => receiver.isPlace
  | _ => false

/-- What messages call the value of an expression. -/
def describe : Expr → String
  | .name x => x
  | .member receiver (.string key) _ => receiver.describe ++ "." ++ key
  | .member receiver _ _ => receiver.describe ++ "[...]"
  | .string _ | .template _ => "string"
  | .array _ => "array"
  | .number _ => "number"
  | _ => "value"

end Expr

namespace Eval

/-- A key that may be used. -/
def allowedKey (key : String) : Eval String := do
  if Security.isDenied key then throw (.deniedName key)
  return key

/-- The key that a property expression denotes, given its value. -/
def propertyKey (property : Expr) (value : Eval Value) : Eval String := do
  match property with
  | .string key => allowedKey key
  | _ => allowedKey (← value).keyText

/-- The message of a thrown value: the text of its member `message`, or its own. -/
def thrownMessage (v : Value) : String :=
  match v with
  | .object _ members => ((members.lookup "message").map Value.text).getD v.text
  | v => v.text

/-- The items over which `for … of` runs. -/
def iterated (v : Value) : Except ScriptError (List Value) :=
  match v with
  | .array _ items => .ok items.toList
  | .string s => .ok (s.toList.map fun c => .string (String.ofList [c]))
  | v => .error (.wrongType s!"{v.describe} is not iterable")

/-- The keys over which `for … in` runs. -/
def iteratedKeys (v : Value) : List Value :=
  match v with
  | .object _ members => members.map fun (key, _) => .string key
  | .array _ items => (List.range items.size).map fun i => .string (toString i)
  | .string s => (List.range s.length).map fun i => .string (toString i)
  | _ => []

/-- Runs a step in a block of its own, or as a statement, which counts as work. -/
def framed (asBody : Bool) (x : Eval Flow) : Eval Flow := do
  if asBody then withFrame (do tick; x) else do tick; x

/-- Runs a loop body with a name bound to each item in turn. -/
def iterate (name : String) (body : Eval Flow) : List Value → Eval Flow
  | [] => return .normal
  | item :: items => do
    tick
    match afterBody (← withFrame (do declare name item; body)) with
    | some flow => return flow
    | none => iterate name body items

/-- Declares a name in the innermost block; only `var` may declare one again. -/
def declareAs (kind : DeclKind) (name : String) (value : Value) : Eval Unit := do
  if kind != .varDecl && (← isDeclared name) then
    throw (.malformed s!"Identifier '{name}' has already been declared" none)
  declare name value (kind == .constDecl)

/-- Notes the names that an exported statement binds. -/
def noteExport (inner : Stmt) : Eval Unit :=
  let names := match inner with
    | .function definition => definition.name.toList
    | .decl _ declarators => declarators.map (·.1)
    | _ => []
  modify fun m => { m with exported := m.exported ++ names }

/-- Keeps the value of a default export. -/
def setDefault (v : Value) : Eval Unit :=
  modify fun m => { m with defaultExport := some v }

/-- Keeps the value of an expression statement of the program itself. -/
def complete (v : Value) : Eval Unit :=
  modify fun m => if m.callers.isEmpty then { m with completion := v } else m

/-- Changes the array in a place by a method. -/
def changeInPlace (op : Method.InPlace) (args : List Value) (target : Eval Target) :
    Eval Value := do
  charge (args.length * slotBytes)
  let limits ← limits
  let target ← target
  let id ← fresh
  onPlace target fun v =>
    match Value.checkHeights limits.valueDepth (target.keys.length + 1) args with
    | .ok () => op.onSlot args id limits.arrayLength v
    | .error e => (.error e, .undefined)

/-- The method by which a call changes its receiver in place, if it does. -/
def inPlace? (receiver : Expr) (self : Value) (key : String) : Option Method.InPlace :=
  if self.isArray && receiver.isPlace then Method.InPlace.ofName? key else none

/-- Whether a method puts its answer into the place of its receiver. -/
def reorders (receiver : Expr) (self : Value) (key : String) : Bool :=
  self.isArray && (key == "sort" || key == "reverse") && receiver.isPlace

/-- Calls the method `key` of `self`, which was reached through the expression `receiver`, whose
place is `target`. -/
def callMethod (call : Call) (receiver : Expr) (target : Eval Target) (self : Value) (key : String)
    (args : List Value) (optional : Bool) : Eval Value := do
  if self.isNullish then throw (self.noMembers key)
  match self.members? >>= fun members => members.lookup key with
  | some f =>
    if f.isCallable then call f args
    else if optional && f.isNullish then return .undefined
    else throw (.notFunction key)
  | none =>
    match inPlace? receiver self key with
    | some op => changeInPlace op args target
    | none =>
      match ← Method.invoke call self key args with
      | some v =>
        if reorders receiver self key then assign (← target) v
        return v
      | none =>
        if optional then return .undefined
        else throw (.notFunction (receiver.describe ++ "." ++ key))

/-- Checks a call by name: the value must be callable, and the arguments of helpers are checked. -/
def checkNamedCall (name : String) (f : Value) (args : List Value) : Eval Unit := do
  if !f.isCallable then throw (.notFunction name)
  if !(← isLocal name) && (← isHelper name) then
    ofExcept (checkArguments (← limits).arguments args)

/-- The answer of `typeof` for a name, which need not be bound. -/
def typeOfName (name : String) : Eval Value := do
  return .string (((← lookup? name).map Value.typeOf).getD "undefined")

mutual

/-- The value of an expression. -/
def expr (call : Call) : Expr → Eval Value
  | .number x => return .number x
  | .string s => return .string s
  | .bool b => return .bool b
  | .null => return .null
  | .undefined => return .undefined
  | .template parts => do newString (← template call "" parts)
  | .name x => lookup x
  | .array items => do newList (← exprs call items)
  | .object entries => do newObject (← members call [] entries)
  | .member object property optional => do
    let v ← expr call object
    if optional && v.isNullish then return .undefined
    let key ← propertyKey property (expr call property)
    ofExcept (v.member key)
  | .call (.member object property memberOptional) args optional => do
    let self ← expr call object
    if memberOptional && self.isNullish then return .undefined
    let key ← propertyKey property (expr call property)
    let args ← exprs call args
    callMethod call object (target call object) self key args optional
  | .call (.name x) args optional => do
    let f ← lookup x
    if optional && f.isNullish then return .undefined
    let args ← exprs call args
    checkNamedCall x f args
    call f args
  | .call callee args optional => do
    let f ← expr call callee
    if optional && f.isNullish then return .undefined
    call f (← exprs call args)
  | .construct callee args => do
    let args ← exprs call args
    match callee with
    | .name x =>
      if ← isLocal x then throw (.wrongType "expression is not a constructor")
      else Native.construct call x args
    | _ => throw (.wrongType "expression is not a constructor")
  | .unary .typeOf (.name x) => typeOfName x
  | .unary op operand => do return unary op (← expr call operand)
  | .update op first place => do
    let old := (← expr call place).toNumber
    let new := stepped op old
    assign (← target call place) (.number new)
    return .number (if first then new else old)
  | .binary op left right => do
    let v ← expr call left
    let w ← expr call right
    binary op v w
  | .logical op left right => do
    let v ← expr call left
    if decides op v then return v else expr call right
  | .conditional test consequent alternative => do
    if (← expr call test).truthy then expr call consequent else expr call alternative
  | .assign op place value => do
    let v ← match op.binary? with
      | none => expr call value
      | some op => do
        let old ← expr call place
        let v ← expr call value
        binary op old v
    assign (← target call place) v
    return v
  | .function definition => newClosure definition
  | .await operand => expr call operand
  | .sequence items => last call .undefined items

/-- The values of expressions, from left to right. -/
def exprs (call : Call) : List Expr → Eval (List Value)
  | [] => return []
  | e :: rest => do
    let v ← expr call e
    let vs ← exprs call rest
    return v :: vs

/-- The value of the last expression. -/
def last (call : Call) (v : Value) : List Expr → Eval Value
  | [] => return v
  | e :: rest => do last call (← expr call e) rest

/-- The text of a template literal after `out`. -/
def template (call : Call) (out : String) : List TemplatePart → Eval String
  | [] => return out
  | .text s :: rest => template call (out ++ s) rest
  | .interpolation e :: rest => do template call (out ++ (← expr call e).text) rest

/-- The members of an object literal after those already made. -/
def members (call : Call) (done : List (String × Value)) :
    List (String × Expr) → Eval (List (String × Value))
  | [] => return done
  | (key, e) :: rest => do
    let key ← allowedKey key
    let v ← expr call e
    members call (Json.insertMember key v done) rest

/-- The place that an expression names. -/
def target (call : Call) : Expr → Eval Target
  | .name x => return ⟨x, []⟩
  | .member object property _ => do
    let t ← target call object
    let key ← propertyKey property (expr call property)
    return { t with keys := t.keys ++ [key] }
  | _ => throw (.wrongType "Invalid assignment target")

end

/-- Whether a loop goes on; without a test it does. -/
def condition (call : Call) : Option Expr → Eval Bool
  | some test => do return (← expr call test).truthy
  | none => return true

/-- Evaluates what a loop does after each turn. -/
def advance (call : Call) : Option Expr → Eval Unit
  | some update => discard (expr call update)
  | none => return

mutual

/-- Runs a statement; as the body of a loop or a branch it has a block of its own. -/
def stmt (call : Call) (asBody : Bool) : Stmt → Eval Flow
  | .expr e => framed asBody do
    complete (← expr call e)
    return .normal
  | .decl kind declarators => framed asBody do
    declarators.forM fun (name, init) => do
      let v ← match init with
        | some e => expr call e
        | none => pure .undefined
      declareAs kind name v
    return .normal
  | .function _ | .empty => framed asBody do return .normal
  | .return (some e) => framed asBody do return .returned (← expr call e)
  | .return none => framed asBody do return .returned .undefined
  | .branch test consequent alternative => framed asBody do
    if (← expr call test).truthy then stmt call true consequent
    else
      match alternative with
      | some s => stmt call true s
      | none => return .normal
  | .whileLoop test body => framed asBody do
    loop (condition call (some test)) do
      return afterBody (← stmt call true body)
  | .doLoop body test => framed asBody do
    loop (pure true) do
      match afterBody (← stmt call true body) with
      | some flow => return some flow
      | none => return if ← condition call (some test) then none else some .normal
  | .forLoop init test update body => framed asBody do
    withFrame do
      match init with
      | some s => discard (stmt call false s)
      | none => pure ()
      loop (pure true) do
        if ← condition call test then
          match afterBody (← stmt call true body) with
          | some flow => return some flow
          | none =>
            advance call update
            return none
        else return some .normal
  | .forOf name source body => framed asBody do
    let items ← ofExcept (iterated (← expr call source))
    iterate name (stmt call true body) items
  | .forIn name source body => framed asBody do
    let v ← expr call source
    iterate name (stmt call true body) (iteratedKeys v)
  | .block body => do
    unless asBody do tick
    withFrame do
      hoist body
      stmts call body
  | .break => framed asBody do return .broken
  | .continue => framed asBody do return .continued
  | .throw e => framed asBody do throw (.thrown (thrownMessage (← expr call e)))
  | .export inner => framed asBody do
    noteExport inner
    stmt call false inner
  | .exportDefault e => framed asBody do
    setDefault (← expr call e)
    return .normal

/-- Runs statements up to the first that does not end normally. -/
def stmts (call : Call) : List Stmt → Eval Flow
  | [] => return .normal
  | s :: rest => do
    match ← stmt call false s with
    | .normal => stmts call rest
    | flow => return flow

end

/-- Runs the statements of a function up to the first that returns; loop control without a loop has
no effect there. -/
def bodyStmts (call : Call) : List Stmt → Eval Value
  | [] => return .undefined
  | s :: rest => do
    match ← stmt call false s with
    | .returned v => return v
    | _ => bodyStmts call rest

/-- Runs the body of a function. -/
def functionBody (call : Call) : FunctionBody → Eval Value
  | .expr e => expr call e
  | .block body => do
    hoist body
    bodyStmts call body

/-- Calls a function, given how functions of scripts are entered and how built-in functions call
their arguments. -/
def callWith (enter inner : Call) : Call := fun f args => do
  tick
  match f with
  | .native f => f.run inner args
  | .closure .. => enter f args
  | f => throw (.notFunction f.describe)

/-- Calls a function that was given to a built-in function; if it is built in as well, it calls no
further one. -/
def callGiven (enter : Call) : Call :=
  callWith enter fun f _ => throw (.notFunction f.describe)

/-- Calls a function, given how functions of scripts are entered.  A built-in function may call a
function that it is given. -/
def callVia (enter : Call) : Call :=
  callWith enter (callGiven enter)

/-- Runs a function of a script while `depth` more calls may be nested. -/
def enter (depth : Nat) : Call := fun f args =>
  match depth, f with
  | depth + 1, .closure _ definition captured siblings =>
    withActivation (activationOf f definition captured siblings args)
      (functionBody (callVia (enter depth)) definition.body)
  | 0, _ => do throw (.callDepth (← limits).callDepth)
  | _, f => throw (.notFunction f.describe)

end Eval
end Stencil.Script
