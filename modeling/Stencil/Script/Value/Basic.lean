import Stencil.Calendar.Basic
import Stencil.Json.Basic
import Stencil.Script.Builtin
import Stencil.Script.Tree
/-!
# Values of scripts

What scripts compute with.  Containers and functions carry an identity: two of them are the same to
`===` exactly if their identities agree.  A container never changes; an update makes a new container
with an identity of its own, so a value that somebody else holds stays as it was.
-/
namespace Stencil.Script

/-- What tells containers and functions apart. -/
abbrev Identity := Nat

/-- A function that is not written in the script language. -/
inductive Native where
  /-- A function of the language itself. -/
  | builtin (b : Builtin)
  /-- A function that the host provides under a name. -/
  | host (id : Identity) (name : String) (arity : Nat)
  deriving Repr, DecidableEq

namespace Native

/-- The name that the function shows. -/
def name : Native → String
  | .builtin b => b.name
  | .host _ name _ => name

/-- The number of arguments that the function announces. -/
def arity : Native → Nat
  | .builtin b => b.arity
  | .host _ _ arity => arity

end Native

mutual

/-- A value. -/
inductive Value where
  | undefined
  | null
  | bool (b : Bool)
  | number (x : Float)
  | string (s : String)
  | array (id : Identity) (items : Array Value)
  /-- Members in the order in which their keys first appeared. -/
  | object (id : Identity) (members : List (String × Value))
  | date (instant : Calendar.Instant)
  /-- A function of a script with the locals that it was created among and the names of the module
  that it belongs to. -/
  | closure (id : Identity) (definition : FunctionDef) (captured : List (String × Value))
      (siblings : List (String × ModuleBinding))
  | native (f : Native)

/-- What a name at the top of a module stands for.  Functions are kept as definitions and become
values when they are looked up, so that the functions of a module can call each other. -/
inductive ModuleBinding where
  | constant (value : Value)
  | function (definition : FunctionDef) (captured : List (String × Value))

end

instance : Inhabited Value := ⟨.undefined⟩

/-- The names of a module. -/
abbrev Siblings := List (String × ModuleBinding)

namespace Value

/-- Whether the value is `undefined` or `null`. -/
def isNullish : Value → Bool
  | .undefined | .null => true
  | _ => false

/-- Whether the value is `undefined`. -/
def isUndefined : Value → Bool
  | .undefined => true
  | _ => false

/-- Whether the value can be called. -/
def isCallable : Value → Bool
  | .closure .. | .native _ => true
  | _ => false

/-- Whether the value is an array. -/
def isArray : Value → Bool
  | .array .. => true
  | _ => false

/-- Whether a condition takes the value for true. -/
def truthy : Value → Bool
  | .undefined | .null => false
  | .bool b => b
  | .number x => x != 0 && !x.isNaN
  | .string s => !s.isEmpty
  | _ => true

/-- The answer of `typeof`. -/
def typeOf : Value → String
  | .undefined => "undefined"
  | .null | .array .. | .object .. | .date _ => "object"
  | .bool _ => "boolean"
  | .number _ => "number"
  | .string _ => "string"
  | .closure .. | .native _ => "function"

/-- The name of the kind of value in messages. -/
def describe : Value → String
  | .array .. => "array"
  | .date _ => "date"
  | .null => "null"
  | v => v.typeOf

/-- What tells the value apart if it is an array, an object or a function of a script. -/
def identity? : Value → Option Identity
  | .array id _ | .object id _ | .closure id .. => some id
  | _ => none

/-- The items of an array. -/
def items? : Value → Option (Array Value)
  | .array _ items => some items
  | _ => none

/-- The members of an object. -/
def members? : Value → Option (List (String × Value))
  | .object _ members => some members
  | _ => none

/-- The value of an argument that may be missing. -/
def argument (args : List Value) (i : Nat) : Value :=
  args.getD i .undefined

/-- The name of a function of a script as texts show it. -/
def closureName (definition : FunctionDef) : String :=
  definition.name.getD "anonymous"

end Value
end Stencil.Script
