/-!
# Forbidden code

What the security rules forbid: the categories of forbidden code, the record of one violation, and
the member names that no script may read or write.
-/
namespace Stencil.Security

/-- Why a piece of code is forbidden. -/
inductive Category where
  /-- Process, global object and environment. -/
  | globalAccess
  /-- Traversal of constructors and prototypes. -/
  | prototypeAccess
  /-- Code made from text, and timers. -/
  | dynamicCode
  /-- Modules for files, processes and networks. -/
  | forbiddenModule
  /-- Escape sequences and character codes that hide a name. -/
  | obfuscation
  /-- A forbidden member reached while a script runs. -/
  | deniedProperty
  deriving Repr, DecidableEq

/-- What a category is called in messages. -/
def Category.description : Category → String
  | .globalAccess => "global object access"
  | .prototypeAccess => "prototype chain access"
  | .dynamicCode => "dynamic code generation"
  | .forbiddenModule => "forbidden module"
  | .obfuscation => "obfuscated code"
  | .deniedProperty => "denied property access"

/-- The identifier of a category in reports. -/
def Category.identifier : Category → String
  | .globalAccess => "global-access"
  | .prototypeAccess => "prototype-access"
  | .dynamicCode => "dynamic-code"
  | .forbiddenModule => "forbidden-module"
  | .obfuscation => "obfuscation"
  | .deniedProperty => "denied-property"

/-- A piece of forbidden code: its category, its text, and the byte offset where it starts. -/
structure Violation where
  category : Category
  snippet : String
  offset : Nat
  deriving Repr, DecidableEq

/-- The text of a violation. -/
def Violation.message (v : Violation) : String :=
  v.category.description ++ " ('" ++ v.snippet ++ "')"

/-- The member names that no script may read, write or create. -/
def deniedNames : List String :=
  ["__proto__", "constructor", "prototype", "__defineGetter__", "__defineSetter__",
    "__lookupGetter__", "__lookupSetter__"]

/-- Whether a member name is forbidden. -/
def isDenied (name : String) : Bool :=
  deniedNames.contains name

/-- Every forbidden name is written with the letter `t`. -/
theorem isDenied_eq_false {name : String} (h : 't' ∉ name.toList) : isDenied name = false := by
  refine Bool.eq_false_iff.mpr fun hdenied => ?_
  have hall : ∀ name ∈ deniedNames, 't' ∈ name.toList := by decide
  exact h (hall name (List.contains_iff_mem.mp hdenied))

/-- The violation of reaching a forbidden member at run time. -/
def Violation.deniedName (name : String) : Violation :=
  ⟨.deniedProperty, name, 0⟩

end Stencil.Security
