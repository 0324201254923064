/-!
# Kinds of errors

The kinds into which every failure is sorted, with their names and the advice that goes with them.
-/
namespace Stencil.Diagnosis

/-- A kind of error. -/
inductive Kind where
  | malformed
  | unbound
  | wrongType
  | forbidden
  | timeout
  | nesting
  | iterations
  | moduleNotAllowed
  | invalidHelper
  | invalidJson
  | unknown
  deriving Repr, DecidableEq

namespace Kind

/-- All kinds. -/
def all : List Kind :=
  [.malformed, .unbound, .wrongType, .forbidden, .timeout, .nesting, .iterations, .moduleNotAllowed,
    .invalidHelper, .invalidJson, .unknown]

/-- The name of a kind. -/
def name : Kind → String
  | .malformed => "SyntaxError"
  | .unbound => "ReferenceError"
  | .wrongType => "TypeError"
  | .forbidden => "SecurityViolation"
  | .timeout => "TimeoutError"
  | .nesting => "NestingDepthExceeded"
  | .iterations => "IterationLimitExceeded"
  | .moduleNotAllowed => "ModuleNotAllowed"
  | .invalidHelper => "HelperInvalid"
  | .invalidJson => "JSONParseError"
  | .unknown => "UnknownError"

/-- The kind of a name; a name of no kind is `unknown`. -/
def ofName (name : String) : Kind :=
  (all.find? fun k => k.name == name).getD .unknown

theorem ofName_name (k : Kind) : ofName k.name = k := by
  cases k <;> decide +kernel

/-- What to do about an error of the kind. -/
def advice : Kind → String
  | .malformed => "Check for missing brackets, quotes or operators in the expression."
  | .unbound =>
    "The name is not a variable, helper or built-in. Check the spelling or pass it in vars."
  | .wrongType =>
    "A value was used as the wrong type. Guard against null and undefined before calling methods."
  | .forbidden =>
    "The expression reached a blocked object or property. Use only vars, helpers and built-ins."
  | .timeout => "The expression ran too long. Avoid unbounded loops and slow network calls."
  | .nesting =>
    "Too many nested blocks or recursive calls. Flatten the template or add a base case."
  | .iterations =>
    "The template has more expression blocks than one render may process. Split it up."
  | .moduleNotAllowed => "Only the math, json, date and strings modules can be required."
  | .invalidHelper => "A helper must be a single function that returns a value."
  | .invalidJson => "The JSON text is malformed. Check quoting and trailing commas."
  | .unknown => "An unexpected error occurred while evaluating the expression."

/-- Code as it stands in a template. -/
def block (code : String) : String :=
  "\x7b\x7b " ++ code ++ " \x7d\x7d"

/-- An example of such an error and of how it is avoided. -/
def example? : Kind → Option (String × String)
  | .malformed => some (block "1 +", block "1 + 2")
  | .unbound => some (block "usrName", block "userName")
  | .wrongType => some (block "missing.toUpperCase()", block "(missing ?? '').toUpperCase()")
  | .forbidden => some (block "obj.constructor", block "Object.keys(obj)")
  | .timeout => some (block "while (true) \x7b\x7d", block "items.slice(0, 10).join(', ')")
  | .nesting => some ("function f(n) \x7b return f(n + 1) \x7d",
      "function f(n) \x7b return n > 5 ? n : f(n + 1) \x7d")
  | .iterations => none
  | .moduleNotAllowed => some (block "require('fs')", block "require('math').sqrt(16)")
  | .invalidHelper => some ("function double(x) \x7b x * 2 \x7d",
      "function double(x) \x7b return x * 2 \x7d")
  | .invalidJson =>
    some (block "JSON.parse(\"\x7ba: 1\x7d\")", block "JSON.parse('\x7b\"a\": 1\x7d')")
  | .unknown => none

end Kind
end Stencil.Diagnosis
