import Stencil.Diagnosis.Basic
import Stencil.Digest.Sha256
import Stencil.Script.Value.Basic
/-!
# Helpers

Functions that expressions can call by name, and why a source does not become one.
-/
namespace Stencil

/-- A function that expressions can call. -/
structure Helper where
  name : String
  arity : Nat
  /-- The function: one of a script, or one of the host or the language. -/
  function : Script.Value
  /-- The digest of the source that the helper was made from. -/
  digest : String

/-- Helpers under the names by which they are called. -/
abbrev HelperTable := List (String × Helper)

namespace Helper

/-- Whether the helper is not written in the script language. -/
def isNative (h : Helper) : Bool :=
  match h.function with
  | .native _ => true
  | _ => false

/-- A helper of the host. -/
def ofHost (id : Script.Identity) (name : String) (arity : Nat) : Helper :=
  ⟨name, arity, .native (.host id name arity), Digest.Sha256.hex ("native:" ++ name)⟩

end Helper

/-- Why a source does not become a helper or a table of helpers. -/
inductive HelperError where
  | tooLarge (size max : Nat)
  | forbidden (violation : Security.Violation)
  | script (e : ScriptError)
  | noReturn (name : String)
  | notFunction (why : String)
  /-- Compiling took longer than a number of milliseconds. -/
  | timeout (limit : Nat)
  /-- The source could not be had. -/
  | unavailable (why : String)
  deriving Repr, DecidableEq

namespace HelperError

/-- The kind of error. -/
def kindName : HelperError → String
  | .forbidden _ => "SecurityViolation"
  | .script e => e.name
  | .timeout _ => "TimeoutError"
  | .tooLarge .. | .noReturn _ | .notFunction _ => "HelperInvalid"
  | .unavailable _ => "UnknownError"

/-- What went wrong. -/
def message : HelperError → String
  | .tooLarge size max => s!"helper source is {size} bytes, limit is {max}"
  | .forbidden v => "helper rejected: " ++ v.message
  | .script e => "helper failed to compile: " ++ e.display
  | .noReturn name => "helper '" ++ name ++ "' does not return a value"
  | .notFunction why => "helper source is not a function definition: " ++ why
  | .timeout limit => s!"compilation exceeded {limit}ms"
  | .unavailable why => "failed to acquire helper source: " ++ why

/-- The diagnosis. -/
def diagnosis : HelperError → Diagnosis
  | .script e => .ofScript e none
  | e => { kind := .ofName e.kindName, message := e.message }

end HelperError
end Stencil
