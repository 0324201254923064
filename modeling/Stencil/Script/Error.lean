import Stencil.Security.Violation
/-!
# Errors of scripts

Why a script cannot be parsed or fails while it runs, and the wording of each cause.
-/
namespace Stencil

/-- Why a script is rejected or fails. -/
inductive ScriptError where
  /-- The text is no script; `offset` is where, in bytes, if a place can be named. -/
  | malformed (message : String) (offset : Option Nat)
  /-- A name that nothing binds. -/
  | unbound (name : String)
  /-- A value of the wrong kind. -/
  | wrongType (message : String)
  /-- A value outside its bounds. -/
  | outOfRange (message : String)
  /-- Forbidden code or a forbidden member. -/
  | forbidden (violation : Security.Violation)
  /-- The time budget, in milliseconds, ran out. -/
  | timeout (limit : Nat)
  /-- The evaluation was cancelled. -/
  | cancelled (reason : String)
  /-- More calls nested than allowed. -/
  | callDepth (max : Nat)
  /-- A module that scripts may not require. -/
  | moduleNotAllowed (name : String)
  /-- A text that is not JSON. -/
  | invalidJson (message : String)
  /-- An error raised by the script itself or reported by a function of the host. -/
  | thrown (message : String)
  deriving Repr, DecidableEq

namespace ScriptError

/-- The name of the kind of error. -/
def name : ScriptError → String
  | .malformed .. => "SyntaxError"
  | .unbound _ => "ReferenceError"
  | .wrongType _ => "TypeError"
  | .outOfRange _ => "RangeError"
  | .forbidden _ => "SecurityViolation"
  | .timeout _ | .cancelled _ => "TimeoutError"
  | .callDepth _ => "NestingDepthExceeded"
  | .moduleNotAllowed _ => "ModuleNotAllowed"
  | .invalidJson _ => "JSONParseError"
  | .thrown _ => "Error"

/-- What went wrong, without the name of the kind. -/
def message : ScriptError → String
  | .malformed m _ | .wrongType m | .outOfRange m | .invalidJson m | .thrown m => m
  | .unbound name => name ++ " is not defined"
  | .forbidden v => v.message
  | .timeout limit => s!"execution exceeded {limit}ms"
  | .cancelled reason => reason
  | .callDepth max => s!"call depth exceeded {max}"
  | .moduleNotAllowed name => "module '" ++ name ++ "' is not available in the sandbox"

/-- The message behind the name of the kind; thrown errors stand alone. -/
def display : ScriptError → String
  | .thrown m => m
  | .cancelled reason => "Execution cancelled: " ++ reason
  | e => e.name ++ ": " ++ e.message

/-- The byte offset that the error points at, if it points at one. -/
def offset : ScriptError → Option Nat
  | .malformed _ offset => offset
  | .forbidden v => some v.offset
  | _ => none

/-- Whether the evaluation was ended from outside. -/
def isTimeout : ScriptError → Bool
  | .timeout _ | .cancelled _ => true
  | _ => false

/-- A syntax error at a place. -/
def syntaxAt (message : String) (offset : Nat) : ScriptError :=
  .malformed message (some offset)

/-- The same error with its offset moved, for a text that stands inside another. -/
def shift (base : Nat) : ScriptError → ScriptError
  | .malformed m offset => .malformed m (offset.map (base + ·))
  | e => e

/-- The use of a forbidden member. -/
def deniedName (name : String) : ScriptError :=
  .forbidden (.deniedName name)

/-- A call of what is not callable. -/
def notFunction (what : String) : ScriptError :=
  .wrongType (what ++ " is not a function")

end ScriptError
end Stencil
