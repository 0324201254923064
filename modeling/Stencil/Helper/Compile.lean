import Stencil.Helper.Basic
import Stencil.Script.Parse
import Stencil.Security.Scan
/-!
# Compiling helpers

A helper is one function definition, in one of several forms (`definition`).  Compiling runs
nothing: the source is measured, scanned and parsed, and the function has to promise a value.
-/
namespace Stencil
open Stencil.Script

namespace Helper

/-- Bounds on a helper source: its size in bytes and the time to compile it in milliseconds. -/
structure Bounds where
  maxBytes : Nat
  timeout : Nat

/-- The name of a function: the one that it is bound to, or its own. -/
def nameOf (bound : Option String) (definition : FunctionDef) : String :=
  (bound <|> definition.name).getD "anonymous"

/-- The function that a statement defines and its name. -/
def definition : Stmt → Except HelperError (String × FunctionDef)
  | .function f | .exportDefault (.function f) | .expr (.function f) => .ok (nameOf none f, f)
  | .export inner => definition inner
  | .decl _ [(name, some (.function f))] => .ok (nameOf (some name) f, f)
  | .decl .. => .error (.notFunction "declaration does not bind a function")
  | .expr (.assign _ (.name name) (.function f)) => .ok (nameOf (some name) f, f)
  | .expr (.assign ..) => .error (.notFunction "assignment does not bind a function")
  | _ => .error (.notFunction "source is not a function definition")

/-- Whether a statement does nothing. -/
def isEmptyStmt : Stmt → Bool
  | .empty => true
  | _ => false

/-- The one function that a source defines and its name. -/
def singleDefinition (body : List Stmt) : Except HelperError (String × FunctionDef) :=
  match body.filter (!isEmptyStmt ·) with
  | [s] => definition s
  | [] => .error (.notFunction "empty source")
  | ss => .error (.notFunction s!"expected one definition, found {ss.length} statements")

/-- The helper that a source defines; its function gets the identity `id`. -/
def ofSource (bounds : Bounds) (id : Identity) (source : String) : Except HelperError Helper := do
  if bounds.maxBytes < source.utf8ByteSize then
    throw (.tooLarge source.utf8ByteSize bounds.maxBytes)
  (Security.scan source).mapError .forbidden
  let body ← (parseDeclarations source).mapError .script
  let (name, f) ← singleDefinition body
  if bounds.timeout = 0 then throw (.timeout 0)
  if !f.promisesValue then throw (.noReturn name)
  return ⟨name, f.params.length, .closure id f [] [], Digest.Sha256.hex source⟩

end Helper
end Stencil
