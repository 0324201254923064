import Stencil.Helper.Compile
import Stencil.Script.Run
/-!
# Loading modules

A module is a source of several declarations.  Declarations with forbidden code are dropped before
anything runs; the others run once with nothing but the global names in scope, and the functions
that the module binds or exports become helpers, which keep the names of the module as theirs.
-/
namespace Stencil
open Stencil.Script

namespace HelperTable

/-- What a loaded module is made of: what it binds and exports, and the digest of its source. -/
structure Harvest where
  output : ModuleOutput
  digest : String

namespace Harvest

/-- Whether a name is bound at the top of the module. -/
def isTop (h : Harvest) (name : String) : Bool :=
  (h.output.bindings.lookup name).isSome || name == "module" || name == "exports"

/-- Captured locals without those that hide names at the top of the module. -/
def rescope (h : Harvest) (captured : List (String × Value)) : List (String × Value) :=
  captured.filter fun (name, _) => !h.isTop name

/-- What a name of the module stands for. -/
def sibling (h : Harvest) (v : Value) : ModuleBinding :=
  match v with
  | .closure _ f captured _ => .function f (h.rescope captured)
  | v => .constant v

/-- The names of the module. -/
def siblings (h : Harvest) : Siblings :=
  h.output.bindings.map fun (name, v) => (name, h.sibling v)

/-- The exports, and behind them the functions at the top that are not exported. -/
def candidates (h : Harvest) : List (String × Value) :=
  h.output.exports ++ h.output.bindings.filter fun (name, v) =>
    v.isCallable && (h.output.exports.lookup name).isNone

/-- The helper that a value becomes, if it is a function that promises a value; a function of a
script gets the identity `id`. -/
def helper? (h : Harvest) (siblings : Siblings) (id : Identity) (name : String) (v : Value) :
    Option Helper :=
  match v with
  | .closure _ f captured _ =>
    if f.promisesValue then
      some ⟨name, f.params.length, .closure id f (h.rescope captured) siblings, h.digest⟩
    else none
  | .native f => some ⟨name, f.arity, .native f, h.digest⟩
  | _ => none

/-- The helpers of the module; they get identities from `next` on. -/
def table (h : Harvest) (next : Identity) : HelperTable × Identity :=
  let siblings := h.siblings
  let found := h.candidates.zipIdx.filterMap fun ((name, v), i) =>
    (h.helper? siblings (next + i) name v).map fun helper => (name, helper)
  (found, next + h.candidates.length)

end Harvest

/-- Whether a part of a source is free of forbidden code. -/
def isPermitted (source : String) (part : Located) : Bool :=
  match part.text? source with
  | some text => (Security.violation? text).isNone
  | none => true

/-- The declarations of a module that are free of forbidden code. -/
def permitted (source : String) : Except ScriptError (List Stmt) := do
  let parts ← splitDeclarations source
  return (parts.filter (isPermitted source)).map (·.statement)

/-- The error of a module that fails while it runs. -/
def runError : ScriptError → HelperError
  | .timeout limit => .timeout limit
  | e => .script e

/-- The helpers that a module defines, and the first identity that is left unused. -/
def ofModule (bounds : Helper.Bounds) (limits : Limits) (host : Host) (next : Identity)
    (source : String) : Except HelperError HelperTable × Identity :=
  if bounds.maxBytes < source.utf8ByteSize then
    (.error (.tooLarge source.utf8ByteSize bounds.maxBytes), next)
  else
    match permitted source with
    | .error e => (.error (.script e), next)
    | .ok body =>
      let context : Context :=
        { limits, budget := { limit := bounds.timeout }, host := { host with fetch := none } }
      match runModule context next body with
      | (.ok output, next) =>
        let (table, next) := Harvest.table ⟨output, Digest.Sha256.hex source⟩ next
        (.ok table, next)
      | (.error e, next) => (.error (runError e), next)

end HelperTable
end Stencil
