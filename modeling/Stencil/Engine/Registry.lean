import Stencil.Engine.Helpers
import Stencil.Json.Basic
/-!
# Registries

A registry collects helpers from sources of every kind into one table.  A source that does not
compile or load adds nothing to the table; it is noted with the reason.
-/
namespace Stencil

/-- A source that was not accepted: where it came from, and why. -/
structure Rejection where
  origin : String
  error : HelperError
  deriving Repr, DecidableEq

/-- The helpers collected so far, and the engine that compiles them. -/
structure Registry where
  engine : Engine
  table : HelperTable := []
  rejections : List Rejection := []

namespace Registry

/-- Puts a helper into the table. -/
def put (r : Registry) (name : String) (h : Helper) : Registry :=
  { r with table := Json.insertMember name h r.table }

/-- Notes a source that was not accepted. -/
def reject (r : Registry) (origin : String) (error : HelperError) : Registry :=
  { r with rejections := r.rejections ++ [⟨origin, error⟩] }

/-- Adds a function of the host. -/
def addHost (r : Registry) (name : String) (arity : Nat) : Registry :=
  let id := r.engine.next
  { r with engine := { r.engine with next := id + 1 } }.put name (.ofHost id name arity)

/-- Adds the helper that a source defines under a name; answers whether there is one. -/
def addSource (r : Registry) (name source : String) : Bool × Registry :=
  let (result, engine) := r.engine.compile source
  let r := { r with engine }
  match result with
  | .ok h => (true, r.put name { h with name })
  | .error e => (false, r.reject name e)

/-- Adds the helpers of a module from some origin; answers their number. -/
def addModuleFrom (r : Registry) (origin source : String) : Nat × Registry :=
  let (result, engine) := r.engine.load source
  let r := { r with engine }
  match result with
  | .ok table => (table.length, table.foldl (fun r (name, h) => r.put name h) r)
  | .error e => (0, r.reject origin e)

/-- Adds the helpers of a module; answers their number. -/
def addModule (r : Registry) (source : String) : Nat × Registry :=
  r.addModuleFrom "<inline module>" source

/-- The name of a file without directories and without its last extension. -/
def fileStem (path : String) : String :=
  let name := (path.toList.reverse.takeWhile (· != '/')).reverse
  match name.reverse.span (· != '.') with
  | (_, '.' :: rest@(_ :: _)) => String.ofList rest.reverse
  | _ => String.ofList name

/-- Adds the helper in a file, whose source may be missing, under the name of the file. -/
def addHelperFile (r : Registry) (path : String) (source : Except String String) :
    Bool × Registry :=
  match source with
  | .ok source => r.addSource (fileStem path) source
  | .error why => (false, r.reject path (.unavailable why))

/-- Adds the helpers of a module in a file, whose source may be missing; answers their number. -/
def addModuleFile (r : Registry) (path : String) (source : Except String String) : Nat × Registry :=
  match source with
  | .ok source => r.addModuleFrom path source
  | .error why => (0, r.reject path (.unavailable why))

/-- Adds the helpers of the module behind an address; answers their number, or never answers if the
host does not. -/
def addUrl (r : Registry) (url : String) : Option (Nat × Registry) :=
  match r.engine.host.fetch with
  | none => some (0, r.reject url (.unavailable "fetching is not enabled"))
  | some fetch =>
    match fetch url with
    | .body source => some (r.addModuleFrom url source)
    | .failure why => some (0, r.reject url (.unavailable why))
    | .pending => none

/-- The registry after an address was asked for.  Asking is given up, without a trace, if there is no
answer. -/
def afterUrl (r : Registry) (url : String) : Registry :=
  (r.addUrl url).elim r Prod.snd

end Registry
end Stencil
