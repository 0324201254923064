import Stencil.Engine.Basic
import Stencil.Helper.Module
/-!
# Compiling and loading through the caches

What was compiled or loaded before is taken from the caches by the digest of its source.
-/
namespace Stencil
open Stencil.Script

namespace Engine

/-- The bounds on helpers. -/
def helperBounds (e : Engine) : Helper.Bounds :=
  ⟨e.config.helpers.maxHelperBytes, e.config.sandbox.compileTimeout⟩

/-- The bounds on modules. -/
def moduleBounds (e : Engine) : Helper.Bounds :=
  ⟨e.config.helpers.maxModuleBytes, e.config.sandbox.compileTimeout⟩

/-- The helper that a source defines. -/
def compile (e : Engine) (source : String) : Except HelperError Helper × Engine :=
  let digest := Digest.Sha256.hex source
  let (hit, cache) := e.caches.helpers.get digest
  match hit with
  | some helper => (.ok helper, { e with caches := { e.caches with helpers := cache } })
  | none =>
    match Helper.ofSource e.helperBounds e.next source with
    | .ok helper =>
      let caches := { e.caches with helpers := cache.insert digest helper }
      (.ok helper, { e with caches, next := e.next + 1 })
    | .error err => (.error err, { e with caches := { e.caches with helpers := cache } })

/-- The helpers that a module defines. -/
def load (e : Engine) (source : String) : Except HelperError HelperTable × Engine :=
  let digest := Digest.Sha256.hex source
  let (hit, cache) := e.caches.modules.get digest
  match hit with
  | some table => (.ok table, { e with caches := { e.caches with modules := cache } })
  | none =>
    match HelperTable.ofModule e.moduleBounds e.config.limits e.host e.next source with
    | (.ok table, next) =>
      let caches := { e.caches with modules := cache.insert digest table }
      (.ok table, { e with caches, next })
    | (.error err, next) =>
      (.error err, { e with caches := { e.caches with modules := cache }, next })

end Engine
end Stencil
