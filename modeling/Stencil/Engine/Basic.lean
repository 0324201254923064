import Stencil.Cache.Lru
import Stencil.Config.Basic
import Stencil.Helper.Basic
import Stencil.Script.Parse
import Stencil.Script.Run
/-!
# Engines

An engine is a configuration with the caches that it fills, what the host provides, and the supply
of identities for the values that the caches keep.
-/
namespace Stencil
open Stencil.Script

/-- The caches of an engine: parsed expressions by their source, and loaded modules and compiled
helpers by the digest of theirs. -/
structure Caches where
  expressions : Cache.Lru String (List Stmt)
  modules : Cache.Lru String HelperTable
  helpers : Cache.Lru String Helper

namespace Caches

/-- Empty caches. -/
def ofConfig (c : Config.Caches) : Caches :=
  ⟨{ capacity := c.expressions }, { capacity := c.helpers }, { capacity := c.helpers }⟩

/-- The caches without entries. -/
def clear (c : Caches) : Caches :=
  ⟨c.expressions.clear, c.modules.clear, c.helpers.clear⟩

end Caches

/-- An engine. -/
structure Engine where
  config : Config
  host : Host
  caches : Caches
  /-- The first identity that no cached value has. -/
  next : Identity := Globals.firstIdentity

namespace Engine

/-- An engine with empty caches. -/
def ofConfig (config : Config) (host : Host := {}) : Engine :=
  { config, host, caches := .ofConfig config.cache }

/-- The engine with empty caches. -/
def clearCaches (e : Engine) : Engine :=
  { e with caches := e.caches.clear }

/-- An evaluation in a scope within a time in milliseconds. -/
def context (e : Engine) (scope : Scope) (timeout : Nat) : Context :=
  { scope, limits := e.config.limits, budget := { limit := timeout }, host := e.host }

end Engine
end Stencil
