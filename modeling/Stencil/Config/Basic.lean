import Stencil.Script.Limits
import Stencil.Script.Value.Text
/-!
# Configurations

The settings of an engine with their defaults, and which of them make no sense (`Config.fault?`).
-/
namespace Stencil

namespace Config

/-- Limits of rendering. -/
structure Render where
  /-- Expression blocks that may be nested. -/
  maxDepth : Nat := 10
  /-- Turns of one render; if it is not set, the length of the template decides. -/
  maxIterations : Option Nat := none
  /-- Whether errors come with advice and examples. -/
  debug : Bool := false
  /-- Bytes of a template. -/
  maxTemplateBytes : Nat := 1024 * 1024
  /-- Whether expressions are scanned for forbidden code. -/
  strict : Bool := false
  deriving Repr, DecidableEq

/-- Limits of scripts; times are in milliseconds. -/
structure Sandbox where
  expressionTimeout : Nat := 30000
  compileTimeout : Nat := 1000
  maxCallDepth : Nat := 64
  maxValueDepth : Nat := 256
  maxAllocation : Nat := 64 * 1024 * 1024
  deriving Repr, DecidableEq

/-- Capacities of the caches. -/
structure Caches where
  expressions : Nat := 500
  /-- Compiled helpers, and as many loaded modules. -/
  helpers : Nat := 100
  deriving Repr, DecidableEq

/-- Sizes of helper sources in bytes. -/
structure Helpers where
  maxHelperBytes : Nat := 10000
  maxModuleBytes : Nat := 100000
  deriving Repr, DecidableEq

/-- How scripts may fetch texts from addresses. -/
structure Fetch where
  enabled : Bool := false
  /-- The hosts that may be asked, with those below them. -/
  allowedHosts : List String := []
  /-- Time for one answer, in milliseconds. -/
  timeout : Nat := 10000
  maxResponseBytes : Nat := 1000000
  deriving Repr, DecidableEq

end Config

/-- The settings of an engine. -/
structure Config where
  render : Config.Render := {}
  sandbox : Config.Sandbox := {}
  cache : Config.Caches := {}
  helpers : Config.Helpers := {}
  fetch : Config.Fetch := {}
  logLevel : String := "info"
  deriving Repr, DecidableEq

namespace Config

/-- Settings under which nothing could be rendered: the first fault, if there is one. -/
def fault? (c : Config) : Option String :=
  if c.render.maxDepth = 0 then some "render.max-render-depth must be at least 1"
  else if c.render.maxTemplateBytes = 0 then some "render.max-template-bytes must be at least 1"
  else if c.sandbox.expressionTimeout = 0 ∨ c.sandbox.compileTimeout = 0 then
    some "sandbox timeouts must be greater than zero"
  else if c.sandbox.maxCallDepth = 0 then some "sandbox.max-call-depth must be at least 1"
  else if c.sandbox.maxValueDepth = 0 ∨ Script.Value.maxNesting < c.sandbox.maxValueDepth then
    some s!"sandbox.max-value-depth must be between 1 and {Script.Value.maxNesting}"
  else if c.sandbox.maxAllocation = 0 then
    some "sandbox.max-allocation-bytes must be greater than zero"
  else if c.cache.expressions = 0 ∨ c.cache.helpers = 0 then
    some "cache capacities must be at least 1"
  else if c.fetch.enabled ∧ c.fetch.timeout = 0 then
    some "fetch.timeout-ms must be greater than zero"
  else none

/-- The ceilings of scripts. -/
def limits (c : Config) : Script.Limits :=
  { callDepth := c.sandbox.maxCallDepth
    valueDepth := c.sandbox.maxValueDepth
    allocation := c.sandbox.maxAllocation }

end Config

/-- Wishes for one render; what is not set follows the configuration. -/
structure RenderOptions where
  maxDepth : Option Nat := none
  maxIterations : Option Nat := none
  debug : Option Bool := none
  /-- Whether the caches are emptied first. -/
  clearCache : Bool := false
  /-- Time for one expression, in milliseconds. -/
  timeout : Option Nat := none
  deriving Repr, DecidableEq

/-- The limits of one render. -/
structure RenderSettings where
  maxDepth : Nat
  maxIterations : Nat
  debug : Bool
  strict : Bool
  timeout : Nat
  deriving Repr, DecidableEq

namespace RenderSettings

/-- The turns for a template of a length in bytes: five for each byte, within bounds. -/
def defaultIterations (length : Nat) : Nat :=
  max 1000 (min 10000 (5 * length))

/-- The limits of a render of a template of a length in bytes. -/
def resolve (c : Config) (o : RenderOptions) (length : Nat) : RenderSettings :=
  { maxDepth := o.maxDepth.getD c.render.maxDepth
    maxIterations := (o.maxIterations <|> c.render.maxIterations).getD (defaultIterations length)
    debug := o.debug.getD c.render.debug
    strict := c.render.strict
    timeout := o.timeout.getD c.sandbox.expressionTimeout }

end RenderSettings
end Stencil
