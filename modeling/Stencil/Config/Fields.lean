import Stencil.Config.Basic
import Stencil.Config.Codec
/-!
# The fields of configurations

The keys under which the settings of an engine and of a render are written, with the kind of each.
`Config.ofDocument` and `RenderOptions.ofDocument` read them, `Config.toDocument` writes them.
-/
namespace Stencil

namespace Config

/-- The fields of the limits of rendering. -/
def Render.fields : List (Field Render) :=
  [.of "max-render-depth" .natural (·.maxDepth) fun v s => { s with maxDepth := v },
    .of "max-iterations" (.optional .natural) (·.maxIterations) fun v s =>
      { s with maxIterations := v },
    .of "debug-mode" .bool (·.debug) fun v s => { s with debug := v },
    .of "max-template-bytes" .natural (·.maxTemplateBytes) fun v s =>
      { s with maxTemplateBytes := v },
    .of "strict-expressions" .bool (·.strict) fun v s => { s with strict := v }]

/-- The fields of the limits of scripts. -/
def Sandbox.fields : List (Field Sandbox) :=
  [.of "expression-timeout-ms" .natural (·.expressionTimeout) fun v s =>
      { s with expressionTimeout := v },
    .of "compile-timeout-ms" .natural (·.compileTimeout) fun v s => { s with compileTimeout := v },
    .of "max-call-depth" .natural (·.maxCallDepth) fun v s => { s with maxCallDepth := v },
    .of "max-value-depth" .natural (·.maxValueDepth) fun v s => { s with maxValueDepth := v },
    .of "max-allocation-bytes" .natural (·.maxAllocation) fun v s => { s with maxAllocation := v }]

/-- The fields of the capacities of the caches. -/
def Caches.fields : List (Field Caches) :=
  [.of "expression-capacity" .natural (·.expressions) fun v s => { s with expressions := v },
    .of "helper-capacity" .natural (·.helpers) fun v s => { s with helpers := v }]

/-- The fields of the sizes of helper sources. -/
def Helpers.fields : List (Field Helpers) :=
  [.of "max-helper-bytes" .natural (·.maxHelperBytes) fun v s => { s with maxHelperBytes := v },
    .of "max-module-bytes" .natural (·.maxModuleBytes) fun v s => { s with maxModuleBytes := v }]

/-- The fields of fetching. -/
def Fetch.fields : List (Field Fetch) :=
  [.of "enabled" .bool (·.enabled) fun v s => { s with enabled := v },
    .of "allowed-hosts" (.list .text) (·.allowedHosts) fun v s => { s with allowedHosts := v },
    .of "timeout-ms" .natural (·.timeout) fun v s => { s with timeout := v },
    .of "max-response-bytes" .natural (·.maxResponseBytes) fun v s =>
      { s with maxResponseBytes := v }]

/-- The fields of a configuration. -/
def fields : List (Field Config) :=
  [.nested "render" Render.fields {} (·.render) fun v c => { c with render := v },
    .nested "sandbox" Sandbox.fields {} (·.sandbox) fun v c => { c with sandbox := v },
    .nested "cache" Caches.fields {} (·.cache) fun v c => { c with cache := v },
    .nested "helpers" Helpers.fields {} (·.helpers) fun v c => { c with helpers := v },
    .nested "fetch" Fetch.fields {} (·.fetch) fun v c => { c with fetch := v },
    .of "log-level" .text (·.logLevel) fun v c => { c with logLevel := v }]

/-- The configuration that a document describes. -/
def ofDocument (d : Document) : Except ReadError Config :=
  readSection fields {} d

/-- The document that describes a configuration in full. -/
def toDocument (c : Config) : Document :=
  writeSection fields c

end Config

namespace RenderOptions
open Config

/-- The fields of the wishes for one render. -/
def fields : List (Config.Field RenderOptions) :=
  [.of "max-render-depth" (.optional .natural) (·.maxDepth) fun v o => { o with maxDepth := v },
    .of "max-iterations" (.optional .natural) (·.maxIterations) fun v o =>
      { o with maxIterations := v },
    .of "debug-mode" (.optional .bool) (·.debug) fun v o => { o with debug := v },
    .of "clear-cache" .bool (·.clearCache) fun v o => { o with clearCache := v },
    .of "timeout-ms" (.optional .natural) (·.timeout) fun v o => { o with timeout := v }]

/-- The wishes that a document describes. -/
def ofDocument (d : Document) : Except ReadError RenderOptions :=
  readSection fields {} d

end RenderOptions
end Stencil
