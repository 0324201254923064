import Stencil.Engine.Basic
import Stencil.Security.Scan
import Stencil.Template.Placeholder
import Stencil.Template.Render
/-!
# Rendering templates

`Engine.render` renders a template and `Engine.evaluate` evaluates one expression.  Rendering fails
only for a template that is too large; failures within it are shown in place.
-/
namespace Stencil
open Stencil.Script

namespace Engine

/-- What one render offers to its expressions: the scope, and the first identity that no value in it
has. -/
structure RenderScope where
  scope : Scope
  next : Identity

/-- The scope of variables and helpers. -/
def renderScope (e : Engine) (vars : List (String × Json)) (helpers : HelperTable) : RenderScope :=
  let (bound, next) := Value.ofJsonMembers e.next [] vars
  let capabilities := if e.host.fetch.isSome then [Globals.member .fetch] else []
  let helpers := helpers.map fun (name, h) => (name, h.function)
  ⟨{ helpers, vars := bound, capabilities }, next⟩

/-- Finds the parsed form of an expression in the cache, or parses it and keeps it there. -/
def parsed (e : Engine) (source : String) : Except ScriptError (List Stmt) × Engine :=
  let (hit, cache) := e.caches.expressions.get source
  match hit with
  | some body => (.ok body, { e with caches := { e.caches with expressions := cache } })
  | none =>
    match parseProgram source with
    | .ok body =>
      let cache := cache.insert source body
      (.ok body, { e with caches := { e.caches with expressions := cache } })
    | .error err => (.error err, { e with caches := { e.caches with expressions := cache } })

/-- Runs a parsed expression; without any time it fails at once. -/
def execute (e : Engine) (s : RenderScope) (timeout : Nat) (body : List Stmt) :
    Except ScriptError Value :=
  if timeout = 0 then .error (.timeout 0)
  else (runProgram (e.context s.scope timeout) s.next body).1

/-- Evaluates an expression without the blanks around it. -/
def evaluateIn (e : Engine) (s : RenderScope) (settings : RenderSettings) (source : String) :
    Except Diagnosis Value × Engine :=
  let diagnosed := fun err : ScriptError => Diagnosis.ofScript err (some source)
  match if settings.strict then Security.violation? source else none with
  | some v => (.error (diagnosed (.forbidden v)), e)
  | none =>
    match e.parsed source with
    | (.ok body, e) => ((e.execute s settings.timeout body).mapError diagnosed, e)
    | (.error err, e) => (.error (diagnosed err), e)

/-- The text that stands for an expression in the output. -/
def expressionText (s : RenderScope) (settings : RenderSettings) (source : String) (e : Engine) :
    String × Engine :=
  let (r, e) := e.evaluateIn s settings source
  let text := r.bind fun v => v.output.mapError fun err => .ofScript err (some source)
  match text with
  | .ok text => (text, e)
  | .error d => (d.marker settings.debug, e)

/-- A template that cannot be rendered at all. -/
inductive RenderError where
  | tooLarge (size max : Nat)
  deriving Repr, DecidableEq

/-- What is wrong with the template. -/
def RenderError.message : RenderError → String
  | .tooLarge size max => s!"invalid template: template is {size} bytes, limit is {max}"

/-- Renders a template with variables and helpers. -/
def render (e : Engine) (template : String) (vars : List (String × Json)) (helpers : HelperTable)
    (options : RenderOptions) : Except RenderError String × Engine :=
  let max := e.config.render.maxTemplateBytes
  let size := template.utf8ByteSize
  if max < size then (.error (.tooLarge size max), e)
  else
    let e := if options.clearCache then e.clearCaches else e
    let settings := RenderSettings.resolve e.config options size
    let text := Template.substitute vars settings.debug template
    let renderer : Template.Renderer Engine :=
      { maxDepth := settings.maxDepth
        maxIterations := settings.maxIterations
        debug := settings.debug
        evaluate := expressionText (e.renderScope vars helpers) settings }
    let (out, e) := renderer.render e text
    (.ok out, e)

/-- Evaluates one expression with variables and helpers. -/
def evaluate (e : Engine) (source : String) (vars : List (String × Json)) (helpers : HelperTable) :
    Except Diagnosis Value × Engine :=
  let settings := RenderSettings.resolve e.config {} source.utf8ByteSize
  e.evaluateIn (e.renderScope vars helpers) settings
    (String.ofList (Number.trimBlanks source.toList))

end Engine
end Stencil
