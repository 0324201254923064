import Stencil.Diagnosis.Excerpt
import Stencil.Diagnosis.Message
import Stencil.Script.Error
/-!
# Diagnoses

What a user is told about a failure: its kind, the message, advice, and the place in the source.  A
rendered template shows a diagnosis as a marker in the place of the block that failed.
-/
namespace Stencil

/-- A failure as it is shown to users. -/
structure Diagnosis where
  kind : Diagnosis.Kind
  message : String
  suggestion : String := kind.advice
  /-- The source around the failure, if a place is known. -/
  near : Option Excerpt := none
  deriving Repr, DecidableEq

namespace Diagnosis

/-- A block without an end. -/
def unclosed : Diagnosis :=
  { kind := .malformed, message := "Unclosed expression: missing '\x7d\x7d'" }

/-- Blocks nested deeper than allowed. -/
def tooDeep (max : Nat) : Diagnosis :=
  { kind := .nesting, message := s!"Maximum render depth of {max} exceeded" }

/-- More turns than allowed. -/
def tooMany (max : Nat) : Diagnosis :=
  { kind := .iterations, message := s!"Iteration limit of {max} exceeded" }

/-- The diagnosis with the place at a byte offset of a source. -/
def pointing (d : Diagnosis) (source : String) (offset : Nat) : Diagnosis :=
  { d with near := Excerpt.at? source offset }

/-- The kind and the message. -/
def display (d : Diagnosis) : String :=
  d.kind.name ++ ": " ++ d.message

/-- The short marker: the message alone. -/
def terseMarker (d : Diagnosis) : String :=
  "\x7b\x7bError: " ++ d.message ++ "\x7d\x7d"

/-- The lines that show the place of the failure. -/
def nearText (e : Excerpt) : String :=
  let pad := String.ofList (List.replicate ("Near: ".length + e.column) ' ')
  "\nNear: " ++ e.snippet ++ "\n" ++ pad ++ "^"

/-- The lines that show an example. -/
def exampleText : String × String → String
  | (bad, good) => "\nExample:\n  ✗ " ++ bad ++ "\n  ✓ " ++ good

/-- The long marker: everything that is known. -/
def fullMarker (d : Diagnosis) : String :=
  "\x7b\x7bError: " ++ d.display ++ (d.near.map nearText).getD "" ++ "\nSuggestion: "
    ++ d.suggestion ++ (d.kind.example?.map exampleText).getD "" ++ "\x7d\x7d"

/-- What a rendered template shows. -/
def marker (d : Diagnosis) (debug : Bool) : String :=
  if debug then d.fullMarker else d.terseMarker

/-- The kind of a script error. -/
def Kind.ofScript : ScriptError → Kind
  | .malformed .. => .malformed
  | .unbound _ => .unbound
  | .wrongType _ => .wrongType
  | .forbidden _ => .forbidden
  | .timeout _ | .cancelled _ => .timeout
  | .callDepth _ => .nesting
  | .moduleNotAllowed _ => .moduleNotAllowed
  | .invalidJson _ => .invalidJson
  | .outOfRange _ => .unknown
  | .thrown message => .ofMessage message

/-- The advice for a script error. -/
def suggestionFor (e : ScriptError) : String :=
  match e with
  | .outOfRange _ =>
    "A string or array grew past its size limit. Work on smaller values."
  | e => (Kind.ofScript e).advice

/-- The diagnosis of a script error, pointing into the source if both are known. -/
def ofScript (e : ScriptError) (source : Option String) : Diagnosis :=
  let near := match source, e.offset with
    | some source, some offset => Excerpt.at? source offset
    | _, _ => none
  { kind := .ofScript e, message := e.message, suggestion := suggestionFor e, near }

end Diagnosis
end Stencil
