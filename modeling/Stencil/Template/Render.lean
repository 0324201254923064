import Stencil.Diagnosis.Basic
import Stencil.Number.Read
import Stencil.Template.Block
/-!
# Rendering blocks

A text is rendered from left to right: literal text is kept, and every block is replaced by the text
that its expression evaluates to.  Blocks within the source of an expression are rendered first.
What is found in a text does not depend on what its expressions evaluate to: the output of a block
is never looked into.
-/
namespace Stencil.Template

/-- How a text is rendered. -/
structure Renderer (σ : Type) where
  /-- Blocks that may be nested. -/
  maxDepth : Nat
  /-- Turns that may be taken, one for every block and one for the end of every text. -/
  maxIterations : Nat
  /-- Whether markers are long. -/
  debug : Bool
  /-- The text of an expression, in a state that it may change. -/
  evaluate : String → σ → String × σ

/-- What rendering has come to. -/
structure Rendering (σ : Type) where
  out : String
  /-- Turns taken. -/
  turns : Nat
  state : σ
  /-- Why rendering stopped before the end, if it did. -/
  halt : Option Diagnosis := none

/-- The first block of a text that stands `depth` blocks deep. -/
def blockAt (depth : Nat) (cs : List Char) : Block :=
  if depth = 0 then nextBlock cs else nextNestedBlock cs

/-- The pieces of the first block make up the text. -/
theorem blockAt_append {depth : Nat} {cs : List Char} (h : blockAt depth cs ≠ .none) :
    (blockAt depth cs).text? = some cs := by
  unfold blockAt at h ⊢
  split
  · exact nextBlock_append (by simp_all)
  · exact nextNestedBlock_append (by simp_all)

/-- Whether the source of an expression holds blocks. -/
def hasNested (cs : List Char) : Bool :=
  nextNestedBlock cs != .none

/-- The marker for a block without an end. -/
def unclosedMarker (debug : Bool) (whole : List Char) (start : Nat) : String :=
  (Diagnosis.unclosed.pointing (String.ofList whole) start).marker debug

namespace Renderer
variable {σ : Type} (r : Renderer σ)

/-- Renders the rest `cs` of a text `whole`, `offset` bytes into it, after the output `out`. -/
def renderFrom (depth : Nat) (whole : List Char) (offset : Nat) (out : String) (turns : Nat)
    (state : σ) (cs : List Char) : Rendering σ :=
  let turns := turns + 1
  if r.maxIterations < turns then ⟨out, turns, state, some (.tooMany r.maxIterations)⟩
  else
    match h : blockAt depth cs with
    | .none => { out := out ++ String.ofList cs, turns, state }
    | .unclosed before _ =>
      let marker := unclosedMarker r.debug whole (offset + Text.byteLength before)
      { out := out ++ String.ofList before ++ marker, turns, state }
    | .found before inner after =>
      have shorter := Block.length_lt (blockAt_append (by simp [h])) h
      let out := out ++ String.ofList before
      let source : Rendering σ :=
        if hasNested inner then
          if r.maxDepth < depth + 1 then ⟨"", turns, state, some (.tooDeep r.maxDepth)⟩
          else renderFrom (depth + 1) inner 0 "" turns state inner
        else { out := String.ofList inner, turns, state }
      if source.halt.isSome then { source with out }
      else
        let expression := String.ofList (Number.trimBlanks source.out.toList)
        let (text, state) := r.evaluate expression source.state
        let stop := offset + (Span.ofPieces 0 before inner).stop
        renderFrom depth whole stop (out ++ text) source.turns state after
termination_by cs.length
decreasing_by
  · exact shorter.1
  · exact shorter.2

/-- Renders a text.  If a limit stops it, the marker of the limit ends the output. -/
def render (state : σ) (text : String) : String × σ :=
  let cs := text.toList
  let done := r.renderFrom 0 cs 0 "" 0 state cs
  match done.halt with
  | some d => (done.out ++ d.marker r.debug, done.state)
  | none => (done.out, done.state)

end Renderer
end Stencil.Template
