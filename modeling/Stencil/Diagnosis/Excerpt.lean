import Stencil.Text.Bytes
/-!
# Excerpts

A piece of a source around the place of an error, short enough for one line, and the column of the
place within it.
-/
namespace Stencil

/-- A piece of a source and the column, in characters, of the place that it shows. -/
structure Excerpt where
  snippet : String
  column : Nat
  deriving Repr, DecidableEq

namespace Excerpt

/-- How many characters are shown on either side of the place. -/
def radius : Nat := 20

/-- Shown where the source was cut. -/
def ellipsis : Char := '…'

/-- Line breaks and tabs shown as blanks, so that columns count what is seen. -/
def flatten (c : Char) : Char :=
  if c = '\n' ∨ c = '\t' then ' ' else c

/-- The excerpt around a character. -/
def around (cs : List Char) (index : Nat) : Excerpt :=
  let start := index - radius
  let shown := ((cs.drop start).take (index + radius - start)).map flatten
  let before := if 0 < start then [ellipsis] else []
  let after := if index + radius < cs.length then [ellipsis] else []
  ⟨String.ofList (before ++ shown ++ after), index - start + before.length⟩

/-- The excerpt around a byte offset; an empty source has none. -/
def at? (source : String) (offset : Nat) : Option Excerpt :=
  let cs := source.toList
  if cs.isEmpty then none else some (around cs (Text.charsBefore cs offset))

end Excerpt
end Stencil
