import Stencil.Yaml.Scalar
/-!
# Lines

The lines of a document as blocks see them: without comments and empty lines, and with everything
that one quotation or one pair of brackets holds on a single line.
-/
namespace Stencil.Yaml

/-- A line: how far it is indented, and the text behind. -/
structure Line where
  indent : Nat
  text : List Char
  deriving Repr, DecidableEq

/-- What is open within a line. -/
structure Openings where
  /-- Brackets that are open. -/
  depth : Nat := 0
  /-- The quotation mark that is open. -/
  quote : Option Char := none
  /-- Whether a value may start, so that a quotation mark or a bracket opens something. -/
  fresh : Bool := true

/-- Whether nothing is open. -/
def Openings.areClosed (o : Openings) : Bool :=
  o.depth == 0 && o.quote.isNone

/-- What is open after a character outside of quotes, which is followed by `next`; `before` is the
character before it. -/
def Openings.pass (o : Openings) (before : Option Char) (c : Char) (next : List Char) : Openings :=
  let inside := 0 < o.depth
  if o.fresh ∧ (c = '"' ∨ c = '\'') then { o with quote := some c, fresh := false }
  else if (c = '[' ∨ c = '\x7b') ∧ (o.fresh ∨ inside) then
    { o with depth := o.depth + 1, fresh := true }
  else if (c = ']' ∨ c = '\x7d') ∧ inside then { o with depth := o.depth - 1, fresh := false }
  else if c = ',' ∧ inside then { o with fresh := true }
  else if c = ':' then
    let adjacent := inside ∧ before.any fun b => b == '"' || b == '\'' || b == ']' || b == '\x7d'
    { o with fresh := startsBlank next ∨ adjacent }
  else { o with fresh := o.fresh && c == '-' && startsBlank next }

/-- Passes over a line: its text without a comment, and what is open at its end.  `seen` holds the
characters already passed, last first. -/
def scanLine (o : Openings) (seen : List Char) : List Char → List Char × Openings
  | [] => (seen.reverse, o)
  | c :: cs =>
    match o.quote with
    | some q =>
      match cs with
      | d :: rest =>
        if (q = '"' ∧ c = '\\') ∨ (q = '\'' ∧ c = '\'' ∧ d = '\'') then
          scanLine o (d :: c :: seen) rest
        else scanLine (if c = q then { o with quote := none } else o) (c :: seen) (d :: rest)
      | [] => scanLine (if c = q then { o with quote := none } else o) (c :: seen) []
    | none =>
      if c = '#' ∧ seen.head?.all isSpace then (seen.reverse, o)
      else if isSpace c then scanLine o (c :: seen) cs
      else scanLine (o.pass seen.head? c cs) (c :: seen) cs

/-- A line that is still open: its indentation, its text so far, and what is open. -/
structure OpenLine where
  line : Line
  openings : Openings

/-- The line if nothing is open any more. -/
def OpenLine.closed? (l : OpenLine) : Option Line :=
  if l.openings.areClosed then some { l.line with text := trim l.line.text } else none

/-- A line that starts; `none` if it holds nothing but blanks and a comment. -/
def OpenLine.start? (cs : List Char) : Except ReadError (Option OpenLine) :=
  let indent := (cs.takeWhile (· == ' ')).length
  let (text, openings) := scanLine {} [] (cs.drop indent)
  if (trim text).isEmpty then .ok none
  else if text.head? = some '\t' then .error .indentation
  else .ok (some ⟨⟨indent, text⟩, openings⟩)

/-- An open line that goes on over another one. -/
def OpenLine.extend (l : OpenLine) (cs : List Char) : OpenLine :=
  let (text, openings) := scanLine l.openings [] cs
  ⟨{ l.line with text := l.line.text ++ '\n' :: text }, openings⟩

/-- The lines of a text that is cut at its line breaks, after a line that is still open. -/
def linesFrom (pending : Option OpenLine) : List (List Char) → Except ReadError (List Line)
  | [] => if pending.isSome then .error .unclosed else .ok []
  | cs :: rest => do
    let current ← match pending with
      | some l => pure (some (l.extend cs))
      | none => OpenLine.start? cs
    match current with
    | none => linesFrom none rest
    | some l =>
      match l.closed? with
      | some line => return line :: (← linesFrom none rest)
      | none => linesFrom (some l) rest

/-- Whether a text starts with a mark of three characters that stands alone. -/
def startsMark (mark : Char) : List Char → Bool
  | a :: b :: c :: rest => a == mark && b == mark && c == mark && startsBlank rest
  | _ => false

/-- Whether a line holds no more than a comment. -/
def isEmptyLine (cs : List Char) : Bool :=
  match trim cs with
  | [] => true
  | c :: _ => c == '#'

/-- The lines of the only document: those after a mark of its start, if there is one, and before a
mark of its end.  `started` says whether the document has started. -/
def onlyDocument (started : Bool) : List (List Char) → Except ReadError (List (List Char))
  | [] => .ok []
  | cs :: rest => do
    if startsMark '-' cs then
      if started then throw .several
      return ([' ', ' ', ' '] ++ cs.drop 3) :: (← onlyDocument true rest)
    else if startsMark '.' cs then
      if rest.all fun cs => isEmptyLine cs || startsMark '.' cs then return []
      else throw .several
    else return cs :: (← onlyDocument (started || !isEmptyLine cs) rest)

end Stencil.Yaml
