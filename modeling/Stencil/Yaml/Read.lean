import Stencil.Text.Search
import Stencil.Yaml.Flow
import Stencil.Yaml.Line
/-!
# Reading YAML

`Yaml.read` reads documents of settings: tables and lists in blocks, which indentation delimits, and
in brackets, with plain and quoted scalars.  Anchors, tags, directives, literal blocks and keys that
are not scalars are refused.
-/
namespace Stencil.Yaml

/-- The text behind the dash of an item, and how far the dash and the blanks behind it reach. -/
def item? : List Char → Option (List Char × Nat)
  | '-' :: rest =>
    if startsBlank rest then
      let text := rest.dropWhile isSpace
      some (text, 1 + (rest.length - text.length))
    else none
  | _ => none

/-- The plain text before the first colon that a blank follows, and the text behind the colon. -/
def breakAtColon? (seen : List Char) : List Char → Option (List Char × List Char)
  | [] => none
  | c :: cs =>
    if c = '\n' then none
    else if c = ':' ∧ startsBlank cs then some (seen.reverse, cs)
    else if c = ' ' ∧ cs.head? = some '#' then none
    else breakAtColon? (c :: seen) cs

/-- The key that a line starts with and the text behind its colon. -/
def entry? (cs : List Char) : Except ReadError (Option (String × List Char)) := do
  match ← enclosed? cs with
  | some (key, rest) =>
    match rest.dropWhile isSpace with
    | ':' :: rest =>
      if startsBlank rest then
        if (cs.take (cs.length - rest.length)).contains '\n' then misplaced cs
        return some (← keyText key, trim rest)
      else return none
    | _ => return none
  | none =>
    if startsPlain cs then
      return (breakAtColon? [] cs).map fun (key, rest) =>
        (String.ofList (trim key), trim rest)
    else return none

/-- The lines that a plain scalar goes on over, those that are indented enough, and the others. -/
def continuation (least : Nat) (lines : List Line) : List Line × List Line :=
  lines.span fun l => least ≤ l.indent

/-- Reads a scalar or a collection in brackets from the rest of a line and, if it is a plain scalar,
from the lines below it. -/
def inlineNode (least : Nat) (text : List Char) (rest : List Line) :
    Except ReadError (Document × List Line) := do
  match ← enclosed? text with
  | some (d, after) => if (trim after).isEmpty then return (d, rest) else misplaced after
  | none =>
    let (more, rest) := continuation least rest
    let pieces := text :: more.map (·.text)
    if !startsPlain text then misplaced text
    match pieces.find? fun piece => (breakAtColon? [] piece).isSome with
    | some piece => misplaced piece
    | none => return (plain (Text.join [' '] pieces), rest)

mutual
/-- Reads a node whose lines are indented by at least `least`. -/
def node : Nat → Nat → List Line → Except ReadError (Document × List Line)
  | 0, _, _ => .error .unclosed
  | _ + 1, _, [] => .ok (.blank, [])
  | fuel + 1, least, l :: rest => do
    if l.indent < least then return (.blank, l :: rest)
    else if (item? l.text).isSome then items fuel l.indent [] (l :: rest)
    else if (← entry? l.text).isSome then entries fuel l.indent [] (l :: rest)
    else inlineNode least l.text rest

/-- Reads the items of a list whose dashes are indented by `indent`, after those already read, last
first. -/
def items : Nat → Nat → List Document → List Line → Except ReadError (Document × List Line)
  | 0, _, _, _ => .error .unclosed
  | _ + 1, _, done, [] => .ok (.list done.reverse, [])
  | fuel + 1, indent, done, l :: rest => do
    if indent < l.indent then throw .indentation
    match if l.indent = indent then item? l.text else none with
    | none => return (.list done.reverse, l :: rest)
    | some (text, width) =>
      let below := if text.isEmpty then rest else ⟨indent + width, text⟩ :: rest
      let (d, rest) ← node fuel (indent + 1) below
      items fuel indent (d :: done) rest

/-- Reads the entries of a table whose keys are indented by `indent`, after those already read, last
first. -/
def entries :
    Nat → Nat → List (String × Document) → List Line → Except ReadError (Document × List Line)
  | 0, _, _, _ => .error .unclosed
  | _ + 1, _, done, [] => .ok (.table done.reverse, [])
  | fuel + 1, indent, done, l :: rest => do
    if l.indent < indent then return (.table done.reverse, l :: rest)
    else if indent < l.indent then throw .indentation
    match ← entry? l.text with
    | none => misplaced l.text
    | some (key, text) =>
      let (d, rest) ← if text.isEmpty then valueBelow fuel indent rest
        else inlineNode (indent + 1) text rest
      entries fuel indent ((key, d) :: done) rest

/-- Reads the value of a key from the lines below it.  The dashes of a list may stand right below
the key. -/
def valueBelow : Nat → Nat → List Line → Except ReadError (Document × List Line)
  | 0, _, _ => .error .unclosed
  | _ + 1, _, [] => .ok (.blank, [])
  | fuel + 1, indent, l :: rest =>
    if l.indent = indent ∧ (item? l.text).isSome then items fuel indent [] (l :: rest)
    else node fuel (indent + 1) (l :: rest)
end

/-- The steps that reading lines may take: each reads a character or ends a block of a line. -/
def stepsFor (lines : List Line) : Nat :=
  lines.foldl (fun n l => n + 4 * l.text.length + 4) 4

/-- Reads a document of settings. -/
def read (text : String) : Except ReadError Document := do
  let cs := text.toList.filter (· != '\r')
  let cs := if cs.head? = some (Char.ofNat 0xFEFF) then cs.drop 1 else cs
  let lines ← linesFrom none (← onlyDocument false (Text.splitOn ['\n'] cs))
  match ← node (stepsFor lines) 0 lines with
  | (d, []) => return d
  | (_, l :: _) => misplaced l.text

end Stencil.Yaml
