import Stencil.Text.Quoted
import Stencil.Yaml.Scalar
/-!
# Writing YAML

`Yaml.written` writes a document of settings in blocks: an entry or an item on a line of its own,
what is nested two blanks further in, and the dashes of a list right below its key.
-/
namespace Stencil.Yaml

/-- Whether a text that stands unquoted is read as that text and as nothing else. -/
def readsAsText (s : String) : Bool :=
  let cs := s.toList
  startsPlain cs && meaningOf s == .plain && trim cs == cs
    && cs.all (fun c => 0x20 ≤ c.toNat && c != ':' && c != '#' && !",[]\x7b\x7d".contains c)

/-- A character between double quotes. -/
def escapedChar (c : Char) : List Char :=
  if c = '"' ∨ c = '\\' then ['\\', c]
  else if c = '\n' then ['\\', 'n']
  else if c = '\t' then ['\\', 't']
  else if c.toNat < 0x20 ∨ c.toNat = 0x7F then
    let hex := Text.hexDigits c.toNat
    ['\\', 'x'] ++ List.replicate (2 - hex.length) '0' ++ hex
  else [c]

/-- A text as a scalar, between quotes where it would be read as something else. -/
def writtenText (s : String) : String :=
  if readsAsText s then s
  else if s.toList.all fun c => 0x20 ≤ c.toNat && c.toNat != 0x7F then
    String.ofList ('\'' :: s.toList.flatMap (fun c => if c = '\'' then [c, c] else [c]) ++ ['\''])
  else String.ofList ('"' :: s.toList.flatMap escapedChar ++ ['"'])

/-- A scalar. -/
def writtenScalar : Document.Meaning → Option String → String
  | .null, _ => "null"
  | .bool b, _ => if b then "true" else "false"
  | .natural n, _ => toString n
  | .plain, some s => writtenText s
  | .plain, none => "null"

/-- Blanks before a line that stands `depth` tables deep. -/
def indentation (depth : Nat) : String :=
  String.ofList (List.replicate (2 * depth) ' ')

mutual
/-- A document behind a key or a dash that stands `depth` tables deep, and the end of the line. -/
def writtenBehind (depth : Nat) : Document → String
  | .blank => "\n"
  | .scalar meaning text => " " ++ writtenScalar meaning text ++ "\n"
  | .list [] => " []\n"
  | .list items => "\n" ++ writtenItems depth items
  | .table [] => " \x7b\x7d\n"
  | .table entries => "\n" ++ writtenEntries (depth + 1) entries

/-- Items, a line for each dash. -/
def writtenItems (depth : Nat) : List Document → String
  | [] => ""
  | d :: ds => indentation depth ++ "-" ++ writtenBehind (depth + 1) d ++ writtenItems depth ds

/-- Entries, a line for each key. -/
def writtenEntries (depth : Nat) : List (String × Document) → String
  | [] => ""
  | (key, d) :: entries =>
    indentation depth ++ writtenText key ++ ":" ++ writtenBehind depth d
      ++ writtenEntries depth entries
end

/-- A whole document. -/
def written : Document → String
  | .blank => "null\n"
  | .scalar meaning text => writtenScalar meaning text ++ "\n"
  | .list [] => "[]\n"
  | .list items => writtenItems 0 items
  | .table [] => "\x7b\x7d\n"
  | .table entries => writtenEntries 0 entries

end Stencil.Yaml
