import Stencil.Json.Basic
import Stencil.Number.Format
import Stencil.Text.Quoted
/-!
# Writing JSON

`Json.compact` writes a value without blanks; `Json.pretty` puts every item and member on a line of
its own.
-/
namespace Stencil.Json

/-- One character of a written string. -/
def writtenChar (c : Char) : List Char :=
  match c with
  | '"' => ['\\', '"']
  | '\\' => ['\\', '\\']
  | '\x08' => ['\\', 'b']
  | '\x0c' => ['\\', 'f']
  | '\n' => ['\\', 'n']
  | '\r' => ['\\', 'r']
  | '\t' => ['\\', 't']
  | c =>
    if c.toNat < 0x20 then
      let hex := Text.hexDigits c.toNat
      ['\\', 'u'] ++ List.replicate (4 - hex.length) '0' ++ hex
    else [c]

/-- A string with its quotes. -/
def writtenString (s : String) : String :=
  String.ofList ('"' :: s.toList.flatMap writtenChar ++ ['"'])

/-- A number. -/
def Number.written : Json.Number → String
  | .integer i => toString i
  | .real x => Stencil.Number.jsonText x

mutual
/-- Appends the text of a value without blanks. -/
def compactOnto (out : String) : Json → String
  | .null => out ++ "null"
  | .bool b => out ++ (if b then "true" else "false")
  | .number n => out ++ n.written
  | .string s => out ++ writtenString s
  | .array xs => compactItems (out ++ "[") true xs ++ "]"
  | .object ms => compactMembers (out ++ "\x7b") true ms ++ "\x7d"

/-- Appends items separated by commas. -/
def compactItems (out : String) (first : Bool) : List Json → String
  | [] => out
  | x :: xs => compactItems (compactOnto (if first then out else out ++ ",") x) false xs

/-- Appends members separated by commas. -/
def compactMembers (out : String) (first : Bool) : List (String × Json) → String
  | [] => out
  | (k, x) :: ms =>
    let head := (if first then out else out ++ ",") ++ writtenString k ++ ":"
    compactMembers (compactOnto head x) false ms
end

/-- The text of a value without blanks. -/
def compact (j : Json) : String :=
  compactOnto "" j

/-- A new line with the indentation of a depth. -/
def newline (indent : String) (depth : Nat) : String :=
  "\n" ++ String.join (List.replicate depth indent)

mutual
/-- Appends the text of a value that stands `depth` containers deep. -/
def prettyOnto (indent : String) (depth : Nat) (out : String) : Json → String
  | .null => out ++ "null"
  | .bool b => out ++ (if b then "true" else "false")
  | .number n => out ++ n.written
  | .string s => out ++ writtenString s
  | .array [] => out ++ "[]"
  | .array xs => prettyItems indent (depth + 1) (out ++ "[") true xs ++ newline indent depth ++ "]"
  | .object [] => out ++ "\x7b\x7d"
  | .object ms =>
    prettyMembers indent (depth + 1) (out ++ "\x7b") true ms ++ newline indent depth ++ "\x7d"

/-- Appends items, each on its own line. -/
def prettyItems (indent : String) (depth : Nat) (out : String) (first : Bool) :
    List Json → String
  | [] => out
  | x :: xs =>
    let head := (if first then out else out ++ ",") ++ newline indent depth
    prettyItems indent depth (prettyOnto indent depth head x) false xs

/-- Appends members, each on its own line. -/
def prettyMembers (indent : String) (depth : Nat) (out : String) (first : Bool) :
    List (String × Json) → String
  | [] => out
  | (k, x) :: ms =>
    let head := (if first then out else out ++ ",") ++ newline indent depth ++ writtenString k
      ++ ": "
    prettyMembers indent depth (prettyOnto indent depth head x) false ms
end

/-- The text of a value with every item and member on its own line. -/
def pretty (indent : String) (j : Json) : String :=
  prettyOnto indent 0 "" j

end Stencil.Json
