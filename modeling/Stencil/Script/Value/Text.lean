import Stencil.Calendar.Format
import Stencil.Number.Format
import Stencil.Script.Value.Basic
import Stencil.Text.Quoted
/-!
# Values as text

`Value.text` is the conversion to a string that operators, templates and `String` use; it stops
soon after a text has passed `maxTextBytes`.  `Value.inspected` shows a value for inspection, with
quotes and brackets.
-/
namespace Stencil.Script.Value

/-- The length in bytes after which the conversion to text stops. -/
def maxTextBytes : Nat := 16 * 1024 * 1024

/-- The number of containers that conversions descend into. -/
def maxNesting : Nat := 1024

/-- Whether a text is past the length at which conversion stops. -/
def isOverlong (s : String) : Bool :=
  maxTextBytes < s.utf8ByteSize

/-- The text of a function. -/
def functionText (name : String) : String :=
  "[Function: " ++ name ++ "]"

mutual

/-- Appends the text of a value that stands `depth` arrays deep. -/
def textOnto (depth : Nat) (out : String) : Value → String
  | .array _ ⟨items⟩ =>
    if maxNesting ≤ depth then out else itemsOnto depth out true items
  | v => if isOverlong out then out else out ++
    match v with
    | .undefined => "undefined"
    | .null => "null"
    | .bool b => if b then "true" else "false"
    | .number x => Number.text x
    | .string s => s
    | .array .. => ""
    | .object .. => "[object Object]"
    | .date i => i.isoText
    | .closure _ definition _ _ => functionText (closureName definition)
    | .native f => functionText f.name

/-- Appends the items of an array, separated by commas; `undefined` and `null` leave no text. -/
def itemsOnto (depth : Nat) (out : String) (first : Bool) : List Value → String
  | [] => out
  | v :: rest =>
    if isOverlong out then out
    else
      let out := if first then out else out ++ ","
      itemsOnto depth (if v.isNullish then out else textOnto (depth + 1) out v) false rest

end

/-- The value converted to a string. -/
def text (v : Value) : String :=
  textOnto 0 "" v

/-- The name of a member as a key. -/
def keyText : Value → String
  | .number x => Number.text x
  | v => v.text

mutual

/-- Appends a value as inspection shows it. -/
def inspectedOnto (out : String) : Value → String
  | .string s => out ++ Text.quoted s
  | .array _ ⟨items⟩ => inspectedItems (out ++ "[") true items ++ "]"
  | .object _ members => inspectedMembers (out ++ "\x7b") true members ++ "\x7d"
  | v => out ++ v.text

/-- Appends items as inspection shows them. -/
def inspectedItems (out : String) (first : Bool) : List Value → String
  | [] => out
  | v :: rest =>
    inspectedItems (inspectedOnto (if first then out else out ++ ", ") v) false rest

/-- Appends members as inspection shows them. -/
def inspectedMembers (out : String) (first : Bool) : List (String × Value) → String
  | [] => out
  | (key, v) :: rest =>
    let head := (if first then out else out ++ ", ") ++ Text.quoted key ++ ": "
    inspectedMembers (inspectedOnto head v) false rest

end

/-- The value as inspection shows it. -/
def inspected (v : Value) : String :=
  inspectedOnto "" v

end Stencil.Script.Value
