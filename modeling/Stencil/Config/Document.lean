import Stencil.Json.Basic
/-!
# Documents of settings

What a file of settings says, in whichever notation it is written.  A notation may leave open what a
scalar is meant to be: `5` may be a number or a text.  A document therefore keeps both readings, and
the setting that is read from it decides.
-/
namespace Stencil

/-- What a scalar says besides being a text. -/
inductive Document.Meaning where
  /-- Nothing. -/
  | plain
  | null
  | bool (b : Bool)
  | natural (n : Nat)
  deriving Repr, DecidableEq

/-- A document of settings. -/
inductive Document where
  /-- No value stands where one may stand. -/
  | blank
  /-- A scalar, which may be read as a text as well. -/
  | scalar (meaning : Document.Meaning) (text : Option String)
  | list (items : List Document)
  /-- Entries in the order in which they are written; a key may occur more than once. -/
  | table (entries : List (String × Document))

namespace Document

/-- The document that is a natural number. -/
def natural (n : Nat) : Document :=
  .scalar (.natural n) none

/-- The document that is a truth value. -/
def bool (b : Bool) : Document :=
  .scalar (.bool b) none

/-- The document that is a text. -/
def text (s : String) : Document :=
  .scalar .plain (some s)

/-- The document that stands for no value. -/
def null : Document :=
  .scalar .null none

/-- What a number of a JSON text is as a setting: settings are natural numbers. -/
def meaningOf : Json.Number → Meaning
  | .integer (.ofNat n) => .natural n
  | _ => .plain

mutual
/-- A JSON value as a document. -/
def ofJson : Json → Document
  | .null => null
  | .bool b => bool b
  | .number n => .scalar (meaningOf n) none
  | .string s => text s
  | .array items => .list (ofJsonItems items)
  | .object members => .table (ofJsonMembers members)

/-- The items of a JSON array as documents. -/
def ofJsonItems : List Json → List Document
  | [] => []
  | j :: js => ofJson j :: ofJsonItems js

/-- The members of a JSON object as entries. -/
def ofJsonMembers : List (String × Json) → List (String × Document)
  | [] => []
  | (key, j) :: ms => (key, ofJson j) :: ofJsonMembers ms
end

/-- The JSON value of a scalar. -/
def scalarJson : Meaning → Option String → Json
  | .null, _ => .null
  | .bool b, _ => .bool b
  | .natural n, _ => .number (.integer n)
  | .plain, some s => .string s
  | .plain, none => .null

mutual
/-- A document as a JSON value. -/
def toJson : Document → Json
  | .blank => .null
  | .scalar meaning text => scalarJson meaning text
  | .list items => .array (toJsonItems items)
  | .table entries => .object (toJsonMembers entries)

/-- Documents as the items of a JSON array. -/
def toJsonItems : List Document → List Json
  | [] => []
  | d :: ds => d.toJson :: toJsonItems ds

/-- Entries as the members of a JSON object. -/
def toJsonMembers : List (String × Document) → List (String × Json)
  | [] => []
  | (key, d) :: entries => (key, d.toJson) :: toJsonMembers entries
end

end Document
end Stencil
