import Stencil.Config.Document
/-!
# Reading and writing settings

A codec says how a kind of setting is written in a document and read from it, and a section is a
list of fields, each with a key and a codec.  One list of fields serves both directions: a section
is written with all of its fields, and what a document leaves out keeps its default.
-/
namespace Stencil.Config

/-- Why a document is no configuration. -/
inductive ReadError where
  /-- The value under a key is of the wrong kind. -/
  | wrongKind (key expected : String)
  /-- A key occurs more than once. -/
  | duplicate (key : String)
  /-- A list has more items than the section has fields. -/
  | tooLong
  /-- The document is neither a table nor a list. -/
  | notSection
  deriving Repr, DecidableEq

/-- What is wrong with the document. -/
def ReadError.message : ReadError → String
  | .wrongKind key expected => key ++ ": expected " ++ expected
  | .duplicate key => "duplicate field '" ++ key ++ "'"
  | .tooLong => "more items than fields"
  | .notSection => "expected a table of settings"

/-- How one kind of setting is written and read. -/
structure Codec (α : Type) where
  /-- What the setting is, for messages. -/
  expected : String
  encode : α → Document
  decode : Document → Option α

/-- Natural numbers that are kept fit into 64 bits. -/
def maxNatural : Nat := Nat.pow 2 64 - 1

namespace Codec

/-- Natural numbers. -/
def natural : Codec Nat where
  expected := "a natural number"
  encode := .natural
  decode
    | .scalar (.natural n) _ => if n ≤ maxNatural then some n else none
    | _ => none

/-- Truth values. -/
def bool : Codec Bool where
  expected := "true or false"
  encode := .bool
  decode
    | .scalar (.bool b) _ => some b
    | _ => none

/-- Texts. -/
def text : Codec String where
  expected := "a text"
  encode := .text
  decode
    | .scalar _ text => text
    | .blank => some ""
    | _ => none

/-- Settings that may be left open. -/
def optional {α : Type} (c : Codec α) : Codec (Option α) where
  expected := c.expected ++ " or null"
  encode
    | some a => c.encode a
    | none => .null
  decode
    | .blank | .scalar .null _ => some none
    | d => (c.decode d).map some

/-- Lists of settings. -/
def list {α : Type} (c : Codec α) : Codec (List α) where
  expected := "a list"
  encode as := .list (as.map c.encode)
  decode
    | .list items => items.mapM c.decode
    | .blank => some []
    | _ => none

end Codec

/-- A setting in a section. -/
structure Field (σ : Type) where
  key : String
  /-- The section with the setting as a document has it. -/
  read : Document → σ → Except ReadError σ
  write : σ → Document

/-- The field under a key, by its codec and its place in the section. -/
def Field.of {σ α : Type} (key : String) (c : Codec α) (get : σ → α) (set : α → σ → σ) :
    Field σ where
  key := key
  read d s :=
    match c.decode d with
    | some a => .ok (set a s)
    | none => .error (.wrongKind key c.expected)
  write s := c.encode (get s)

/-- The keys of entries that are keys of fields, if none of them occurs twice. -/
def checkKeys {σ : Type} (fields : List (Field σ)) :
    List (String × Document) → List String → Except ReadError Unit
  | [], _ => .ok ()
  | (key, _) :: entries, seen =>
    if seen.contains key then .error (.duplicate key)
    else checkKeys fields entries (if fields.any (·.key == key) then key :: seen else seen)

/-- Reads a section.  A table names the settings by their keys, and other keys mean nothing; a list
holds the settings in the order of the fields.  What is left out is as in `default`. -/
def readSection {σ : Type} (fields : List (Field σ)) (default : σ) :
    Document → Except ReadError σ
  | .blank => .ok default
  | .table entries => do
    checkKeys fields entries []
    entries.foldlM (fun s (key, d) =>
      match fields.find? (·.key == key) with
      | some f => f.read d s
      | none => .ok s) default
  | .list items =>
    if fields.length < items.length then .error .tooLong
    else (fields.zip items).foldlM (fun s (f, d) => f.read d s) default
  | .scalar .. => .error .notSection

/-- Writes a section with all of its fields. -/
def writeSection {σ : Type} (fields : List (Field σ)) (s : σ) : Document :=
  .table (fields.map fun f => (f.key, f.write s))

/-- A section within a section. -/
def Field.nested {σ τ : Type} (key : String) (fields : List (Field τ)) (default : τ)
    (get : σ → τ) (set : τ → σ → σ) : Field σ where
  key := key
  read d s := (readSection fields default d).map fun t => set t s
  write s := writeSection fields (get s)

end Stencil.Config
