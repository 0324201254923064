import Stencil.Config.Document
import Stencil.Number.Read
/-!
# Scalars

Scalars of YAML are plain or quoted.  A plain scalar may say something besides its text: a truth
value, a natural number, or nothing.
-/
namespace Stencil.Yaml
open Stencil.Text

/-- Why a text is no document of settings. -/
inductive ReadError where
  /-- A line starts where no open block has its lines. -/
  | indentation
  /-- A quotation mark or a bracket is left open. -/
  | unclosed
  /-- A text that may not stand where it stands. -/
  | misplaced (text : String)
  | badEscape (c : Char)
  /-- More than one document. -/
  | several
  deriving Repr, DecidableEq

/-- What is wrong with the text. -/
def ReadError.message : ReadError → String
  | .indentation => "a line is not aligned with the lines of any open block"
  | .unclosed => "a quotation mark or a bracket is not closed"
  | .misplaced text => "unexpected text '" ++ text ++ "'"
  | .badEscape c => "unknown escape of '" ++ c.toString ++ "'"
  | .several => "more than one document"

/-- Blanks within a line. -/
def isSpace (c : Char) : Bool :=
  c == ' ' || c == '\t'

/-- Blanks within and between lines. -/
def isSpaceOrBreak (c : Char) : Bool :=
  isSpace c || c == '\n'

/-- A text without the blanks around it. -/
def trim (cs : List Char) : List Char :=
  ((cs.dropWhile isSpaceOrBreak).reverse.dropWhile isSpaceOrBreak).reverse

/-- Whether a text ends or goes on with a blank. -/
def startsBlank : List Char → Bool
  | [] => true
  | c :: _ => isSpaceOrBreak c

/-! ### Plain scalars -/

/-- The base that the beginning of a number announces, and its digits. -/
def numberBase : List Char → Nat × List Char
  | '0' :: 'x' :: ds => (16, ds)
  | '0' :: 'o' :: ds => (8, ds)
  | '0' :: 'b' :: ds => (2, ds)
  | ds => (10, ds)

/-- The natural number that a plain scalar is.  Decimal numbers have no zeros before them. -/
def natural? (cs : List Char) : Option Nat :=
  let cs := match cs with
    | '+' :: cs => cs
    | cs => cs
  let (base, ds) := numberBase cs
  let padded := base = 10 ∧ 1 < ds.length ∧ ds.head? = some '0'
  if ds.isEmpty ∨ padded ∨ ds.any fun d => (digitValue? base d).isNone then none
  else some (Number.natOfDigits base ds)

/-- What a plain scalar says besides being a text. -/
def meaningOf (s : String) : Document.Meaning :=
  if ["null", "Null", "NULL", "~"].contains s then .null
  else if ["true", "True", "TRUE"].contains s then .bool true
  else if ["false", "False", "FALSE"].contains s then .bool false
  else
    match natural? s.toList with
    | some n => .natural n
    | none => .plain

/-- The document that a plain scalar is. -/
def plain (cs : List Char) : Document :=
  let s := String.ofList cs
  .scalar (meaningOf s) (some s)

/-- Whether a plain scalar may start like this.  A dash, a question mark or a colon may stand first
if no blank follows. -/
def startsPlain : List Char → Bool
  | [] => false
  | c :: cs =>
    if c == '-' || c == '?' || c == ':' then !startsBlank cs
    else !(",[]\x7b\x7d#&*!|>'\"%@".contains c || c == Char.ofNat 0x60)

/-! ### Quoted scalars -/

/-- Joins what stands on both sides of a line break: `text` is what comes before, last first.  One
break becomes a blank, and each further one stays. -/
def foldBreak (text rest : List Char) : List Char × List Char :=
  let breaks := (rest.takeWhile isSpaceOrBreak).count '\n'
  let text := text.dropWhile isSpace
  let joined := if breaks = 0 then ' ' :: text else List.replicate breaks '\n' ++ text
  (joined, rest.dropWhile isSpaceOrBreak)

theorem foldBreak_length (text rest : List Char) :
    (foldBreak text rest).2.length ≤ rest.length :=
  (List.dropWhile_suffix _).length_le

/-- The rest of a scalar between single quotes, in which a quote is written twice. -/
def singleQuoted (text : List Char) (cs : List Char) :
    Except ReadError (List Char × List Char) :=
  match cs with
  | [] => .error .unclosed
  | '\'' :: '\'' :: rest => singleQuoted ('\'' :: text) rest
  | '\'' :: rest => .ok (text.reverse, rest)
  | '\n' :: rest =>
    have := foldBreak_length text rest
    singleQuoted (foldBreak text rest).1 (foldBreak text rest).2
  | c :: rest => singleQuoted (c :: text) rest
termination_by cs.length
decreasing_by all_goals (simp only [List.length_cons]; omega)

/-- The character that a letter stands for behind a backslash. -/
def namedEscape? (c : Char) : Option Char :=
  ([('0', 0x00), ('a', 0x07), ('b', 0x08), ('t', 0x09), ('\t', 0x09), ('n', 0x0A), ('v', 0x0B),
    ('f', 0x0C), ('r', 0x0D), ('e', 0x1B), (' ', 0x20), ('"', 0x22), ('/', 0x2F), ('\\', 0x5C),
    ('N', 0x85), ('_', 0xA0), ('L', 0x2028), ('P', 0x2029)].lookup c).map Char.ofNat

/-- How many hexadecimal digits follow a letter behind a backslash. -/
def escapeDigits? (c : Char) : Option Nat :=
  [('x', 2), ('u', 4), ('U', 8)].lookup c

/-- The character that hexadecimal digits stand for. -/
def codeEscape? (digits : List Char) (count : Nat) : Option Char :=
  if digits.length = count ∧ digits.all fun d => (digitValue? 16 d).isSome then
    let n := Number.natOfDigits 16 digits
    if n.isValidChar then some (Char.ofNat n) else none
  else none

/-- The rest of a scalar between double quotes. -/
def doubleQuoted (text : List Char) (cs : List Char) :
    Except ReadError (List Char × List Char) :=
  match cs with
  | [] => .error .unclosed
  | '"' :: rest => .ok (text.reverse, rest)
  | '\\' :: '\n' :: rest =>
    have := (List.dropWhile_suffix (p := isSpaceOrBreak) (l := rest)).length_le
    doubleQuoted text (rest.dropWhile isSpaceOrBreak)
  | '\\' :: c :: rest =>
    match namedEscape? c, escapeDigits? c with
    | some d, _ => doubleQuoted (d :: text) rest
    | none, some count =>
      match codeEscape? (rest.take count) count with
      | some d => doubleQuoted (d :: text) (rest.drop count)
      | none => .error (.badEscape c)
    | none, none => .error (.badEscape c)
  | '\n' :: rest =>
    have := foldBreak_length text rest
    doubleQuoted (foldBreak text rest).1 (foldBreak text rest).2
  | c :: rest => doubleQuoted (c :: text) rest
termination_by cs.length
decreasing_by all_goals (simp only [List.length_cons, List.length_drop]; omega)

/-- A quoted scalar, if the text starts with one, and what follows it. -/
def quoted? (cs : List Char) : Except ReadError (Option (List Char × List Char)) :=
  match cs with
  | '\'' :: rest => (singleQuoted [] rest).map some
  | '"' :: rest => (doubleQuoted [] rest).map some
  | _ => .ok none

end Stencil.Yaml
