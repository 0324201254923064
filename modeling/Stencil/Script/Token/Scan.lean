import Stencil.Number.Read
import Stencil.Script.Error
import Stencil.Script.Token
import Stencil.Text.Bytes
/-!
# From text to tokens

`tokenize` splits the source of a script into tokens.  Each function reads one kind of lexeme from
the front of the text and returns what follows it.
-/
namespace Stencil.Script

open Stencil.Text (byteLength isBlank isAlphabetic isAlphanumeric digitValue?)

/-- A place in the source: the characters from there on, and its byte offset. -/
structure Place where
  rest : List Char
  offset : Nat

/-- Characters that a name may start with. -/
def isNameStart (c : Char) : Bool :=
  isAlphabetic c || c == '_' || c == '$'

/-- Characters that a name may go on with. -/
def isNameChar (c : Char) : Bool :=
  isAlphanumeric c || c == '_' || c == '$'

/-- Whether the first character exists and satisfies the test. -/
def startsWith (test : Char → Bool) : List Char → Bool
  | c :: _ => test c
  | [] => false

/-- The character that delimits template literals. -/
def backquote : Char := Char.ofNat 0x60

namespace Scan

/-- What stands between two tokens. -/
inductive Trivia where
  | blanks
  | lineComment
  /-- A comment between delimiters, the first of them at `start`. -/
  | comment (start : Nat)

/-- Skips blanks and comments. -/
def trivia : Trivia → Nat → List Char → Except ScriptError Place
  | .blanks, o, '/' :: '/' :: rest => trivia .lineComment (o + 2) rest
  | .blanks, o, '/' :: '*' :: rest => trivia (.comment o) (o + 2) rest
  | .blanks, o, c :: rest =>
    if isBlank c then trivia .blanks (o + c.utf8Size) rest else .ok ⟨c :: rest, o⟩
  | .lineComment, o, c :: rest =>
    trivia (if c = '\n' then .blanks else .lineComment) (o + c.utf8Size) rest
  | .comment _, o, '*' :: '/' :: rest => trivia .blanks (o + 2) rest
  | .comment start, o, c :: rest => trivia (.comment start) (o + c.utf8Size) rest
  | .comment start, _, [] => .error (.syntaxAt "Unterminated comment" start)
  | _, o, [] => .ok ⟨[], o⟩

/-- Characters at the front that satisfy a test, and the place behind them. -/
def spanAt (test : Char → Bool) (p : Place) : List Char × Place :=
  let (taken, rest) := p.rest.span test
  (taken, ⟨rest, p.offset + byteLength taken⟩)

/-- The fraction of a decimal.  A point that a name follows belongs to a member access. -/
def fraction (p : Place) : List Char × Place :=
  match p.rest with
  | '.' :: rest =>
    if startsWith Char.isDigit rest then
      let (ds, p) := spanAt Char.isDigit ⟨rest, p.offset + 1⟩
      ('.' :: ds, p)
    else if startsWith isNameStart rest then ([], p)
    else (['.'], ⟨rest, p.offset + 1⟩)
  | _ => ([], p)

/-- The sign in front of the digits of an exponent, if there is one, and what follows it. -/
def sign : List Char → List Char × List Char
  | c :: rest => if c = '+' ∨ c = '-' then ([c], rest) else ([], c :: rest)
  | [] => ([], [])

/-- The exponent of a decimal, if the mark is followed by digits. -/
def exponent (p : Place) : List Char × Place :=
  match p.rest with
  | c :: rest =>
    if c = 'e' ∨ c = 'E' then
      let (signs, rest) := sign rest
      if startsWith Char.isDigit rest then
        let (ds, p) := spanAt Char.isDigit ⟨rest, p.offset + 1 + signs.length⟩
        (c :: signs ++ ds, p)
      else ([], p)
    else ([], p)
  | [] => ([], p)

/-- A number in base sixteen whose two first characters have been read. -/
def hexadecimal (start : Nat) (p : Place) : Except ScriptError (TokenKind × Place) :=
  let (ds, p) := spanAt (fun c => (digitValue? 16 c).isSome) p
  match Number.readBounded? 16 (Nat.pow 2 64) ds with
  | some n => .ok (.number (Number.ofNat n), p)
  | none => .error (.syntaxAt "Invalid hexadecimal literal" start)

/-- A number in base ten. -/
def decimal (start : Nat) (p : Place) : Except ScriptError (TokenKind × Place) :=
  let (whole, p) := spanAt (fun c => c.isDigit || c == '_') p
  let (part, p) := fraction p
  let (power, p) := exponent p
  let digits := (whole ++ part ++ power).filter (· != '_')
  if startsWith isNameStart p.rest then
    .error (.syntaxAt "Invalid or unexpected token" p.offset)
  else match Number.readDecimal? digits with
    | some x => .ok (.number x, p)
    | none =>
      .error (.syntaxAt ("Invalid number literal '" ++ String.ofList digits ++ "'") start)

/-- A number. -/
def number (p : Place) : Except ScriptError (TokenKind × Place) :=
  match p.rest with
  | '0' :: 'x' :: rest | '0' :: 'X' :: rest => hexadecimal p.offset ⟨rest, p.offset + 2⟩
  | _ => decimal p.offset p

/-- The character with the code that hexadecimal digits give. -/
def coded? (ds : List Char) : Option Char := do
  let values ← ds.mapM (digitValue? 16)
  let code := values.foldl (fun n k => n * 16 + k) 0
  if code.isValidChar then some (Char.ofNat code) else none

/-- The character that a letter after a backslash stands for, if it is not written with digits. -/
def simpleEscape (c : Char) : Char :=
  match c with
  | 'n' => '\n'
  | 't' => '\t'
  | 'r' => '\r'
  | '0' => '\x00'
  | 'b' => '\x08'
  | 'f' => '\x0c'
  | 'v' => '\x0b'
  | c => c

/-- What an escape sequence stands for and how many characters it takes after the backslash. -/
def escape (start : Nat) : List Char → Except ScriptError (Char × Nat)
  | [] => .error (.syntaxAt "Unterminated string literal" start)
  | 'x' :: rest => digits 2 rest
  | 'u' :: rest => digits 4 rest
  | c :: _ => .ok (simpleEscape c, 1)
where
  /-- An escape with a fixed number of hexadecimal digits. -/
  digits (n : Nat) (rest : List Char) : Except ScriptError (Char × Nat) :=
    let ds := rest.take n
    match if ds.length = n then coded? ds else none with
    | some c => .ok (c, n + 1)
    | none => .error (.syntaxAt "Invalid escape sequence" start)

/-- A string up to its closing quote; `skip` counts characters that belong to an escape already
read, and `done` holds the characters of the string, last first. -/
def stringRest (quote : Char) (start : Nat) (done : List Char) :
    Nat → Nat → List Char → Except ScriptError (String × Place)
  | _, _, [] => .error (.syntaxAt "Unterminated string literal" start)
  | skip + 1, o, c :: rest => stringRest quote start done skip (o + c.utf8Size) rest
  | 0, o, c :: rest =>
    if c = '\n' then .error (.syntaxAt "Unterminated string literal" start)
    else if c = quote then .ok (String.ofList done.reverse, ⟨rest, o + c.utf8Size⟩)
    else if c = '\\' then
      match escape start rest with
      | .ok (image, taken) => stringRest quote start (image :: done) taken (o + 1) rest
      | .error e => .error e
    else stringRest quote start (c :: done) 0 (o + c.utf8Size) rest

/-- Where a template literal is being read. -/
inductive Template where
  /-- In its text; `skip` counts characters that belong to an escape already read. -/
  | text (skip : Nat)
  /-- In an interpolation that starts at `start`, `depth` braces deep; `source` holds its
  characters, last first. -/
  | code (start depth : Nat) (source : List Char)
  /-- In a quoted part of an interpolation; `escaped` marks the character after a backslash. -/
  | quoted (quote : Char) (escaped : Bool) (start depth : Nat) (source : List Char)

/-- Adds collected text to the chunks, both last first. -/
def flush (text : List Char) (chunks : List Chunk) : List Chunk :=
  if text.isEmpty then chunks else .text (String.ofList text.reverse) :: chunks

/-- A template literal up to its closing delimiter, from `o` bytes behind its start on. -/
def templateRest (start : Nat) (text : List Char) (chunks : List Chunk) :
    Template → Nat → List Char → Except ScriptError (List Chunk × Place)
  | _, _, [] => .error (.syntaxAt "Unterminated template literal" start)
  | .text (skip + 1), o, c :: rest =>
    templateRest start text chunks (.text skip) (o + c.utf8Size) rest
  | .text 0, o, '$' :: '\x7b' :: rest =>
    templateRest start [] (flush text chunks) (.code (o + 2) 0 []) (o + 2) rest
  | .text 0, o, c :: rest =>
    if c = backquote then .ok ((flush text chunks).reverse, ⟨rest, start + (o + 1)⟩)
    else if c = '\\' then
      match escape start rest with
      | .ok (image, taken) =>
        templateRest start (image :: text) chunks (.text taken) (o + 1) rest
      | .error e => .error e
    else templateRest start (c :: text) chunks (.text 0) (o + c.utf8Size) rest
  | .code from' depth source, o, c :: rest =>
    match c, depth with
    | '\x7d', 0 =>
      let chunk := Chunk.source (String.ofList source.reverse) from'
      templateRest start [] (chunk :: chunks) (.text 0) (o + 1) rest
    | '\x7d', depth + 1 =>
      templateRest start text chunks (.code from' depth (c :: source)) (o + 1) rest
    | '\x7b', depth =>
      templateRest start text chunks (.code from' (depth + 1) (c :: source)) (o + 1) rest
    | '\'', depth | '"', depth =>
      templateRest start text chunks (.quoted c false from' depth (c :: source)) (o + 1) rest
    | _, depth =>
      templateRest start text chunks (.code from' depth (c :: source)) (o + c.utf8Size) rest
  | .quoted quote escaped from' depth source, o, c :: rest =>
    let mode :=
      if escaped then .quoted quote false from' depth (c :: source)
      else if c = '\\' then .quoted quote true from' depth (c :: source)
      else if c = quote then .code from' depth (c :: source)
      else .quoted quote false from' depth (c :: source)
    templateRest start text chunks mode (o + c.utf8Size) rest

/-- Takes the characters of a spelling off the front of a text. -/
def strip? : List Char → List Char → Option (List Char)
  | [], cs => some cs
  | p :: ps, c :: cs => if p = c then strip? ps cs else none
  | _ :: _, [] => none

/-- The text behind a punctuator.  A question mark and a point before a digit are two tokens. -/
def behind? (cs : List Char) (p : Punctuator) : Option (Punctuator × List Char) :=
  match strip? p.spelling.toList cs with
  | some rest => if p = .optionalChain && startsWith Char.isDigit rest then none else some (p, rest)
  | none => none

/-- A punctuator. -/
def punctuator (p : Place) : Except ScriptError (TokenKind × Place) :=
  match Punctuator.all.findSome? (behind? p.rest) with
  | some (q, rest) => .ok (.punctuator q, ⟨rest, p.offset + q.spelling.utf8ByteSize⟩)
  | none =>
    let c := p.rest.headD ' '
    .error (.syntaxAt ("Invalid or unexpected token '" ++ c.toString ++ "'") p.offset)

/-- The token at the front of a text that does not start with blanks. -/
def token (p : Place) : Except ScriptError (TokenKind × Place) :=
  match p.rest with
  | [] => .ok (.eof, p)
  | c :: rest =>
    if c.isDigit || (c == '.' && startsWith Char.isDigit rest) then number p
    else if c = '"' ∨ c = '\'' then
      (stringRest c p.offset [] 0 (p.offset + 1) rest).map fun (s, p) => (.string s, p)
    else if c = backquote then
      (templateRest p.offset [] [] (.text 0) 1 rest).map
        fun (chunks, p) => (.template chunks, p)
    else if isNameStart c then
      let (name, p) := spanAt isNameChar p
      .ok (.word (String.ofList name), p)
    else punctuator p

/-- The tokens from a place on, the last of them `eof`.  `fuel` exceeds the number of characters to
come, and `done` holds the tokens already read, last first. -/
def tokens (done : List Token) : Nat → Place → Except ScriptError (List Token)
  | 0, p => .ok (done.reverse ++ [⟨.eof, p.offset⟩])
  | fuel + 1, p => do
    let p ← trivia .blanks p.offset p.rest
    if p.rest.isEmpty then .ok (done.reverse ++ [⟨.eof, p.offset⟩])
    else
      let (kind, next) ← token p
      tokens (⟨kind, p.offset⟩ :: done) fuel next

end Scan

/-- The tokens of a source text, with `eof` at the end. -/
def tokenize (source : String) : Except ScriptError (List Token) :=
  let cs := source.toList
  Scan.tokens [] (cs.length + 1) ⟨cs, 0⟩

end Stencil.Script
