import Stencil.Json.Basic
import Stencil.Number.Read
/-!
# Reading JSON

`Json.parse` reads one JSON text.  Its errors say what was expected and where: the line, and the
number of bytes read on that line.

Numbers that fit into 64 bits are kept as integers.  Other numbers are read with the first digits
that fit into 64 bits, converted to a double, and scaled by one power of ten, so the last digit of a
long fraction may differ from the nearest double.
-/
namespace Stencil.Json

/-- Why a text is not JSON. -/
inductive ErrorCause where
  | endInList
  | endInObject
  | endInString
  | endInValue
  | expectedColon
  | expectedListEnd
  | expectedObjectEnd
  | expectedIdent
  | expectedValue
  | invalidEscape
  | invalidNumber
  | numberOutOfRange
  | controlCharacter
  | keyNotString
  | loneSurrogate
  | trailingComma
  | trailingCharacters
  | endOfHexEscape
  | recursionLimit
  deriving Repr, DecidableEq

/-- The wording of a cause. -/
def ErrorCause.message : ErrorCause → String
  | .endInList => "EOF while parsing a list"
  | .endInObject => "EOF while parsing an object"
  | .endInString => "EOF while parsing a string"
  | .endInValue => "EOF while parsing a value"
  | .expectedColon => "expected `:`"
  | .expectedListEnd => "expected `,` or `]`"
  | .expectedObjectEnd => "expected `,` or `\x7d`"
  | .expectedIdent => "expected ident"
  | .expectedValue => "expected value"
  | .invalidEscape => "invalid escape"
  | .invalidNumber => "invalid number"
  | .numberOutOfRange => "number out of range"
  | .controlCharacter => "control character (\\u0000-\\u001F) found while parsing a string"
  | .keyNotString => "key must be a string"
  | .loneSurrogate => "lone leading surrogate in hex escape"
  | .trailingComma => "trailing comma"
  | .trailingCharacters => "trailing characters"
  | .endOfHexEscape => "unexpected end of hex escape"
  | .recursionLimit => "recursion limit exceeded"

/-- A reading error: its cause, and the line and column where the reader stood. -/
structure ReadError where
  cause : ErrorCause
  line : Nat
  column : Nat
  deriving Repr, DecidableEq

/-- The text of a reading error. -/
def ReadError.message (e : ReadError) : String :=
  s!"{e.cause.message} at line {e.line} column {e.column}"

/-- Where the reader stands: the characters still to come, the line, and the bytes already read on
that line. -/
structure Reader where
  rest : List Char
  line : Nat
  column : Nat

/-- What reading a part of the text gives. -/
abbrev Result (α : Type) := Except ReadError (α × Reader)

namespace Reader

/-- The reader at the start of a text. -/
def start (cs : List Char) : Reader := ⟨cs, 1, 0⟩

/-- Moves over a character that stands at the front of the rest. -/
def past (r : Reader) (c : Char) (rest : List Char) : Reader :=
  if c = '\n' then ⟨rest, r.line + 1, 0⟩ else ⟨rest, r.line, r.column + c.utf8Size⟩

/-- An error where the reader stands. -/
def fail {α : Type} (r : Reader) (cause : ErrorCause) : Except ReadError α :=
  .error ⟨cause, r.line, r.column⟩

/-- An error at the character in front of the reader, whose first byte counts as read. -/
def failAhead {α : Type} (r : Reader) (cause : ErrorCause) : Except ReadError α :=
  match r.rest with
  | [] => r.fail cause
  | '\n' :: _ => .error ⟨cause, r.line + 1, 0⟩
  | _ :: _ => .error ⟨cause, r.line, r.column + 1⟩

/-- Whether the character separates tokens. -/
def isSpace (c : Char) : Bool :=
  c == ' ' || c == '\n' || c == '\t' || c == '\r'

/-- Skips the characters that separate tokens. -/
def skipSpaces (r : Reader) : Reader :=
  go r.line r.column r.rest
where
  /-- Walks over the rest, keeping the position. -/
  go (line column : Nat) : List Char → Reader
    | [] => ⟨[], line, column⟩
    | c :: cs =>
      if c = '\n' then go (line + 1) 0 cs
      else if isSpace c then go line (column + 1) cs
      else ⟨c :: cs, line, column⟩

/-- Skips decimal digits. -/
def skipDigits (r : Reader) : Reader :=
  let (ds, rest) := r.rest.span Char.isDigit
  ⟨rest, r.line, r.column + ds.length⟩

/-- Reads the letters of a word that has begun. -/
def word {α : Type} (value : α) : List Char → Reader → Result α
  | [], r => .ok (value, r)
  | w :: ws, r =>
    match r.rest with
    | [] => r.fail .endInValue
    | c :: rest => if c = w then word value ws (r.past c rest) else r.failAhead .expectedIdent

end Reader

/-! ### Numbers -/

/-- The bound below which digits are collected exactly. -/
def significandBound : Nat := Nat.pow 2 64

/-- The double for `significand * 10 ^ exponent`, scaled in steps of at most `10 ^ 308`; `none` if
it is out of range.  Exponents below `-1000` give zero. -/
def scaled? (significand : Nat) (exponent : Int) : Option Float :=
  let f := significand.toUInt64.toFloat
  if 0 ≤ exponent then
    if 308 < exponent then if significand = 0 then some f else none
    else
      let x := f * Number.ofDecimal false 1 exponent
      if Number.isFinite x then some x else none
  else if -308 ≤ exponent then some (f / Number.ofDecimal false 1 (-exponent))
  else if -616 ≤ exponent then
    some (f / 1e308 / Number.ofDecimal false 1 (-exponent - 308))
  else some 0.0

/-- A double from its collected digits and exponent. -/
def realNumber (negative : Bool) (significand : Nat) (exponent : Int) (r : Reader) :
    Result Json.Number :=
  match scaled? significand exponent with
  | some x => .ok (.real (if negative then -x else x), r)
  | none => r.fail .numberOutOfRange

/-- The bound below which the digits of an exponent are collected. -/
def exponentBound : Nat := Nat.pow 2 31

/-- Reads the digits of an exponent: its size and the reader behind it, or, where the size passes
the bound, the reader behind the digit that does so. -/
def exponentDigits (size : Nat) (line column : Nat) : List Char → Except Reader (Nat × Reader)
  | [] => .ok (size, ⟨[], line, column⟩)
  | c :: cs =>
    if c.isDigit then
      let next := size * 10 + (c.toNat - '0'.toNat)
      if next < exponentBound then exponentDigits next line (column + 1) cs
      else .error ⟨cs, line, column + 1⟩
    else .ok (size, ⟨c :: cs, line, column⟩)

/-- The part of a number after the mark of its exponent, which starts the rest. -/
def exponentPart (negative : Bool) (significand : Nat) (before : Int) (r : Reader) :
    Result Json.Number :=
  let r : Reader := ⟨r.rest.drop 1, r.line, r.column + 1⟩
  let (down, r) : Bool × Reader := match r.rest with
    | '+' :: rest => (false, ⟨rest, r.line, r.column + 1⟩)
    | '-' :: rest => (true, ⟨rest, r.line, r.column + 1⟩)
    | _ => (false, r)
  match r.rest with
  | [] => r.fail .endInValue
  | c :: _ =>
    if c.isDigit then
      match exponentDigits 0 r.line r.column r.rest with
      | .ok (size, after) =>
        realNumber negative significand (if down then before - size else before + size) after
      | .error past =>
        if significand ≠ 0 ∧ !down then past.fail .numberOutOfRange
        else .ok (.real (if negative then -0.0 else 0.0), past.skipDigits)
    else r.failAhead .invalidNumber

/-- Collects digits as long as the number stays below the bound; the rest of the digits is left. -/
def collect (significand : Nat) : Nat → List Char → Nat × Nat × List Char
  | n, [] => (significand, n, [])
  | n, c :: cs =>
    if c.isDigit then
      let next := significand * 10 + (c.toNat - '0'.toNat)
      if next < significandBound then collect next (n + 1) cs else (significand, n, c :: cs)
    else (significand, n, c :: cs)

/-- The part of a number after its point, which starts the rest. -/
def fractionPart (negative : Bool) (significand : Nat) (before : Int) (r : Reader) :
    Result Json.Number :=
  let r : Reader := ⟨r.rest.drop 1, r.line, r.column + 1⟩
  let (significand, places, rest) := collect significand 0 r.rest
  let r : Reader := ⟨rest, r.line, r.column + places⟩
  let more := match rest with
    | c :: _ => c.isDigit
    | [] => false
  if places = 0 && !more then
    match rest with
    | [] => r.failAhead .endInValue
    | _ => r.failAhead .invalidNumber
  else
    let r := r.skipDigits
    match r.rest with
    | 'e' :: _ | 'E' :: _ => exponentPart negative significand (before - places) r
    | _ => realNumber negative significand (before - places) r

/-- What follows the whole digits of a number. -/
def afterWhole (negative : Bool) (significand : Nat) (dropped : Nat) (r : Reader) :
    Result Json.Number :=
  match r.rest with
  | '.' :: _ => fractionPart negative significand dropped r
  | 'e' :: _ | 'E' :: _ => exponentPart negative significand dropped r
  | _ =>
    if 0 < dropped then realNumber negative significand dropped r
    else if !negative then .ok (.integer significand, r)
    else if significand = 0 ∨ Nat.pow 2 63 < significand then
      .ok (.real (-(significand.toUInt64.toFloat)), r)
    else .ok (.integer (-(significand : Int)), r)

/-- A number whose sign has been read. -/
def readNumber (negative : Bool) (r : Reader) : Result Json.Number :=
  match r.rest with
  | [] => r.fail .endInValue
  | '0' :: rest =>
    let r := r.past '0' rest
    match rest with
    | c :: _ => if c.isDigit then r.failAhead .invalidNumber else afterWhole negative 0 0 r
    | [] => afterWhole negative 0 0 r
  | c :: _ =>
    if c.isDigit then
      let (significand, taken, after) := collect 0 0 r.rest
      let r : Reader := ⟨after, r.line, r.column + taken⟩
      let r' := r.skipDigits
      afterWhole negative significand (r'.column - r.column) r'
    else r.failAhead .invalidNumber

/-! ### Strings -/

/-- The value of four hexadecimal digits and the reader behind them. -/
def hexEscape (r : Reader) : Result Nat :=
  match r.rest with
  | a :: b :: c :: d :: rest =>
    match [a, b, c, d].mapM (Text.digitValue? 16) with
    | some ds => .ok (ds.foldl (fun n k => n * 16 + k) 0, ⟨rest, r.line, r.column + 4⟩)
    | none => short r
  | _ => short r
where
  /-- The error where not four digits follow: in the fourth byte, or at the end of the text. -/
  short (r : Reader) : Result Nat :=
    let size := r.rest.foldl (fun n c => n + c.utf8Size) 0
    if 4 ≤ size then
      let bytes := (r.rest.flatMap fun c => c :: List.replicate (c.utf8Size - 1) 'x').take 4
      match bytes.reverse.findIdx? (· == '\n') with
      | some k =>
        .error ⟨.invalidEscape, r.line + (bytes.filter (· == '\n')).length, k⟩
      | none => .error ⟨.invalidEscape, r.line, r.column + 4⟩
    else (r.rest.foldl (fun r c => r.past c []) r).fail .endInString

/-- The character of a `\u` escape, whose two characters have been read. -/
def unicodeEscape (r : Reader) : Except ReadError (Char × Reader) := do
  let (n, r) ← hexEscape r
  if 0xDC00 ≤ n ∧ n ≤ 0xDFFF then r.fail .loneSurrogate
  else if n < 0xD800 ∨ 0xDBFF < n then .ok (Char.ofNat n, r)
  else
    match r.rest with
    | [] => r.fail .endInString
    | '\\' :: rest =>
      let r := r.past '\\' rest
      match rest with
      | [] => r.fail .endInString
      | 'u' :: rest =>
        let (low, r) ← hexEscape (r.past 'u' rest)
        if low < 0xDC00 ∨ 0xDFFF < low then r.fail .loneSurrogate
        else .ok (Char.ofNat ((n - 0xD800) * 1024 + (low - 0xDC00) + 0x10000), r)
      | _ => r.failAhead .endOfHexEscape
    | _ => r.failAhead .endOfHexEscape

/-- The character of an escape whose backslash has been read. -/
def escape (r : Reader) : Result Char :=
  match r.rest with
  | [] => r.fail .endInString
  | c :: rest =>
    let after := r.past c rest
    match c with
    | '"' | '\\' | '/' => .ok (c, after)
    | 'b' => .ok ('\x08', after)
    | 'f' => .ok ('\x0c', after)
    | 'n' => .ok ('\n', after)
    | 'r' => .ok ('\r', after)
    | 't' => .ok ('\t', after)
    | 'u' => unicodeEscape after
    | _ => r.failAhead .invalidEscape

/-- The characters of a string up to its closing quote.  `done` holds those already read, last
first, and `fuel` exceeds the number of characters to come. -/
def stringRest (done : List Char) : Nat → Reader → Result String
  | 0, r => r.fail .endInString
  | fuel + 1, r =>
    match r.rest with
    | [] => r.fail .endInString
    | '"' :: rest => .ok (String.ofList done.reverse, r.past '"' rest)
    | '\\' :: rest =>
      match escape (r.past '\\' rest) with
      | .ok (c, r) => stringRest (c :: done) fuel r
      | .error e => .error e
    | c :: rest =>
      if c.toNat < 0x20 then r.failAhead .controlCharacter
      else stringRest (c :: done) fuel (r.past c rest)

/-- A string whose opening quote has been read; `size` exceeds the length of the rest. -/
def readString (size : Nat) (r : Reader) : Result String :=
  stringRest [] size r

/-! ### Values -/

/-- The items of a list behind its opening bracket or behind an item; `done` holds those already
read, last first. -/
def readItems (value : Reader → Result Json) (done : List Json) : Nat → Reader → Result (List Json)
  | 0, r => r.fail .endInList
  | fuel + 1, r =>
    let r := r.skipSpaces
    match r.rest with
    | [] => r.failAhead .endInList
    | ']' :: rest => .ok (done.reverse, r.past ']' rest)
    | c :: rest =>
      let item (r : Reader) : Result (List Json) :=
        match value r with
        | .ok (j, r) => readItems value (j :: done) fuel r
        | .error e => .error e
      if done.isEmpty then item r
      else if c = ',' then
        let r := (r.past ',' rest).skipSpaces
        match r.rest with
        | [] => r.failAhead .endInValue
        | ']' :: _ => r.failAhead .trailingComma
        | _ => item r
      else r.failAhead .expectedListEnd

/-- The members of an object behind its opening brace or behind a member. -/
def readMembers (size : Nat) (value : Reader → Result Json) (done : List (String × Json))
    (first : Bool) : Nat → Reader → Result (List (String × Json))
  | 0, r => r.fail .endInObject
  | fuel + 1, r =>
    let r := r.skipSpaces
    let one (r : Reader) : Result (List (String × Json)) :=
      match r.rest with
      | [] => r.failAhead .endInValue
      | '"' :: rest =>
        match readString size (r.past '"' rest) with
        | .error e => .error e
        | .ok (key, r) =>
          let r := r.skipSpaces
          match r.rest with
          | [] => r.failAhead .endInObject
          | ':' :: rest =>
            match value (r.past ':' rest) with
            | .ok (j, r) => readMembers size value (insertMember key j done) false fuel r
            | .error e => .error e
          | _ => r.failAhead .expectedColon
      | '\x7d' :: _ => r.failAhead .trailingComma
      | _ => r.failAhead .keyNotString
    match r.rest with
    | [] => r.failAhead .endInObject
    | '\x7d' :: rest => .ok (done, r.past '\x7d' rest)
    | c :: rest =>
      if first then one r
      else if c = ',' then one (r.past ',' rest).skipSpaces
      else r.failAhead .expectedObjectEnd

/-- A value.  `size` exceeds the length of the rest, and `depth` is the number of containers that
may still be entered, plus one. -/
def readValue (size : Nat) : Nat → Reader → Result Json
  | 0, r => r.failAhead .recursionLimit
  | depth + 1, r =>
    let r := r.skipSpaces
    match r.rest with
    | [] => r.failAhead .endInValue
    | 'n' :: rest => Reader.word .null "ull".toList (r.past 'n' rest)
    | 't' :: rest => Reader.word (.bool true) "rue".toList (r.past 't' rest)
    | 'f' :: rest => Reader.word (.bool false) "alse".toList (r.past 'f' rest)
    | '"' :: rest => (readString size (r.past '"' rest)).map fun (s, r) => (.string s, r)
    | '[' :: rest =>
      if depth = 0 then r.failAhead .recursionLimit
      else (readItems (readValue size depth) [] size (r.past '[' rest)).map
        fun (xs, r) => (.array xs, r)
    | '\x7b' :: rest =>
      if depth = 0 then r.failAhead .recursionLimit
      else (readMembers size (readValue size depth) [] true size (r.past '\x7b' rest)).map
        fun (ms, r) => (.object ms, r)
    | '-' :: rest => (readNumber true (r.past '-' rest)).map fun (n, r) => (.number n, r)
    | c :: _ =>
      if c.isDigit then (readNumber false r).map fun (n, r) => (.number n, r)
      else r.failAhead .expectedValue

/-- The number of nested containers at which reading gives up. -/
def nestingLimit : Nat := 128

/-- Reads a JSON text. -/
def parse (text : String) : Except ReadError Json := do
  let cs := text.toList
  let (j, r) ← readValue (cs.length + 1) nestingLimit (Reader.start cs)
  let r := r.skipSpaces
  if r.rest.isEmpty then .ok j else r.failAhead .trailingCharacters

end Stencil.Json
