import Stencil.Text.Class
/-!
# Patterns

Patterns over texts, with the places where a match can end in the order of preference: the first
alternative before the second, and a repetition as long as possible.  `Pattern.find?` gives the
leftmost match, and among the matches that start there the preferred one.
-/
namespace Stencil.Text

/-- What a pattern matches. -/
inductive Pattern where
  /-- The empty text. -/
  | empty
  /-- One character of a class. -/
  | one (p : Char → Bool)
  /-- At least `least` and at most `most` characters of a class. -/
  | many (p : Char → Bool) (least : Nat) (most : Option Nat)
  /-- The beginning of the text. -/
  | textStart
  /-- A place between a character of a word and something else. -/
  | boundary
  /-- One pattern behind the other. -/
  | seq (a b : Pattern)
  /-- Either pattern, the first preferred. -/
  | alt (a b : Pattern)

namespace Pattern

/-- A place in a text: the character before it and the characters behind it. -/
structure Spot where
  before : Option Char
  rest : List Char

/-- Whether a place lies between a character of a word and something else. -/
def Spot.isBoundary (s : Spot) : Bool :=
  s.before.any isWordChar != s.rest.head?.any isWordChar

/-- The places after at least `least` and at most `most` characters of a class, the farthest first,
in front of those already `found`. -/
def greedy (p : Char → Bool) (least : Nat) (most : Option Nat) (found : List Spot)
    (before : Option Char) : List Char → List Spot
  | [] => if least = 0 then ⟨before, []⟩ :: found else found
  | c :: rest =>
    let found := if least = 0 then ⟨before, c :: rest⟩ :: found else found
    if p c && most != some 0 then greedy p (least - 1) (most.map (· - 1)) found (some c) rest
    else found

/-- Where a match that starts at a place can end, in the order of preference. -/
def ends : Pattern → Spot → List Spot
  | .empty, s => [s]
  | .one p, s =>
    match s.rest with
    | c :: rest => if p c then [⟨some c, rest⟩] else []
    | [] => []
  | .many p least most, s => greedy p least most [] s.before s.rest
  | .textStart, s => if s.before.isNone then [s] else []
  | .boundary, s => if s.isBoundary then [s] else []
  | .seq a b, s => (a.ends s).flatMap b.ends
  | .alt a b, s => a.ends s ++ b.ends s

/-- A match: the byte offset of its start and its characters. -/
structure Match where
  offset : Nat
  chars : List Char
  deriving Repr, DecidableEq

/-- The leftmost match at or behind a place that is `offset` bytes into the text. -/
def findFrom? (p : Pattern) (before : Option Char) (offset : Nat) : List Char → Option Match
  | [] => (p.ends ⟨before, []⟩).head?.map fun _ => ⟨offset, []⟩
  | c :: rest =>
    match p.ends ⟨before, c :: rest⟩ with
    | stop :: _ => some ⟨offset, (c :: rest).take (rest.length + 1 - stop.rest.length)⟩
    | [] => p.findFrom? (some c) (offset + c.utf8Size) rest

/-- The leftmost match in a text. -/
def find? (p : Pattern) (cs : List Char) : Option Match :=
  p.findFrom? none 0 cs

/-! ### Building patterns -/

/-- Patterns one behind the other. -/
def sequence (ps : List Pattern) : Pattern :=
  ps.foldr .seq .empty

/-- One of several patterns, the first preferred. -/
def oneOf : List Pattern → Pattern
  | [] => .one fun _ => false
  | [p] => p
  | p :: ps => .alt p (oneOf ps)

/-- A given text. -/
def text (s : String) : Pattern :=
  sequence (s.toList.map fun c => .one (· == c))

/-- One of several given texts. -/
def texts (ss : List String) : Pattern :=
  oneOf (ss.map text)

/-- A pattern or nothing. -/
def optional (p : Pattern) : Pattern :=
  .alt p .empty

/-- One of several given characters. -/
def anyOf (s : String) : Pattern :=
  .one fun c => s.contains c

/-- Any number of blanks. -/
def blanks : Pattern :=
  .many isBlank 0 none

/-- At least one blank. -/
def someBlanks : Pattern :=
  .many isBlank 1 none

/-- A given text that is no part of a longer word. -/
def word (s : String) : Pattern :=
  sequence [.boundary, text s, .boundary]

end Pattern
end Stencil.Text
