/-!
# Tokens of scripts

The tokens that a script is made of.  A template literal is one token; its interpolations keep their
source text and how many bytes behind the start of the literal that text starts, so that what a
token is does not depend on where it stands.  Where the text starts in the script follows from where
the literal does (`Token.sources`).
-/
namespace Stencil.Script

/-- Operators and brackets. -/
inductive Punctuator where
  | strictEqual
  | strictNotEqual
  | powerAssign
  | ellipsis
  | arrow
  | equal
  | notEqual
  | lessEqual
  | greaterEqual
  | and
  | or
  | nullish
  | optionalChain
  | increment
  | decrement
  | plusAssign
  | minusAssign
  | timesAssign
  | divideAssign
  | remainderAssign
  | power
  | plus
  | minus
  | times
  | divide
  | remainder
  | less
  | greater
  | not
  | assign
  | openParen
  | closeParen
  | openBracket
  | closeBracket
  | openBrace
  | closeBrace
  | comma
  | semicolon
  | colon
  | dot
  | question
  deriving Repr, DecidableEq

namespace Punctuator

/-- How a punctuator is written. -/
def spelling : Punctuator → String
  | strictEqual => "==="
  | strictNotEqual => "!=="
  | powerAssign => "**="
  | ellipsis => "..."
  | arrow => "=>"
  | equal => "=="
  | notEqual => "!="
  | lessEqual => "<="
  | greaterEqual => ">="
  | and => "&&"
  | or => "||"
  | nullish => "??"
  | optionalChain => "?."
  | increment => "++"
  | decrement => "--"
  | plusAssign => "+="
  | minusAssign => "-="
  | timesAssign => "*="
  | divideAssign => "/="
  | remainderAssign => "%="
  | power => "**"
  | plus => "+"
  | minus => "-"
  | times => "*"
  | divide => "/"
  | remainder => "%"
  | less => "<"
  | greater => ">"
  | not => "!"
  | assign => "="
  | openParen => "("
  | closeParen => ")"
  | openBracket => "["
  | closeBracket => "]"
  | openBrace => "\x7b"
  | closeBrace => "\x7d"
  | comma => ","
  | semicolon => ";"
  | colon => ":"
  | dot => "."
  | question => "?"

/-- All punctuators, longer spellings first, so that the first match is the longest. -/
def all : List Punctuator :=
  [strictEqual, strictNotEqual, powerAssign, ellipsis, arrow, equal, notEqual, lessEqual,
    greaterEqual, and, or, nullish, optionalChain, increment, decrement, plusAssign, minusAssign,
    timesAssign, divideAssign, remainderAssign, power, plus, minus, times, divide, remainder, less,
    greater, not, assign, openParen, closeParen, openBracket, closeBracket, openBrace, closeBrace,
    comma, semicolon, colon, dot, question]

/-- Opening brackets of any shape. -/
def isOpen : Punctuator → Bool
  | openParen | openBracket | openBrace => true
  | _ => false

/-- Closing brackets of any shape. -/
def isClose : Punctuator → Bool
  | closeParen | closeBracket | closeBrace => true
  | _ => false

end Punctuator

/-- Pieces of a template literal. -/
inductive Chunk where
  | text (s : String)
  /-- The source of an interpolation and its offset from the start of the literal. -/
  | source (s : String) (offset : Nat)

/-- What a token is. -/
inductive TokenKind where
  | number (x : Float)
  | string (s : String)
  | template (chunks : List Chunk)
  | word (name : String)
  | punctuator (p : Punctuator)
  | eof

/-- A token and the byte offset where it starts. -/
structure Token where
  kind : TokenKind
  offset : Nat

/-- The source of an interpolation and where it stands, if the template literal does at `start`. -/
def Chunk.located? (start : Nat) : Chunk → Option (String × Nat)
  | .source s o => some (s, start + o)
  | .text _ => none

/-- The sources of the interpolations of a token, with the offsets where they stand. -/
def Token.sources (t : Token) : List (String × Nat) :=
  match t.kind with
  | .template chunks => chunks.filterMap (Chunk.located? t.offset)
  | _ => []

end Stencil.Script
