import Stencil.Diagnosis.Kind
import Stencil.Text.Pattern
/-!
# Kinds of messages

The kind of a failure of which nothing but a message is known.  The rules look for phrases in any
case, and the first rule with a match decides.
-/
namespace Stencil.Diagnosis
open Stencil.Text Pattern

/-- The letter that two spellings share: the lower-case ASCII letter for capitals, for the long `s`
and for the sign of the kelvin. -/
def folded (c : Char) : Char :=
  if c.toNat = 0x17F then 's' else if c.toNat = 0x212A then 'k' else c.toLower

/-- A given phrase in any case. -/
def phrase (s : String) : Pattern :=
  sequence (s.toList.map fun c => .one (folded · == folded c))

/-- One of several given phrases in any case. -/
def phrases (ss : List String) : Pattern :=
  oneOf (ss.map phrase)

/-- Anything within a line. -/
def withinLine : Pattern :=
  .many (· != '\n') 0 none

/-- What the messages of each kind hold, in the order in which the kinds are tried. -/
def messageRules : List (Kind × Pattern) :=
  [(.moduleNotAllowed,
      .alt (sequence [phrase "module", .boundary, withinLine, .boundary, phrase "not ",
        phrases ["allowed", "available"]]) (phrase "cannot find module")),
    (.timeout,
      oneOf [sequence [phrase "time", optional (phrase "d"), optional (phrase " "), phrase "out"],
        phrase "deadline",
        sequence [phrase "exceeded ", .many isDecimalDigit 1 none, optional (phrase " "),
          phrase "ms"],
        sequence [phrase "cancel", optional (phrase "l"), phrase "ed"]]),
    (.forbidden, phrases ["security", "denied", "forbidden", "not allowed", "blocked"]),
    (.nesting, phrases ["call stack", "depth exceeded", "too much recursion"]),
    (.iterations, phrases ["iteration limit", "too many iterations"]),
    (.invalidJson,
      .alt (sequence [.boundary, phrase "json", .boundary])
        (sequence [phrase "unexpected token ", withinLine, phrase " in json"])),
    (.malformed,
      oneOf [phrase "syntax",
        sequence [phrase "unexpected ", phrases ["token", "end", "character"]],
        phrase "unterminated", phrase "missing )"]),
    (.unbound, phrases ["is not defined", "undeclared"]),
    (.wrongType,
      oneOf [phrase "is not a function", phrase "cannot read propert",
        sequence [phrase "is ", phrases ["null", "undefined"]], phrase "read-only"]),
    (.invalidHelper, phrases ["does not return", "not a function definition", "helper"])]

/-- The kind that a message speaks of. -/
def Kind.ofMessage (message : String) : Kind :=
  let cs := message.toList
  ((messageRules.find? fun (_, p) => (p.find? cs).isSome).map (·.1)).getD .unknown

end Stencil.Diagnosis
