import Stencil.Number.Binary
import Stencil.Text.Class
/-!
# Numbers from text

The two ways in which the library reads a number: a decimal with nothing around it, and the
conversion of a script text, which also knows blanks, infinities and hexadecimal numbers.
-/
namespace Stencil.Number

/-- The number that a sequence of digits denotes. -/
def natOfDigits (base : Nat) (cs : List Char) : Nat :=
  cs.foldl (fun n c => n * base + (Text.digitValue? base c).getD 0) 0

/-- Digits of a base at the start of a text, and the rest. -/
def spanDigits (base : Nat) (cs : List Char) : List Char × List Char :=
  cs.span fun c => (Text.digitValue? base c).isSome

/-- A sign at the start of a text, and the rest. -/
def takeSign : List Char → Bool × List Char
  | '+' :: cs => (false, cs)
  | '-' :: cs => (true, cs)
  | cs => (false, cs)

/-- The exponent part of a decimal: nothing, or a mark, an optional sign and digits up to the
end. -/
def exponent? : List Char → Option Int
  | [] => some 0
  | c :: cs =>
    if c = 'e' ∨ c = 'E' then
      let (negative, cs) := takeSign cs
      match spanDigits 10 cs with
      | (ds@(_ :: _), []) =>
        let n : Int := natOfDigits 10 ds
        some (if negative then -n else n)
      | _ => none
    else none

/-- Reads a decimal: a sign, digits with at most one point among them, an exponent. -/
def readDecimal? (cs : List Char) : Option Float :=
  let (negative, cs) := takeSign cs
  let (whole, rest) := spanDigits 10 cs
  let (fraction, rest) := match rest with
    | '.' :: rest => spanDigits 10 rest
    | rest => ([], rest)
  if whole.isEmpty && fraction.isEmpty then none
  else (exponent? rest).map fun e =>
    ofDecimal negative (natOfDigits 10 (whole ++ fraction)) (e - fraction.length)

/-- Reads a number below `bound` in the given base, with an optional plus sign. -/
def readBounded? (base bound : Nat) (cs : List Char) : Option Nat :=
  let cs := match cs with
    | '+' :: rest => rest
    | cs => cs
  match spanDigits base cs with
  | (ds@(_ :: _), []) => some (natOfDigits base ds) |>.filter (· < bound)
  | _ => none

/-- The text without blanks at either end. -/
def trimBlanks (cs : List Char) : List Char :=
  ((cs.dropWhile Text.isBlank).reverse.dropWhile Text.isBlank).reverse

/-- Characters that a decimal may hold. -/
def isDecimalChar (c : Char) : Bool :=
  c.isDigit || c == '.' || c == 'e' || c == 'E' || c == '+' || c == '-'

/-- What is no number. -/
def notANumber : Float := 0.0 / 0.0

/-- The positive infinity. -/
def infinity : Float := 1.0 / 0.0

/-- The number that a script text converts to. -/
def ofText (s : String) : Float :=
  match trimBlanks s.toList with
  | [] => 0.0
  | '0' :: 'x' :: hex | '0' :: 'X' :: hex =>
    ((readBounded? 16 (Nat.pow 2 64) hex).map ofNat).getD notANumber
  | cs =>
    if cs = "Infinity".toList ∨ cs = "+Infinity".toList then infinity
    else if cs = "-Infinity".toList then -infinity
    else if cs.all isDecimalChar then (readDecimal? cs).getD notANumber
    else notANumber

/-- The index that a property name denotes: an unsigned decimal below `2 ^ 64`. -/
def index? (s : String) : Option Nat :=
  readBounded? 10 (Nat.pow 2 64) s.toList

end Stencil.Number
