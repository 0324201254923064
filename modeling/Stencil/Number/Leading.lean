import Stencil.Number.Read
/-!
# Numbers at the start of a text

`leadingInteger` and `leadingDecimal` read as much of a text as looks like a number and ignore the
rest.
-/
namespace Stencil.Number
open Stencil.Text

/-- The value of digits added up in doubles, or `none` if there is no digit. -/
def sumDigits (base : Nat) (cs : List Char) : Option Float :=
  match cs.takeWhile (fun c => (digitValue? base c).isSome) with
  | [] => none
  | ds => some (ds.foldl (fun x c => x * ofNat base + ofNat ((digitValue? base c).getD 0)) 0)

/-- A text without the mark of hexadecimal numbers, if it starts with it. -/
def dropHexMark? : List Char → Option (List Char)
  | '0' :: 'x' :: cs | '0' :: 'X' :: cs => some cs
  | _ => none

/-- The integer in a base at the start of a text, after blanks and a sign.  Without a base (or with
base zero) it is ten, or sixteen after the mark of hexadecimal numbers. -/
def leadingInteger (s : String) (base : Option Nat) : Float :=
  let (negative, cs) := takeSign (s.toList.dropWhile isBlank)
  let found := match base.getD 0 with
    | 0 => match dropHexMark? cs with
      | some cs => sumDigits 16 cs
      | none => sumDigits 10 cs
    | 16 => sumDigits 16 ((dropHexMark? cs).getD cs)
    | base => if 2 ≤ base ∧ base ≤ 36 then sumDigits base cs else none
  match found with
  | some x => if negative then -x else x
  | none => notANumber

/-- An exponent with at least one digit at the start of a text, or nothing. -/
def leadingExponent (cs : List Char) : List Char :=
  match cs with
  | mark :: rest =>
    if mark = 'e' ∨ mark = 'E' then
      let (sign, rest) := rest.span fun c => c == '+' || c == '-'
      let digits := rest.takeWhile isDecimalDigit
      if sign.length ≤ 1 && !digits.isEmpty then mark :: sign ++ digits else []
    else []
  | [] => []

/-- The longest decimal without a sign at the start of a text, with digits of any script. -/
def leadingDecimalChars (cs : List Char) : Option (List Char) :=
  let infinite := "Infinity".toList
  if infinite.isPrefixOf cs then some infinite
  else
    match cs.span isDecimalDigit with
    | (whole@(_ :: _), '.' :: rest) =>
      let (places, rest) := rest.span isDecimalDigit
      some (whole ++ '.' :: places ++ leadingExponent rest)
    | (whole@(_ :: _), rest) => some (whole ++ leadingExponent rest)
    | ([], '.' :: rest) =>
      match rest.span isDecimalDigit with
      | (places@(_ :: _), rest) => some ('.' :: places ++ leadingExponent rest)
      | _ => none
    | _ => none

/-- The decimal at the start of a text, after blanks and a sign. -/
def leadingDecimal (s : String) : Float :=
  let cs := s.toList.dropWhile isBlank
  let (sign, rest) := match cs with
    | '+' :: rest => (['+'], rest)
    | '-' :: rest => (['-'], rest)
    | rest => ([], rest)
  match leadingDecimalChars rest with
  | some found => ofText (String.ofList (sign ++ found))
  | none => notANumber

end Stencil.Number
