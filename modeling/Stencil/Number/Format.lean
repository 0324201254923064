import Stencil.Number.Shortest
/-!
# Numbers as text

The texts of a double in the formats that the library writes: plain positional, scientific, the
format of script values, the format of JSON, and a fixed number of places.
-/
namespace Stencil.Number

/-- The digits of a natural number. -/
def digitsOf (n : Nat) : List Char :=
  Nat.toDigits 10 n

/-- A decimal without exponent: zeros fill the places before or after the digits. -/
def Decimal.positional (d : Decimal) : List Char :=
  let ds := digitsOf d.digits
  if 0 ≤ d.exponent then ds ++ List.replicate d.exponent.toNat '0'
  else
    let places := (-d.exponent).toNat
    if places < ds.length then ds.take (ds.length - places) ++ '.' :: ds.drop (ds.length - places)
    else ['0', '.'] ++ List.replicate (places - ds.length) '0' ++ ds

/-- The exponent of the first digit. -/
def Decimal.leading (d : Decimal) : Int :=
  d.exponent + (digitsOf d.digits).length - 1

/-- One digit, the others after a point, and the signed exponent. -/
def Decimal.scientific (d : Decimal) : List Char :=
  let mantissa := match digitsOf d.digits with
    | [] => []
    | [c] => [c]
    | c :: cs => c :: '.' :: cs
  let e := d.leading
  mantissa ++ 'e' :: (if e < 0 then '-' :: digitsOf e.natAbs else '+' :: digitsOf e.natAbs)

/-- Writes the sign in front of a text. -/
def signed (negative : Bool) (cs : List Char) : String :=
  String.ofList (if negative then '-' :: cs else cs)

/-- Positional text with the fewest digits that read back, at any size. -/
def plainText (x : Float) : String :=
  match Parts.ofFloat x with
  | .nan => "NaN"
  | .infinite negative => signed negative ['i', 'n', 'f']
  | .finite negative 0 _ => signed negative ['0']
  | .finite negative m e => signed negative (shortest .away m e).positional

/-- The text of a number in the script language.  Integers below `10 ^ 21` are written in full,
other numbers from `10 ^ -6` up to that bound positionally, and the rest with an exponent. -/
def text (x : Float) : String :=
  match Parts.ofFloat x with
  | .nan => "NaN"
  | .infinite false => "Infinity"
  | .infinite true => "-Infinity"
  | .finite _ 0 _ => "0"
  | .finite negative m e =>
    let size := x.abs
    if size < 1e-6 || !(size < 1e21) then signed negative ((shortest .away m e).scientific)
    else if isInteger x then signed negative (digitsOf (wholePart m e))
    else signed negative (shortest .away m e).positional

/-- The text of a number that JSON does not hold as an integer: positional while the point stands at
most sixteen places right or five places left of the first digit, and always with a point or an
exponent. -/
def jsonText (x : Float) : String :=
  match Parts.ofFloat x with
  | .nan | .infinite _ => "null"
  | .finite negative 0 _ => signed negative ['0', '.', '0']
  | .finite negative m e =>
    let d := shortest .even m e
    let point := d.leading + 1
    if -5 < point && point ≤ 16 then
      signed negative (if 0 ≤ d.exponent then d.positional ++ ['.', '0'] else d.positional)
    else signed negative (d.scientific)

/-- The quotient rounded to the nearest integer, a half going to the even neighbour. -/
def roundDiv (num den : Nat) : Nat :=
  let q := num / den
  let r := num % den
  if 2 * r < den then q
  else if 2 * r = den then q + q % 2
  else q + 1

/-- The magnitude `m * 2 ^ e` with exactly `places` digits after the point. -/
def fixedDigits (m : Nat) (e : Int) (places : Nat) : List Char :=
  let n := roundDiv (m * Nat.pow 10 places * Nat.pow 2 e.toNat) (Nat.pow 2 (-e).toNat)
  let ds := digitsOf n
  let padded := List.replicate (places + 1 - ds.length) '0' ++ ds
  let cut := padded.length - places
  if places = 0 then padded else padded.take cut ++ '.' :: padded.drop cut

/-- A finite number with exactly `places` digits after the point. -/
def fixedText (x : Float) (places : Nat) : String :=
  match Parts.ofFloat x with
  | .finite negative m e => signed negative (fixedDigits m e places)
  | _ => text x

end Stencil.Number
