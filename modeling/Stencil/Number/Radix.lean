import Stencil.Number.Format
import Stencil.Text.Class
/-!
# Integers in other bases

`radixText` writes an integral number in a base from two to thirty-six; any other number or base
falls back on the decimal text.
-/
namespace Stencil.Number

/-- The digits of a natural number in a base of at least two, most significant first; none for
zero. -/
def radixDigits (base : Nat) (n : Nat) : List Char :=
  go n [] (n.log2 + 1)
where
  /-- Puts the digits of `n` before those already found; `fuel` bounds their number. -/
  go (n : Nat) (found : List Char) : Nat → List Char
    | 0 => found
    | fuel + 1 =>
      if n = 0 then found else go (n / base) (Text.digitChar (n % base) :: found) fuel

/-- The largest magnitude whose digits are written; greater ones are taken for it. -/
def radixCeiling : Nat := Nat.pow 2 128 - 1

/-- The text of a number in a base. -/
def radixText (x : Float) (base : Nat) : String :=
  if base < 2 || 36 < base || base == 10 || !isInteger x then text x
  else
    let n := min (truncate x).natAbs radixCeiling
    if n = 0 then "0" else signed (x < 0) (radixDigits base n)

/-- Inserts a comma before every group of three digits. -/
def groupThousands (ds : List Char) : List Char :=
  go ds ds.length true
where
  /-- `left` is the number of digits still to come, `first` whether none was written yet. -/
  go : List Char → Nat → Bool → List Char
    | [], _, _ => []
    | d :: ds, left, first =>
      let rest := d :: go ds (left - 1) false
      if !first && left % 3 == 0 then ',' :: rest else rest

/-- A number for readers: groups of three digits and at most three places. -/
def groupedText (x : Float) : String :=
  match Parts.ofFloat x with
  | .finite _ m e =>
    let (whole, fraction) := (fixedDigits m e 3).span (· != '.')
    let kept := ((fraction.drop 1).reverse.dropWhile (· == '0')).reverse
    let grouped := groupThousands whole
    signed (x < 0) (if kept.isEmpty then grouped else grouped ++ '.' :: kept)
  | _ => text x

end Stencil.Number
