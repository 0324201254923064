/-!
# Doubles as exact numbers

A finite double is `mantissa * 2 ^ exponent` with a sign.  `Parts.ofFloat` takes it apart; the exact
operations of the library (text, rounding to places, remainders, conversion to integers) work on
the parts.
-/
namespace Stencil.Number

/-- What a double denotes. -/
inductive Parts where
  | nan
  | infinite (negative : Bool)
  | finite (negative : Bool) (mantissa : Nat) (exponent : Int)
  deriving Repr, DecidableEq

/-- Takes a double apart. -/
def Parts.ofFloat (x : Float) : Parts :=
  let bits : Nat := x.toBits.toNat
  let negative := bits / Nat.pow 2 63 == 1
  let biased : Nat := bits / Nat.pow 2 52 % Nat.pow 2 11
  let fraction : Nat := bits % Nat.pow 2 52
  if biased = 2047 then
    if fraction = 0 then .infinite negative else .nan
  else if biased = 0 then .finite negative fraction (-1074)
  else .finite negative (Nat.pow 2 52 + fraction) ((biased : Int) - 1075)

/-- The integer part of `mantissa * 2 ^ exponent`. -/
def wholePart (mantissa : Nat) : Int → Nat
  | .ofNat e => mantissa * Nat.pow 2 e
  | .negSucc e => mantissa / Nat.pow 2 (e + 1)

/-- The number without its fraction, `0` for what is not finite. -/
def truncate (x : Float) : Int :=
  match Parts.ofFloat x with
  | .finite negative m e => if negative then -(wholePart m e : Int) else wholePart m e
  | _ => 0

/-- Whether the double is a finite number. -/
def isFinite (x : Float) : Bool :=
  match Parts.ofFloat x with
  | .finite .. => true
  | _ => false

/-- Whether `mantissa * 2 ^ exponent` has no fraction. -/
def isWhole (mantissa : Nat) : Int → Bool
  | .ofNat _ => true
  | .negSucc e => mantissa % Nat.pow 2 (e + 1) == 0

/-- Whether the double is an integer. -/
def isInteger (x : Float) : Bool :=
  match Parts.ofFloat x with
  | .finite _ m e => isWhole m e
  | _ => false

/-- Whether the sign is negative, that of a zero included. -/
def isNegative (x : Float) : Bool :=
  x.toBits.toNat / Nat.pow 2 63 == 1

/-- Rounds toward zero, keeping the sign of a result that is zero. -/
def roundToZero (x : Float) : Float :=
  if x < 0 then x.ceil else x.floor

/-- The double for a number of at most 53 bits times a power of two. -/
def ofParts (negative : Bool) (mantissa : Nat) (exponent : Int) : Float :=
  let x := (Float.ofNat mantissa).scaleB exponent
  if negative then -x else x

/-- The remainder of a division that rounds toward zero; it has the sign of the dividend. -/
def remainder (x y : Float) : Float :=
  match Parts.ofFloat x, Parts.ofFloat y with
  | .finite negative m e, .finite _ n f =>
    if n = 0 then 0.0 / 0.0
    else if m = 0 then x
    else
      let common := min e f
      let rest := (m * Nat.pow 2 (e - common).toNat) % (n * Nat.pow 2 (f - common).toNat)
      ofParts negative rest common
  | .finite .., .infinite _ => x
  | _, _ => 0.0 / 0.0

/-- The nearest double to `digits * 10 ^ exponent`; sizes far outside the range of doubles are
decided without computing the power. -/
def ofDecimal (negative : Bool) (digits : Nat) (exponent : Int) : Float :=
  let x :=
    if digits = 0 then 0.0
    else
      let magnitude := exponent + (Nat.log2 digits : Int) * 30103 / 100000
      if magnitude > 400 then 1.0 / 0.0
      else if magnitude < -400 then 0.0
      else if 0 ≤ exponent then Float.ofScientific (digits * Nat.pow 10 exponent.toNat) false 0
      else Float.ofScientific digits true (-exponent).toNat
  if negative then -x else x

/-- The nearest double to a natural number. -/
def ofNat (n : Nat) : Float :=
  ofDecimal false n 0

/-- The nearest double to an integer. -/
def ofInt (i : Int) : Float :=
  ofDecimal (i < 0) i.natAbs 0

/-- The natural number that a double counts: its integer part, with negative numbers and what is no
number read as zero, and everything from `2 ^ 64 - 1` on as that. -/
def toCount (x : Float) : Nat :=
  x.toUInt64.toNat

end Stencil.Number
