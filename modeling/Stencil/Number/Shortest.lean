import Stencil.Number.Binary
/-!
# The shortest decimal that reads back

`shortest tie m e` finds, for the positive double `m * 2 ^ e`, the decimal with the fewest digits in
the interval of numbers that round to that double, and of several the nearest (of two equally near
ones, `tie` picks).  It tries one digit, two digits and so on up to seventeen, which always suffice.
-/
namespace Stencil.Number

/-- The decimal `digits * 10 ^ exponent`. -/
structure Decimal where
  digits : Nat
  exponent : Int
  deriving Repr, DecidableEq

/-- A positive fraction `num / den` of which `low / den` and `high / den` bound the numbers that
round to the same double; `closed` says whether the bounds themselves do. -/
structure Interval where
  low : Nat
  num : Nat
  high : Nat
  den : Nat
  closed : Bool

/-- The interval of the double `m * 2 ^ e`.  Below a power of two the doubles lie twice as dense. -/
def Interval.of (m : Nat) (e : Int) : Interval :=
  let below := if m = Nat.pow 2 52 ∧ -1074 < e then 1 else 2
  let up := Nat.pow 2 (e - 2).toNat
  let down := Nat.pow 2 (2 - e).toNat
  ⟨(4 * m - below) * up, 4 * m * up, (4 * m + 2) * up, down, m % 2 = 0⟩

/-- Whether `c * 10 ^ k` rounds to the double of the interval. -/
def Interval.holds (i : Interval) (c : Nat) (k : Int) : Bool :=
  let v := c * Nat.pow 10 k.toNat * i.den
  let ten := Nat.pow 10 (-k).toNat
  if i.closed then i.low * ten ≤ v && v ≤ i.high * ten
  else i.low * ten < v && v < i.high * ten

/-- The multiple of `10 ^ k` just below the number, as a count of `10 ^ k`. -/
def Interval.countBelow (i : Interval) (k : Int) : Nat :=
  i.num * Nat.pow 10 (-k).toNat / (i.den * Nat.pow 10 k.toNat)

/-- Which of two equally near decimals is taken. -/
inductive Tie where
  /-- The one with the greater magnitude. -/
  | away
  /-- The one with the even last digit. -/
  | even
  deriving Repr, DecidableEq

/-- Whether `c + 1` is taken rather than `c` when both times `10 ^ k` are in the interval. -/
def Interval.takesAbove (i : Interval) (tie : Tie) (c : Nat) (k : Int) : Bool :=
  let twice := 2 * (i.num * Nat.pow 10 (-k).toNat)
  let middle := (2 * c + 1) * (i.den * Nat.pow 10 k.toNat)
  match compare twice middle with
  | .gt => true
  | .lt => false
  | .eq => tie == .away || c % 2 == 1

/-- The decimal of the interval on the grid of multiples of `10 ^ k`, if it has one. -/
def Interval.onGrid? (i : Interval) (tie : Tie) (k : Int) : Option Decimal :=
  let c := i.countBelow k
  match i.holds c k && c != 0, i.holds (c + 1) k with
  | true, true => some ⟨if i.takesAbove tie c k then c + 1 else c, k⟩
  | true, false => some ⟨c, k⟩
  | false, true => some ⟨c + 1, k⟩
  | false, false => none

/-- The decimal exponent of the first digit: the `p` with `10 ^ p ≤ num / den < 10 ^ (p + 1)`. -/
def Interval.magnitude (i : Interval) : Int :=
  let guess := ((Nat.log2 i.num : Int) - Nat.log2 i.den) * 30103 / 100000
  let candidates := [guess + 2, guess + 1, guess, guess - 1]
  let fits := fun p : Int => i.den * Nat.pow 10 p.toNat ≤ i.num * Nat.pow 10 (-p).toNat
  (candidates.find? fits).getD (guess - 2)

/-- Tries grids from coarse to fine, `places` of them, starting with the multiples of `10 ^ k`. -/
def Interval.search (i : Interval) (tie : Tie) (k : Int) : Nat → Decimal
  | 0 => ⟨i.countBelow k, k⟩
  | places + 1 =>
    match i.onGrid? tie k with
    | some d => d
    | none => i.search tie (k - 1) places

/-- Removes the zeros at the end of the digits; `fuel` bounds their number. -/
def Decimal.trim (d : Decimal) : Nat → Decimal
  | 0 => d
  | fuel + 1 =>
    if d.digits % 10 = 0 && d.digits != 0 then Decimal.trim ⟨d.digits / 10, d.exponent + 1⟩ fuel
    else d

/-- The shortest decimal that reads back as the positive double `m * 2 ^ e`. -/
def shortest (tie : Tie) (m : Nat) (e : Int) : Decimal :=
  let i := Interval.of m e
  (i.search tie i.magnitude 17).trim 20

end Stencil.Number
