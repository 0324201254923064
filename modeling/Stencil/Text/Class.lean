import Stencil.Text.LetterTable
import Stencil.Text.PrintTable
import Stencil.Text.CaseTable
/-!
# Classes of characters

Membership in the classes that the script language, its patterns and its quoted texts distinguish.
ASCII is decided by arithmetic and the other code points by bisection in a table of bounds.
-/
namespace Stencil.Text

/-- The number of entries of a sorted table that are at most `n`, searched between `low` and
`high`. -/
def countUpTo (bounds : Array Nat) (n low high : Nat) : Nat :=
  if _h : low < high then
    let middle := (low + high) / 2
    if bounds.getD middle 0 ≤ n then countUpTo bounds n (middle + 1) high
    else countUpTo bounds n low middle
  else low
termination_by high - low

/-- Whether `n` lies in a class given by the places where membership changes: it does if the number
of changes up to `n` is odd. -/
def inBounds (bounds : Array Nat) (n : Nat) : Bool :=
  countUpTo bounds n 0 bounds.size % 2 == 1

/-- Letters of any script. -/
def isAlphabetic (c : Char) : Bool :=
  if c.val < 128 then c.isAlpha else inBounds alphabeticBounds c.toNat

/-- Characters that denote numbers, digits and others. -/
def isNumeric (c : Char) : Bool :=
  if c.val < 128 then c.isDigit else inBounds numericBounds c.toNat

/-- Letters and numbers of any script. -/
def isAlphanumeric (c : Char) : Bool :=
  isAlphabetic c || isNumeric c

/-- Decimal digits of any script. -/
def isDecimalDigit (c : Char) : Bool :=
  if c.val < 128 then c.isDigit else inBounds decimalBounds c.toNat

/-- Characters of words: letters, marks, decimal digits, connecting punctuation, joiners. -/
def isWordChar (c : Char) : Bool :=
  if c.val < 128 then c.isAlphanum || c == '_'
  else inBounds alphabeticBounds c.toNat || inBounds wordExtraBounds c.toNat

/-- White space in the sense of the property *White_Space*. -/
def isBlank (c : Char) : Bool :=
  let n := c.toNat
  (9 ≤ n && n ≤ 13) || n == 0x20 || n == 0x85 || n == 0xA0 || n == 0x1680
    || (0x2000 ≤ n && n ≤ 0x200A) || n == 0x2028 || n == 0x2029 || n == 0x202F || n == 0x205F
    || n == 0x3000

/-- Characters that have case. -/
def isCased (c : Char) : Bool :=
  if c.val < 128 then c.isAlpha else inBounds casedBounds c.toNat

/-- Characters that do not separate a letter from its neighbours when case depends on them. -/
def isCaseIgnorable (c : Char) : Bool :=
  inBounds caseIgnorableBounds c.toNat

/-- Characters that a quoted text shows as they are. -/
def isVisible (c : Char) : Bool :=
  if c.val < 128 then 0x20 ≤ c.val && c.val ≤ 0x7E
  else !(inBounds invisibleBounds c.toNat || inBounds extenderBounds c.toNat)

/-- The value of a digit in a base up to 36, letters of either case counting on from ten. -/
def digitValue? (base : Nat) (c : Char) : Option Nat :=
  let value :=
    if '0' ≤ c ∧ c ≤ '9' then some (c.toNat - '0'.toNat)
    else if 'a' ≤ c ∧ c ≤ 'z' then some (c.toNat - 'a'.toNat + 10)
    else if 'A' ≤ c ∧ c ≤ 'Z' then some (c.toNat - 'A'.toNat + 10)
    else none
  value.filter (· < base)

/-- The digit for a value below 36, in lower case. -/
def digitChar (n : Nat) : Char :=
  if n < 10 then Char.ofNat ('0'.toNat + n) else Char.ofNat ('a'.toNat + (n - 10))

end Stencil.Text
