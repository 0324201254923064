import Stencil.Address.Punycode
import Stencil.Text.Case
import Stencil.Text.Search
/-!
# Domain names

The form in which domain names are compared: in ASCII and in lower case, with labels of other
characters written in punycode.
-/
namespace Stencil.Address
open Stencil.Text

/-- ASCII characters that no domain name may hold. -/
def isForbiddenInDomain (c : Char) : Bool :=
  c.toNat ≤ 0x20 || c.toNat == 0x7F || "#%/:<>?@[\\]^|".contains c

/-- Characters that leave no trace in a domain name: the soft hyphen, joiners of no width and
selectors of variants. -/
def isIgnoredInDomain (c : Char) : Bool :=
  let n := c.toNat
  [0xAD, 0x34F, 0x180F, 0x200B, 0x2060, 0x2064, 0xFEFF].contains n || (0x180B ≤ n && n ≤ 0x180D)
    || (0xFE00 ≤ n && n ≤ 0xFE0F)

/-- Full stops of other scripts. -/
def isForeignStop (c : Char) : Bool :=
  [0x3002, 0xFF0E, 0xFF61].contains c.toNat

/-- What a character becomes in a domain name; `none` if it may not stand there. -/
def domainChars? (c : Char) : Option (List Char) :=
  let n := c.toNat
  if n < 0x80 then if isForbiddenInDomain c then none else some [c.toLower]
  else if isForeignStop c then some ['.']
  else if isIgnoredInDomain c then some []
  else if 0xFF01 ≤ n ∧ n ≤ 0xFF5E then
    let narrow := Char.ofNat (n - 0xFEE0)
    if isForbiddenInDomain narrow then none else some [narrow.toLower]
  else if isVisible c then some (lowerChars c)
  else none

/-- The beginning of labels in punycode. -/
def aceStart : List Char := "xn--".toList

/-- One label in ASCII.  A label that claims to be in punycode has to stand for characters outside
ASCII, in the form in which they would be written. -/
def asciiLabel? (label : List Char) : Option (List Char) :=
  if label.any (128 ≤ ·.toNat) then some (aceStart ++ Punycode.encode label)
  else if aceStart.isPrefixOf label then
    match Punycode.decode? (label.drop aceStart.length) with
    | some decoded =>
      if decoded.any (128 ≤ ·.toNat) ∧ decoded.mapM domainChars? = some (decoded.map ([·])) then
        some label
      else none
    | none => none
  else some label

/-- A domain name in ASCII and in lower case. -/
def asciiDomain? (cs : List Char) : Option (List Char) := do
  let mapped := (← cs.mapM domainChars?).flatten
  let labels ← (splitOn ['.'] mapped).mapM asciiLabel?
  return join ['.'] labels

end Stencil.Address
