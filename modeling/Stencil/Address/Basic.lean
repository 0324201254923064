import Stencil.Address.Domain
import Stencil.Address.Numeric
import Stencil.Text.Percent
/-!
# Addresses

An address names a scheme and, for most schemes, a host.  `Address.parse` reads both from the text
of an address; where the text leaves no doubt about them, whatever follows is accepted.
-/
namespace Stencil

/-- A scheme and a host, as they are compared. -/
structure Address where
  /-- The scheme in lower case. -/
  scheme : String
  /-- The host in its normal form; some schemes do without. -/
  host : Option String
  deriving Repr, DecidableEq

namespace Address
open Stencil.Text

/-- Why a text is no address. -/
inductive Fault where
  /-- There is no scheme. -/
  | relative
  | emptyHost
  | badDomain
  | badFourBytes
  | badEightGroups
  /-- The host of a scheme of no special kind holds a delimiter. -/
  | badCharacter
  | badPort
  deriving Repr, DecidableEq

/-- What is wrong with the text. -/
def Fault.message : Fault → String
  | .relative => "relative URL without a base"
  | .emptyHost => "empty host"
  | .badDomain => "invalid international domain name"
  | .badFourBytes => "invalid IPv4 address"
  | .badEightGroups => "invalid IPv6 address"
  | .badCharacter => "invalid domain character"
  | .badPort => "invalid port number"

/-- The schemes whose addresses start with a host, whatever the number of slashes before it. -/
def specialSchemes : List String := ["http", "https", "ws", "wss", "ftp"]

/-- The text of an address without the control characters and spaces around it and without the tabs
and line breaks within it. -/
def strip (cs : List Char) : List Char :=
  let isOuter := fun c : Char => c.toNat ≤ 0x20
  let cs := ((cs.dropWhile isOuter).reverse.dropWhile isOuter).reverse
  cs.filter fun c => c != '\t' && c != '\n' && c != '\r'

/-- Characters of a scheme. -/
def isSchemeChar (c : Char) : Bool :=
  c.isAlphanum || c == '+' || c == '-' || c == '.'

/-- The scheme that a text starts with, in lower case, and what follows its colon. -/
def takeScheme? (cs : List Char) : Option (String × List Char) :=
  match cs.span isSchemeChar with
  | (scheme@(c :: _), ':' :: rest) =>
    if c.isAlpha then some (String.ofList (scheme.map Char.toLower), rest) else none
  | _ => none

/-- Whether a character ends the part of an address that names the host. -/
def endsHost (special : Bool) (c : Char) : Bool :=
  c == '/' || c == '?' || c == '#' || (special && c == '\\')

/-- The text between the first bracket and the last character, which has to be a bracket too. -/
def inBrackets? (host : List Char) : Option (List Char) :=
  match host with
  | '[' :: inner => if inner.getLast? = some ']' then some inner.dropLast else none
  | _ => none

/-- A host in brackets. -/
def bracketHost (host : List Char) : Except Fault String :=
  match (inBrackets? host).bind eightGroups? with
  | some gs => .ok (eightGroupsText gs)
  | none => .error .badEightGroups

/-- The text that a part of an address stands for: a percent sign before two hexadecimal digits
stands for a byte. -/
def decodePercent (done : List UInt8) : List Char → List UInt8
  | [] => done.reverse
  | '%' :: a :: b :: rest =>
    match digitValue? 16 a, digitValue? 16 b with
    | some x, some y => decodePercent ((x * 16 + y).toUInt8 :: done) rest
    | _, _ => decodePercent ('%'.toUInt8 :: done) (a :: b :: rest)
  | c :: rest => decodePercent ((String.utf8EncodeChar c).reverse ++ done) rest

/-- The host of a special scheme. -/
def specialHost (host : List Char) : Except Fault String :=
  if host.head? = some '[' then bracketHost host
  else
    match String.fromUTF8? ⟨(decodePercent [] host).toArray⟩ with
    | none => .error .badDomain
    | some decoded =>
      match asciiDomain? decoded.toList with
      | none => .error .badDomain
      | some [] => .error .emptyHost
      | some domain =>
        if endsInNumber domain then
          match fourBytes? domain with
          | some bytes => .ok bytes
          | none => .error .badFourBytes
        else .ok (String.ofList domain)

/-- Characters that the host of a scheme of no special kind may not hold. -/
def isForbiddenInHost (c : Char) : Bool :=
  c == '\x00' || " #/:<>?@[\\]^|".contains c

/-- One character of a host whose scheme gives it no meaning. -/
def opaqueChar (c : Char) : List Char :=
  if c.toNat < 0x20 ∨ 0x7F ≤ c.toNat then
    (String.utf8EncodeChar c).flatMap fun b =>
      ['%', Percent.hexDigit (b.toNat / 16), Percent.hexDigit (b.toNat % 16)]
  else [c]

/-- The host of a scheme of no special kind. -/
def plainHost (host : List Char) : Except Fault String :=
  if host.head? = some '[' then bracketHost host
  else if host.any isForbiddenInHost then .error .badCharacter
  else .ok (String.ofList (host.flatMap opaqueChar))

/-- The host up to the colon before the port, which does not stand in brackets, and what follows the
colon. -/
def splitPort (bracketed : Bool) (seen : List Char) : List Char → List Char × Option (List Char)
  | [] => (seen.reverse, none)
  | ':' :: rest =>
    if bracketed then splitPort bracketed (':' :: seen) rest else (seen.reverse, some rest)
  | c :: rest => splitPort ((bracketed || c == '[') && c != ']') (c :: seen) rest

/-- Checks a port: a number below `2 ^ 16`, or nothing. -/
def checkPort (port : Option (List Char)) : Except Fault Unit :=
  let digits := (port.getD []).takeWhile (· != '\\')
  if digits.all Char.isDigit ∧ Number.natOfDigits 10 digits < Nat.pow 2 16 then .ok ()
  else .error .badPort

/-- The text before the last sign that ends the name of a user, and the text behind it. -/
def splitUser? (cs : List Char) : Option (List Char × List Char) :=
  match cs.reverse.span (· != '@') with
  | (after, _ :: before) => some (before.reverse, after.reverse)
  | (_, []) => none

/-- The host that a text names after the slashes; `none` if it names none, which a special scheme
does not allow. -/
def authorityHost (special : Bool) (cs : List Char) : Except Fault (Option String) := do
  let named := cs.takeWhile (!endsHost special ·)
  let (user, place) := (splitUser? named).getD ([], named)
  let (host, port) := splitPort false [] place
  let anonymous := user = [] ∨ user = [':']
  if host.isEmpty ∧ (special ∨ port.isSome) then throw .emptyHost
  let text ← if special then specialHost host else plainHost host
  checkPort port
  if host.isEmpty ∧ (!anonymous ∨ (splitUser? named).isSome ∧ user = [] ∧ named.length < cs.length)
  then throw .emptyHost
  return if host.isEmpty then none else some text

/-- Whether a text is the letter of a drive. -/
def isDrive : List Char → Bool
  | [c, d] => c.isAlpha && (d == ':' || d == '|')
  | _ => false

/-- The host of a file, behind two slashes. -/
def fileHost (cs : List Char) : Except Fault (Option String) :=
  let isSlash := fun c => c == '/' || c == '\\'
  match cs with
  | a :: b :: rest =>
    let host := rest.takeWhile (!endsHost true ·)
    if !(isSlash a && isSlash b) || host.isEmpty || isDrive host then .ok none
    else (specialHost host).map fun h => if h = "localhost" then none else some h
  | _ => .ok none

/-- The host behind the colon of a scheme. -/
def hostAfter (scheme : String) (cs : List Char) : Except Fault (Option String) :=
  if specialSchemes.contains scheme then
    authorityHost true (cs.dropWhile fun c => c == '/' || c == '\\')
  else if scheme = "file" then fileHost cs
  else
    match cs with
    | '/' :: '/' :: rest => authorityHost false rest
    | _ => .ok none

/-- Reads the text of an address. -/
def parse (text : String) : Except Fault Address :=
  match takeScheme? (strip text.toList) with
  | none => .error .relative
  | some (scheme, rest) => (hostAfter scheme rest).map fun host => ⟨scheme, host⟩

end Address
end Stencil
