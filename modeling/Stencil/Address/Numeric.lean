import Stencil.Number.Read
import Stencil.Text.Quoted
import Stencil.Text.Search
/-!
# Numeric hosts

Hosts that are numbers: four bytes in one to four parts, each decimal, octal or hexadecimal, or
eight groups of sixteen bits in square brackets.
-/
namespace Stencil.Address
open Stencil.Text Stencil.Number

/-! ### Four bytes -/

/-- The base that the beginning of a part announces, and the digits behind it. -/
def partBase : List Char → Nat × List Char
  | '0' :: 'x' :: ds | '0' :: 'X' :: ds => (16, ds)
  | '0' :: d :: ds => (8, d :: ds)
  | ds => (10, ds)

/-- The number that a part is; a base without digits is zero. -/
def partValue? (part : List Char) : Option Nat :=
  let (base, ds) := partBase part
  if part.isEmpty ∨ ds.any fun d => (digitValue? base d).isNone then none
  else some (natOfDigits base ds)

/-- The parts of a host between full stops, without an empty one at its end. -/
def hostParts (host : List Char) : List (List Char) :=
  let parts := splitOn ['.'] host
  if 1 < parts.length ∧ parts.getLast? = some [] then parts.dropLast else parts

/-- Whether the last part of a host is a number, so that all of it has to be one. -/
def endsInNumber (host : List Char) : Bool :=
  match (hostParts host).getLast? with
  | some part => !part.isEmpty && (part.all Char.isDigit || (partValue? part).isSome)
  | none => false

/-- The bytes of a number, most significant first. -/
def bytesOf (n : Nat) : List Nat :=
  [n / Nat.pow 2 24 % 256, n / Nat.pow 2 16 % 256, n / Nat.pow 2 8 % 256, n % 256]

/-- The number that parts make up: all but the last are bytes, and the last fills what is left. -/
def combineParts? (parts : List Nat) : Option Nat :=
  match parts.reverse with
  | [] => none
  | last :: leading =>
    let leading := leading.reverse
    if 4 < parts.length ∨ leading.any (255 < ·) ∨ Nat.pow 256 (5 - parts.length) ≤ last then none
    else some (leading.zipIdx.foldl (fun n (byte, i) => n + byte * Nat.pow 256 (3 - i)) last)

/-- The four bytes that a host stands for, as they are written. -/
def fourBytes? (host : List Char) : Option String := do
  let parts ← (hostParts host).mapM partValue?
  let n ← combineParts? parts
  return ".".intercalate ((bytesOf n).map toString)

/-! ### Eight groups -/

/-- A group of one to four hexadecimal digits. -/
def groupValue? (cs : List Char) : Option Nat :=
  if cs.isEmpty ∨ 4 < cs.length ∨ cs.any fun d => (digitValue? 16 d).isNone then none
  else some (natOfDigits 16 cs)

/-- A decimal byte without zeros before it. -/
def byteValue? (cs : List Char) : Option Nat :=
  if cs.isEmpty ∨ cs.any (!·.isDigit) ∨ (cs.head? = some '0' ∧ 1 < cs.length) then none
  else
    let n := natOfDigits 10 cs
    if n ≤ 255 then some n else none

/-- The two groups that four decimal bytes make up. -/
def bytesAsGroups? (cs : List Char) : Option (List Nat) :=
  match (splitOn ['.'] cs).mapM byteValue? with
  | some [a, b, c, d] => some [a * 256 + b, c * 256 + d]
  | _ => none

/-- The groups of a piece; the last piece may be four decimal bytes. -/
def pieceGroups? (last : Bool) (cs : List Char) : Option (List Nat) :=
  if last && cs.contains '.' then bytesAsGroups? cs else (groupValue? cs).map ([·])

/-- The groups of pieces between colons; nothing at all has no groups.  `atEnd` says whether the
pieces end the address. -/
def groups? (atEnd : Bool) (cs : List Char) : Option (List Nat) :=
  if cs.isEmpty then some []
  else
    let pieces := splitOn [':'] cs
    (pieces.zipIdx.mapM fun (piece, i) =>
      pieceGroups? (atEnd && i + 1 == pieces.length) piece).map List.flatten

/-- The eight groups of an address, in which a double colon stands for one or more groups of
zero. -/
def eightGroups? (cs : List Char) : Option (List Nat) :=
  match breakOn? [':', ':'] cs with
  | none => (groups? true cs).bind fun gs => if gs.length = 8 then some gs else none
  | some (before, after) =>
    match groups? false before, groups? true after with
    | some a, some b =>
      if a.length + b.length ≤ 7 then
        some (a ++ List.replicate (8 - a.length - b.length) 0 ++ b)
      else none
    | _, _ => none

/-- The first and longest run of at least two zeros: where it starts and its length. -/
def longestZeros (gs : List Nat) : Option (Nat × Nat) :=
  let runs := (List.range gs.length).map fun i => (i, ((gs.drop i).takeWhile (· == 0)).length)
  (runs.filter fun (_, n) => 2 ≤ n).foldl (fun best run =>
    match best with
    | some (i, n) => if n < run.2 then some run else some (i, n)
    | none => some run) none

/-- Groups with colons between them. -/
def groupsText (gs : List Nat) : String :=
  ":".intercalate (gs.map fun g => String.ofList (hexDigits g))

/-- Eight groups as they are written, with brackets around them. -/
def eightGroupsText (gs : List Nat) : String :=
  match longestZeros gs with
  | some (i, n) => "[" ++ groupsText (gs.take i) ++ "::" ++ groupsText (gs.drop (i + n)) ++ "]"
  | none => "[" ++ groupsText gs ++ "]"

end Stencil.Address
