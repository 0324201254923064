import Stencil.Number.Read
/-!
# Percent coding

Texts as parts of an address: every byte of a character outside a small set of ASCII characters is
written as a percent sign and two hexadecimal digits.
-/
namespace Stencil.Text.Percent

/-- Characters that are written as they are. -/
def isUnreserved (b : UInt8) : Bool :=
  let c := Char.ofNat b.toNat
  b < 128 && (c.isAlphanum || "-_.!~*'()".contains c)

/-- The digit for a value below sixteen, in upper case. -/
def hexDigit (n : Nat) : Char :=
  (Text.digitChar n).toUpper

/-- One byte, coded. -/
def encodeByte (b : UInt8) : List Char :=
  if isUnreserved b then [Char.ofNat b.toNat]
  else ['%', hexDigit (b.toNat / 16), hexDigit (b.toNat % 16)]

/-- A text, coded. -/
def encode (s : String) : String :=
  String.ofList ((s.toList.flatMap String.utf8EncodeChar).flatMap encodeByte)

/-- The bytes that a coded text stands for; `none` if a percent sign is not followed by a number of
two characters.  `done` holds the bytes already read, last first. -/
def decodeBytes? (done : List UInt8) : List Char → Option (List UInt8)
  | [] => some done.reverse
  | '%' :: a :: b :: rest =>
    match Number.readBounded? 16 256 [a, b] with
    | some n => decodeBytes? (n.toUInt8 :: done) rest
    | none => none
  | '%' :: _ => none
  | c :: rest => decodeBytes? ((String.utf8EncodeChar c).reverse ++ done) rest

/-- The text that a coded text stands for; `none` if it is malformed or its bytes are no text. -/
def decode? (s : String) : Option String :=
  (decodeBytes? [] s.toList).bind fun bytes => String.fromUTF8? ⟨bytes.toArray⟩

end Stencil.Text.Percent
