/-!
# Punycode

A label with characters outside ASCII is written as its ASCII characters followed by a number for
each place where another character is inserted.  The numbers have digits in base thirty-six, of
which the last is told by a threshold that adapts to the numbers already written.
-/
namespace Stencil.Address.Punycode

/-- The base of the digits. -/
def base : Nat := 36

/-- The character of a digit. -/
def digitChar (d : Nat) : Char :=
  if d < 26 then Char.ofNat (0x61 + d) else Char.ofNat (0x30 + (d - 26))

/-- The value of a digit. -/
def digitValue? (c : Char) : Option Nat :=
  if 'a' ≤ c ∧ c ≤ 'z' then some (c.toNat - 0x61)
  else if '0' ≤ c ∧ c ≤ '9' then some (c.toNat - 0x30 + 26)
  else none

/-- The digit at a position ends a number if it is below this threshold. -/
def threshold (position bias : Nat) : Nat :=
  max 1 (min 26 (position - bias))

theorem threshold_pos (position bias : Nat) : 1 ≤ threshold position bias := by
  unfold threshold
  omega

/-- Scales a number down, counting the positions that this takes. -/
def scaleDown (n position : Nat) : Nat × Nat :=
  if 455 < n then scaleDown (n / 35) (position + base) else (n, position)
termination_by n
decreasing_by omega

/-- The bias after a number; `points` counts the characters placed so far. -/
def adapt (n points : Nat) (first : Bool) : Nat :=
  let n := if first then n / 700 else n / 2
  let (n, position) := scaleDown (n + n / points) 0
  position + base * n / (n + 38)

/-- The digits of a number from a position on. -/
def encodeNumber (bias position n : Nat) : List Char :=
  let t := threshold position bias
  if n < t then [digitChar n]
  else
    digitChar (t + (n - t) % (base - t))
      :: encodeNumber bias (position + base) ((n - t) / (base - t))
termination_by n
decreasing_by
  have := threshold_pos position bias
  exact Nat.lt_of_le_of_lt (Nat.div_le_self _ _) (by omega)

/-- What has been written of a label: the digits, and what the next number depends on. -/
structure Writing where
  out : List Char
  /-- The number that leads to the current place. -/
  delta : Nat
  bias : Nat
  /-- The characters placed so far. -/
  placed : Nat

/-- Passes a character of the label while the characters of a code point are inserted; `basic`
counts the ASCII characters. -/
def Writing.pass (basic point : Nat) (w : Writing) (c : Char) : Writing :=
  if c.toNat < point then { w with delta := w.delta + 1 }
  else if c.toNat = point then
    { out := w.out ++ encodeNumber w.bias base w.delta
      delta := 0
      bias := adapt w.delta (w.placed + 1) (w.placed = basic)
      placed := w.placed + 1 }
  else w

/-- Inserts the characters of given code points, in ascending order; `from` is the first code point
that is not done yet. -/
def Writing.insert (label : List Char) (basic : Nat) : List Nat → Nat → Writing → Writing
  | [], _, w => w
  | point :: points, start, w =>
    let w := { w with delta := w.delta + (point - start) * (w.placed + 1) }
    let w := label.foldl (Writing.pass basic point) w
    Writing.insert label basic points (point + 1) { w with delta := w.delta + 1 }

/-- The code points outside ASCII in a label, in ascending order, each once. -/
def pointsOf (label : List Char) : List Nat :=
  ((label.map Char.toNat).filter (128 ≤ ·)).mergeSort.eraseDups

/-- A label in ASCII. -/
def encode (label : List Char) : List Char :=
  let basic := label.filter (·.toNat < 128)
  let done := Writing.insert label basic.length (pointsOf label) 128 ⟨[], 0, 72, basic.length⟩
  (if basic.isEmpty then [] else basic ++ ['-']) ++ done.out

/-- Reads a number whose digits start at a position with a weight, and adds it to `sum`. -/
def decodeNumber? (bias : Nat) : List Char → Nat → Nat → Nat → Option (Nat × List Char)
  | [], _, _, _ => none
  | c :: rest, position, weight, sum =>
    match digitValue? c with
    | none => none
    | some d =>
      let t := threshold position bias
      if d < t then some (sum + d * weight, rest)
      else decodeNumber? bias rest (position + base) (weight * (base - t)) (sum + d * weight)

theorem decodeNumber?_length {bias position weight sum n : Nat} {cs rest : List Char}
    (h : decodeNumber? bias cs position weight sum = some (n, rest)) :
    rest.length < cs.length := by
  induction cs generalizing position weight sum with
  | nil => simp [decodeNumber?] at h
  | cons c cs ih =>
    unfold decodeNumber? at h
    split at h
    · cases h
    · simp only at h
      split at h
      · cases h
        simp
      · have := ih h
        simp
        omega

/-- Inserts the characters that numbers stand for into `out`; `point` and `place` are where the last
insertion has led. -/
def decodeFrom? (bias point place : Nat) (out : List Char) (cs : List Char) :
    Option (List Char) :=
  match cs with
  | [] => some out
  | c :: cs =>
    match _h : decodeNumber? bias (c :: cs) base 1 place with
    | none => none
    | some (sum, rest) =>
      let points := out.length + 1
      let point := point + sum / points
      if point.isValidChar then
        decodeFrom? (adapt (sum - place) points (place = 0)) point (sum % points + 1)
          (out.insertIdx (sum % points) (Char.ofNat point)) rest
      else none
termination_by cs.length
decreasing_by exact decodeNumber?_length _h

/-- The label that a text in ASCII stands for. -/
def decode? (cs : List Char) : Option (List Char) :=
  let (digits, basic) := cs.reverse.span (· != '-')
  decodeFrom? 72 128 0 (basic.drop 1).reverse digits.reverse

end Stencil.Address.Punycode
