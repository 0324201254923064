/-!
# Characters and their places in UTF-8

Texts are handled as lists of characters; places in them are reported as UTF-8 byte offsets.  This
module relates the two: `byteLength` is the size of a text, and `splitAtByte?` cuts a text at an
offset, which succeeds exactly on character boundaries (`splitAtByte?_append`).
-/
namespace Stencil.Text

/-- The number of bytes that the characters take. -/
def byteLength (cs : List Char) : Nat :=
  cs.foldl (fun n c => n + c.utf8Size) 0

theorem foldl_utf8Size (cs : List Char) (n : Nat) :
    cs.foldl (fun n c => n + c.utf8Size) n = n + byteLength cs := by
  induction cs generalizing n with
  | nil => simp [byteLength]
  | cons c cs ih =>
    simp only [List.foldl_cons, byteLength]
    rw [ih, ih]
    simp only [byteLength, Nat.zero_add]
    omega

@[simp] theorem byteLength_nil : byteLength [] = 0 := rfl

@[simp] theorem byteLength_cons (c : Char) (cs : List Char) :
    byteLength (c :: cs) = c.utf8Size + byteLength cs := by
  rw [byteLength, List.foldl_cons, foldl_utf8Size]
  omega

@[simp] theorem byteLength_append (a b : List Char) :
    byteLength (a ++ b) = byteLength a + byteLength b := by
  induction a with
  | nil => simp
  | cons c a ih => simp [ih, Nat.add_assoc]

/-- Cuts a text after its first `n` bytes; `none` if that is no character boundary of the text. -/
def splitAtByte? (cs : List Char) (n : Nat) : Option (List Char × List Char) :=
  go [] cs n
where
  /-- `seen` holds the characters before the cut, last first. -/
  go (seen : List Char) : List Char → Nat → Option (List Char × List Char)
    | cs, 0 => some (seen.reverse, cs)
    | [], _ + 1 => none
    | c :: cs, n + 1 => if c.utf8Size ≤ n + 1 then go (c :: seen) cs (n + 1 - c.utf8Size) else none

theorem splitAtByte?_go (seen a b : List Char) :
    splitAtByte?.go seen (a ++ b) (byteLength a) = some (seen.reverse ++ a, b) := by
  induction a generalizing seen with
  | nil => cases b <;> simp [splitAtByte?.go]
  | cons c a ih =>
    have hc : 0 < c.utf8Size := Char.utf8Size_pos c
    obtain ⟨k, hk⟩ : ∃ k, byteLength (c :: a) = k + 1 :=
      ⟨byteLength (c :: a) - 1, by rw [byteLength_cons]; omega⟩
    rw [List.cons_append, hk, splitAtByte?.go, ← hk, byteLength_cons]
    rw [if_pos (by omega), Nat.add_sub_cancel_left, ih]
    simp

/-- A text splits at the end of any of its initial parts. -/
theorem splitAtByte?_append (a b : List Char) :
    splitAtByte? (a ++ b) (byteLength a) = some (a, b) :=
  splitAtByte?_go [] a b

/-- The characters from byte offset `n` on; an offset inside a character skips the rest of it. -/
def dropBytes : List Char → Nat → List Char
  | cs, 0 => cs
  | [], _ + 1 => []
  | c :: cs, n + 1 => dropBytes cs (n + 1 - c.utf8Size)

/-- How many of the characters start before byte offset `n`. -/
def charsBefore (cs : List Char) (n : Nat) : Nat :=
  go cs n 0
where
  /-- `k` counts the characters already passed. -/
  go : List Char → Nat → Nat → Nat
    | _, 0, k => k
    | [], _ + 1, k => k
    | c :: cs, n + 1, k => go cs (n + 1 - c.utf8Size) (k + 1)

end Stencil.Text
