import Stencil.Text.Bytes
/-!
# Searching texts

Occurrences of one text in another, and the texts that remain when they are cut out: what `breakOn?`
cuts apart makes up the text again (`breakOn?_append`).
-/
namespace Stencil.Text

/-- The text before the first occurrence of `needle` and the text after it. -/
def breakOn? (needle cs : List Char) : Option (List Char × List Char) :=
  go [] cs
where
  /-- `seen` holds the characters already passed, last first. -/
  go (seen : List Char) : List Char → Option (List Char × List Char)
    | [] => if needle.isEmpty then some (seen.reverse, []) else none
    | c :: cs =>
      if needle.isPrefixOf (c :: cs) then some (seen.reverse, (c :: cs).drop needle.length)
      else go (c :: seen) cs

theorem breakOn?_go {needle seen cs before after : List Char}
    (h : breakOn?.go needle seen cs = some (before, after)) :
    seen.reverse ++ cs = before ++ needle ++ after := by
  induction cs generalizing seen with
  | nil =>
    unfold breakOn?.go at h
    split at h
    · cases h
      simp_all
    · cases h
  | cons c cs ih =>
    unfold breakOn?.go at h
    split at h
    · rename_i hp
      cases h
      obtain ⟨t, ht⟩ := List.isPrefixOf_iff_prefix.1 hp
      simp [← ht]
    · simpa using ih h

/-- The pieces and the occurrence make up the text. -/
theorem breakOn?_append {needle cs before after : List Char}
    (h : breakOn? needle cs = some (before, after)) : cs = before ++ needle ++ after := by
  simpa using breakOn?_go h

/-- Whether `needle` occurs in a text. -/
def containsText (needle cs : List Char) : Bool :=
  (breakOn? needle cs).isSome

/-- The place of the first occurrence, in characters. -/
def indexOf? (needle cs : List Char) : Option Nat :=
  (breakOn? needle cs).map fun (before, _) => before.length

/-- The place of the last occurrence, in characters. -/
def lastIndexOf? (needle cs : List Char) : Option Nat :=
  (breakOn? needle.reverse cs.reverse).map fun (_, before) => before.length

/-- The pieces between the occurrences of a separator, which is not empty. -/
def splitOn (separator cs : List Char) : List (List Char) :=
  go [] cs cs.length
where
  /-- `found` holds the pieces already cut off, last first; `fuel` bounds the number of pieces. -/
  go (found : List (List Char)) (cs : List Char) : Nat → List (List Char)
    | 0 => (cs :: found).reverse
    | fuel + 1 =>
      match breakOn? separator cs with
      | some (before, after) => go (before :: found) after fuel
      | none => (cs :: found).reverse

/-- Puts pieces together with a separator between them. -/
def join (separator : List Char) (pieces : List (List Char)) : List Char :=
  (pieces.intersperse separator).flatten

/-- The words of a text, separated by characters of a class, which leave no words of their own. -/
def wordsBy (isSeparator : Char → Bool) (cs : List Char) : List (List Char) :=
  (cs.splitBy fun a b => isSeparator a == isSeparator b).filter fun word =>
    word.head?.any (!isSeparator ·)

end Stencil.Text
