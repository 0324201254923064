import Stencil.Text.Class
/-!
# Change of case

Upper and lower case of whole texts.  A character may become several (`ß` becomes `SS`), and the
capital sigma becomes a final sigma at the end of a word.
-/
namespace Stencil.Text

/-- The image of a code point under a table of runs, if some run holds it. -/
def runImage? (runs : Array (Nat × Nat × Nat × Nat)) (n : Nat) : Option Nat :=
  runs.findSome? fun (first, last, step, image) =>
    if first ≤ n ∧ n ≤ last ∧ (n - first) % step = 0 then some (image + (n - first)) else none

/-- The upper-case form of a character. -/
def upperChars (c : Char) : List Char :=
  if c.val < 128 then [c.toUpper]
  else match upperExpansions.lookup c.toNat with
    | some codes => codes.map Char.ofNat
    | none => [Char.ofNat ((runImage? upperRuns c.toNat).getD c.toNat)]

/-- The lower-case form of a character outside any word. -/
def lowerChars (c : Char) : List Char :=
  if c.val < 128 then [c.toLower]
  else if c.toNat = 0x130 then ['i', Char.ofNat 0x307]
  else [Char.ofNat ((runImage? lowerRuns c.toNat).getD c.toNat)]

/-- The text in upper case. -/
def toUpper (s : String) : String :=
  String.ofList (s.toList.flatMap upperChars)

/-- Whether the first character that matters for case is a letter with case. -/
def startsCased (cs : List Char) : Bool :=
  match cs.dropWhile isCaseIgnorable with
  | c :: _ => isCased c
  | [] => false

/-- The text in lower case; `before` holds the characters already passed, last first, and `done`
their images, last first. -/
def lowerFrom (before done : List Char) : List Char → List Char
  | [] => done.reverse
  | c :: rest =>
    let image :=
      if c.toNat = 0x3A3 then
        if startsCased before && !startsCased rest then [Char.ofNat 0x3C2] else [Char.ofNat 0x3C3]
      else lowerChars c
    lowerFrom (c :: before) (image.reverse ++ done) rest

/-- The text in lower case. -/
def toLower (s : String) : String :=
  String.ofList (lowerFrom [] [] s.toList)

end Stencil.Text
