import Stencil.Text.Case
import Stencil.Text.Search
/-!
# Texts word by word

Capitals, titles, abbreviations and names for addresses.
-/
namespace Stencil.Text

/-- The text with its first character in upper case. -/
def capitalize : List Char → List Char
  | [] => []
  | c :: cs => upperChars c ++ cs

/-- Every piece between blanks capitalized. -/
def titleCase (s : String) : String :=
  String.ofList (join [' '] ((splitOn [' '] s.toList).map capitalize))

/-- At most `max` characters of a text, a cut being shown by a suffix.  A suffix that is itself too
long is kept whole. -/
def truncate (s : String) (max : Nat) (suffix : String) : String :=
  if s.length ≤ max then s else String.ofList (s.toList.take (max - suffix.length)) ++ suffix

/-- The words of letters and numbers in lower case, with hyphens between them. -/
def slug (s : String) : String :=
  String.ofList (join ['-'] (wordsBy (fun c => !isAlphanumeric c) (toLower s).toList))

end Stencil.Text
