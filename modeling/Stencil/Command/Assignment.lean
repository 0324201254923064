import Stencil.Json.Read
import Stencil.Number.Read
/-!
# Assignments

Variables given as `KEY=VALUE`.  Numbers, truth values and `null` are taken for what they are; every
other value is a text.
-/
namespace Stencil.Command

/-- A text that is no assignment. -/
structure AssignmentError where
  pair : String
  deriving Repr, DecidableEq

/-- What is wrong with the text. -/
def AssignmentError.message (e : AssignmentError) : String :=
  "invalid --var '" ++ e.pair ++ "': expected KEY=VALUE"

/-- Whether a JSON value is a number, a truth value or `null`. -/
def isPlain : Json → Bool
  | .null | .bool _ | .number _ => true
  | _ => false

/-- The value that the right side of an assignment gives. -/
def assignedValue (text : String) : Json :=
  match Json.parse text with
  | .ok j => if isPlain j then j else .string text
  | .error _ => .string text

/-- The variable and the value of one assignment; blanks around the variable do not count. -/
def parseAssignment (pair : String) : Except AssignmentError (String × Json) :=
  match pair.toList.span (· != '=') with
  | (key, _ :: text) =>
    .ok (String.ofList (Number.trimBlanks key), assignedValue (String.ofList text))
  | (_, []) => .error ⟨pair⟩

/-- The variables of assignments; a later one takes the place of an earlier one. -/
def parseAssignments (pairs : List String) : Except AssignmentError (List (String × Json)) :=
  pairs.foldlM (fun vars pair => do
    let (key, value) ← parseAssignment pair
    return Json.insertMember key value vars) []

end Stencil.Command
