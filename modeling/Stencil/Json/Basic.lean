/-!
# JSON values

The tree that JSON texts denote.  Members of an object keep their order, and a later member with the
key of an earlier one takes the earlier one's place.
-/
namespace Stencil

/-- A number of a JSON text: an integer of at most 64 bits, or a double. -/
inductive Json.Number where
  | integer (i : Int)
  | real (x : Float)

/-- A JSON value. -/
inductive Json where
  | null
  | bool (b : Bool)
  | number (n : Json.Number)
  | string (s : String)
  | array (items : List Json)
  | object (members : List (String × Json))

namespace Json

instance : Inhabited Json := ⟨.null⟩

/-- Puts a value under a key: in the place of the member with that key, or at the end. -/
def insertMember {α : Type} (key : String) (value : α) : List (String × α) → List (String × α)
  | [] => [(key, value)]
  | (k, v) :: rest => if k = key then (k, value) :: rest else (k, v) :: insertMember key value rest

/-- The member of an object under a key. -/
def member? (key : String) : Json → Option Json
  | .object members => members.lookup key
  | _ => none

end Json
end Stencil
