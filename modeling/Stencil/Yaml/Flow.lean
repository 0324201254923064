import Stencil.Yaml.Scalar
/-!
# Lists and tables in brackets

Collections written between brackets, with commas between their items, on as many lines as they
take.  The functions that read them spend fuel on every item and on every bracket; a text never
needs more than twice its length.
-/
namespace Stencil.Yaml

/-- Characters that delimit what stands in brackets. -/
def isFlowMark (c : Char) : Bool :=
  c == ',' || c == '[' || c == ']' || c == '\x7b' || c == '\x7d'

/-- Whether a text goes on with something that a colon may stand before to end a key. -/
def endsKey : List Char → Bool
  | [] => true
  | c :: _ => isSpaceOrBreak c || isFlowMark c

/-- A plain scalar within brackets and what follows it. -/
def spanPlain (seen : List Char) : List Char → List Char × List Char
  | [] => (seen.reverse, [])
  | c :: cs =>
    if isFlowMark c || (c == ':' && endsKey cs) then (seen.reverse, c :: cs)
    else spanPlain (c :: seen) cs

/-- The text of a plain scalar that goes over several lines; `text` is what was read of it, last
first. -/
def joinLines (text cs : List Char) : List Char :=
  match cs with
  | [] => text.reverse
  | '\n' :: rest =>
    have := foldBreak_length text rest
    joinLines (foldBreak text rest).1 (foldBreak text rest).2
  | c :: rest => joinLines (c :: text) rest
termination_by cs.length
decreasing_by all_goals (simp only [List.length_cons]; omega)

/-- A text without the blanks before it. -/
def skip (cs : List Char) : List Char :=
  cs.dropWhile isSpaceOrBreak

/-- The text of a key. -/
def keyText : Document → Except ReadError String
  | .blank => .ok ""
  | .scalar _ text => .ok (text.getD "")
  | .list _ | .table _ => .error (.misplaced ":")

/-- The error of a text that may not stand where it stands. -/
def misplaced {α : Type} (cs : List Char) : Except ReadError α :=
  .error (if cs.isEmpty then .unclosed else .misplaced (String.ofList cs))

mutual
/-- Reads a collection or a scalar. -/
def flowNode : Nat → List Char → Except ReadError (Document × List Char)
  | 0, _ => .error .unclosed
  | fuel + 1, cs =>
    match skip cs with
    | '[' :: rest => flowItems fuel [] rest
    | '\x7b' :: rest => flowEntries fuel [] rest
    | cs => do
      match ← quoted? cs with
      | some (text, rest) => return (.text (String.ofList text), rest)
      | none =>
        if startsPlain cs then
          let (text, rest) := spanPlain [] cs
          return (plain (joinLines [] (trim text)), rest)
        else misplaced cs

/-- Reads what stands behind the colon of a key. -/
def flowValue : Nat → List Char → Except ReadError (Document × List Char)
  | 0, _ => .error .unclosed
  | fuel + 1, cs =>
    match skip cs with
    | c :: rest =>
      if c == ',' || c == ']' || c == '\x7d' then .ok (.blank, c :: rest)
      else flowNode fuel (c :: rest)
    | [] => .error .unclosed

/-- Reads the items of a list after those already read, last first.  A key with a value is an item:
a table of one entry. -/
def flowItems : Nat → List Document → List Char → Except ReadError (Document × List Char)
  | 0, _, _ => .error .unclosed
  | fuel + 1, done, cs =>
    match skip cs with
    | ']' :: rest => .ok (.list done.reverse, rest)
    | cs => do
      let (item, rest) ← flowNode fuel cs
      let (item, rest) ← match skip rest with
        | ':' :: rest => do
          let (value, rest) ← flowValue fuel rest
          pure (.table [(← keyText item, value)], skip rest)
        | rest => pure (item, rest)
      match rest with
      | ',' :: rest => flowItems fuel (item :: done) rest
      | ']' :: rest => return (.list (item :: done).reverse, rest)
      | rest => misplaced rest

/-- Reads the entries of a table after those already read, last first.  A key without a colon has no
value. -/
def flowEntries :
    Nat → List (String × Document) → List Char → Except ReadError (Document × List Char)
  | 0, _, _ => .error .unclosed
  | fuel + 1, done, cs =>
    match skip cs with
    | '\x7d' :: rest => .ok (.table done.reverse, rest)
    | cs => do
      let (key, rest) ← flowNode fuel cs
      let key ← keyText key
      let (value, rest) ← match skip rest with
        | ':' :: rest => flowValue fuel rest
        | rest => pure (.blank, rest)
      match skip rest with
      | ',' :: rest => flowEntries fuel ((key, value) :: done) rest
      | '\x7d' :: rest => return (.table ((key, value) :: done).reverse, rest)
      | rest => misplaced rest
end

/-- Reads a collection in brackets or a quoted scalar, if a text starts with one, and what follows
it. -/
def enclosed? (cs : List Char) : Except ReadError (Option (Document × List Char)) :=
  match cs with
  | '[' :: _ | '\x7b' :: _ => (flowNode (2 * cs.length + 2) cs).map some
  | cs => do
    match ← quoted? cs with
    | some (text, rest) => return some (.text (String.ofList text), rest)
    | none => return none

end Stencil.Yaml
