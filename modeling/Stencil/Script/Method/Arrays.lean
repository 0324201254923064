import Stencil.Script.Method.Basic
/-!
# Methods of arrays

Methods that make a new array or look into one, and the four that change an array in place
(`inPlace`).  Sorting is a stable merge sort whose comparisons may fail (`sortBy`).
-/
namespace Stencil.Script.Method
open Value (argument)

section Sorting
variable {α : Type} {m : Type → Type} [Monad m]

/-- Merges two sorted lists; an item of the second goes first only if it comes strictly before.
`done` holds the merged items, last first, and `fuel` bounds the number of comparisons. -/
def mergeBy (before : α → α → m Bool) (done xs ys : List α) : Nat → m (List α)
  | 0 => return done.reverse ++ xs ++ ys
  | fuel + 1 => do
    match xs, ys with
    | x :: xs, y :: ys =>
      if ← before y x then mergeBy before (y :: done) (x :: xs) ys fuel
      else mergeBy before (x :: done) xs (y :: ys) fuel
    | xs, ys => return done.reverse ++ xs ++ ys

/-- Sorts by halves; `fuel` bounds the number of halvings. -/
def sortHalves (before : α → α → m Bool) : Nat → List α → m (List α)
  | 0, xs => return xs
  | fuel + 1, xs => do
    if xs.length ≤ 1 then return xs
    let half := xs.length / 2
    let left ← sortHalves before fuel (xs.take half)
    let right ← sortHalves before fuel (xs.drop half)
    mergeBy before [] left right xs.length

/-- Sorts a list, keeping the order of items of which neither comes before the other. -/
def sortBy (before : α → α → m Bool) (xs : List α) : m (List α) :=
  sortHalves before (xs.length.log2 + 1) xs

end Sorting

/-- The order of `sort` without a function: by text, with `undefined` last. -/
def defaultBefore (v w : Value) : Bool :=
  if v.isUndefined then false else if w.isUndefined then true else v.text < w.text

/-- Sorts items by a comparing function, or by their texts. -/
def sorted (call : Call) (compare : Value) (items : List Value) : Eval (List Value) :=
  if compare.isCallable then
    sortBy (fun v w => do return (← call compare [v, w]).toNumber < 0) items
  else sortBy (fun v w => pure (defaultBefore v w)) items

/-- Calls a function with an item and its place. -/
def callItem (call : Call) (f : Value) (item : Value × Nat) : Eval Value :=
  call f [item.1, count item.2]

/-- The first item, with its place, for which the function answers as wanted. -/
def findItem (call : Call) (f : Value) (wanted : Bool) (items : List Value) :
    Eval (Option (Value × Nat)) :=
  items.zipIdx.findM? fun item => do return (← callItem call f item).truthy == wanted

/-- The items of a value that is an array, and the value itself otherwise. -/
def spread (v : Value) : List Value :=
  match v with
  | .array _ items => items.toList
  | v => [v]

/-- The items with inner arrays opened down to a depth. -/
def flatten : Nat → List Value → List Value
  | 0, items => items
  | depth + 1, items => items.flatMap fun
    | .array _ inner => flatten depth inner.toList
    | v => [v]

/-- The depth that `flat` opens. -/
def flatDepth (v : Value) : Nat :=
  if v.isUndefined then 1 else min (Number.toCount v.toNumber) 32

/-- Strict equality, except that what is no number equals itself. -/
def isItem (needle v : Value) : Bool :=
  v.strictEquals needle ||
    match v, needle with
    | .number x, .number y => x.isNaN && y.isNaN
    | _, _ => false

/-- Folds the items with a function, starting from the second argument or the first item. -/
def reduced (call : Call) (f : Value) (args items : List Value) : Eval Value := do
  let step := fun (acc : Value) (item : Value × Nat) => call f [acc, item.1, count item.2]
  match args, items.zipIdx with
  | _ :: start :: _, items => items.foldlM step start
  | _, (first, _) :: rest => rest.foldlM step first
  | _, [] => throw (.wrongType "Reduce of empty array with no initial value")

/-- The items as one text; `undefined` and `null` leave none. -/
def joined (separator : String) (items : List Value) : String :=
  separator.intercalate (items.map fun v => if v.isNullish then "" else v.text)

/-- A method of arrays; `none` if there is none of that name. -/
def ofArray (call : Call) (self : Value) (items : List Value) (name : String) (args : List Value) :
    Eval (Option Value) := do
  match name with
  | "map" =>
    let f ← callback args
    let out ← items.zipIdx.mapM (callItem call f)
    some <$> Eval.newList out
  | "filter" =>
    let f ← callback args
    let out ← items.zipIdx.filterM fun item => do return (← callItem call f item).truthy
    some <$> Eval.newList (out.map (·.1))
  | "forEach" =>
    let f ← callback args
    items.zipIdx.forM fun item => do let _ ← callItem call f item
    return some .undefined
  | "find" =>
    let found ← findItem call (← callback args) true items
    return some ((found.map (·.1)).getD .undefined)
  | "findIndex" =>
    let found ← findItem call (← callback args) true items
    return some (placeOrMinusOne (found.map (·.2)))
  | "some" => return some (.bool (← findItem call (← callback args) true items).isSome)
  | "every" => return some (.bool (← findItem call (← callback args) false items).isNone)
  | "reduce" => some <$> reduced call (← callback args) args items
  | "flatMap" =>
    let f ← callback args
    let out ← items.zipIdx.mapM (callItem call f)
    some <$> Eval.newList (out.flatMap spread)
  | "join" => some <$> Eval.newString (joined (textOr "," (argument args 0)) items)
  | "includes" => return some (.bool (items.any (isItem (argument args 0))))
  | "indexOf" => return some (placeOrMinusOne (items.findIdx? (·.strictEquals (argument args 0))))
  | "lastIndexOf" =>
    let fromEnd := items.reverse.findIdx? (·.strictEquals (argument args 0))
    return some (placeOrMinusOne (fromEnd.map (items.length - 1 - ·)))
  | "slice" =>
    let start := relativeIndex (argument args 0) items.length 0
    let stop := relativeIndex (argument args 1) items.length items.length
    some <$> Eval.newList ((items.drop start).take (stop - start))
  | "concat" => some <$> Eval.newList (items ++ args.flatMap spread)
  | "reverse" => some <$> Eval.newList items.reverse
  | "sort" => some <$> (Eval.newList =<< sorted call (argument args 0) items)
  | "flat" => some <$> Eval.newList (flatten (flatDepth (argument args 0)) items)
  | "at" =>
    let found := relativePlace? (argument args 0) items.length >>= fun i => items[i]?
    return some (found.getD .undefined)
  | "keys" => some <$> Eval.plainArray ((List.range items.length).map count).toArray
  | "toString" => some <$> Eval.newString self.text
  | _ => return none

/-- Methods that change an array in place. -/
inductive InPlace where
  | push
  | pop
  | shift
  | unshift
  deriving Repr, DecidableEq

/-- The method of a name, if it changes arrays in place. -/
def InPlace.ofName? : String → Option InPlace
  | "push" => some .push
  | "pop" => some .pop
  | "shift" => some .shift
  | "unshift" => some .unshift
  | _ => none

/-- The name of the method. -/
def InPlace.name : InPlace → String
  | .push => "push"
  | .pop => "pop"
  | .shift => "shift"
  | .unshift => "unshift"

/-- Changes an array: the answer of the method and the items afterwards. -/
def InPlace.apply (op : InPlace) (args : List Value) (items : Array Value) : Value × Array Value :=
  match op with
  | .push =>
    let items := items ++ args
    (count items.size, items)
  | .pop => (items.back?.getD .undefined, items.pop)
  | .shift => (items[0]?.getD .undefined, items.extract 1 items.size)
  | .unshift =>
    let items := args.toArray ++ items
    (count items.size, items)

/-- Changes the value in a slot, which has to be an array and must not become too long. -/
def InPlace.onSlot (op : InPlace) (args : List Value) (id : Identity) (maxLength : Nat)
    (v : Value) : Except ScriptError Value × Value :=
  match v with
  | .array _ items =>
    let (answer, items) := op.apply args items
    if maxLength < items.size then (.error Eval.invalidLength, .undefined)
    else (.ok answer, .array id items)
  | _ => (.error (.notFunction op.name), .undefined)

end Stencil.Script.Method
