import Stencil.Calendar.Read
import Stencil.Json.Read
import Stencil.Number.Leading
import Stencil.Number.Root
import Stencil.Script.Bindings
import Stencil.Script.Method.Arrays
import Stencil.Script.Value.Json
import Stencil.Text.Percent
import Stencil.Text.Words
/-!
# Running built-in functions

What the global functions and those of the host do with evaluated arguments, and what `new` makes.
-/
namespace Stencil.Script
open Value (argument)
open Method (count textArgument textOr)

/-- The value of a function of one number. -/
def MathFunction.apply (f : MathFunction) (x : Float) : Float :=
  match f with
  | .abs => x.abs
  | .floor => x.floor
  | .ceil => x.ceil
  | .round => (x + 0.5).floor
  | .trunc => Number.roundToZero x
  | .sign => if x.isNaN || x == 0 then x else if x < 0 then -1 else 1
  | .sqrt => x.sqrt
  | .cbrt => Number.cubeRoot x
  | .log => x.log
  | .log2 => x.log2
  | .log10 => x.log10
  | .exp => x.exp
  | .sin => x.sin
  | .cos => x.cos
  | .tan => x.tan

namespace Native

/-- The lesser of two numbers, the first if they are equal, and no number if one is none. -/
def lesser (x y : Float) : Float :=
  if x.isNaN || y.isNaN then Number.notANumber else if y < x then y else x

/-- The greater of two numbers, the first if they are equal, and no number if one is none. -/
def greater (x y : Float) : Float :=
  if x.isNaN || y.isNaN then Number.notANumber else if x < y then y else x

/-- The root of the sum of squares. -/
def rootOfSquares (xs : List Float) : Float :=
  (xs.foldl (fun sum x => sum + x * x) (-0.0)).sqrt

/-- A number between zero and one, made from the state of the random numbers. -/
def random : Eval Float :=
  modifyGet fun m =>
    let seed := (m.seed * 6364136223846793005 + 1442695040888963407) % Nat.pow 2 64
    (Number.ofParts false (seed / Nat.pow 2 11) (-53), { m with seed })

/-- The indentation that the third argument of `JSON.stringify` asks for: a number of blanks, or a
text, in either case at most ten characters. -/
def indentation (v : Value) : String :=
  match v with
  | .number x =>
    if 1 ≤ x then String.ofList (List.replicate (min (Number.toCount x) 10) ' ') else ""
  | .string s => String.ofList (s.toList.take 10)
  | _ => ""

/-- The JSON text of a value. -/
def stringify (v indent : Value) : Eval Value := do
  if v.isOmitted then return .undefined
  let json ← Eval.ofExcept v.toJson
  let indent := indentation indent
  Eval.newString (if indent.isEmpty then json.compact else json.pretty indent)

/-- The value of a JSON text. -/
def parseJson (s : String) : Eval Value := do
  match Json.parse s with
  | .ok json => modifyGet fun m =>
    let (v, next) := Value.ofJson m.next json
    (v, { m with next, received := v :: m.received })
  | .error e => throw (.invalidJson e.message)

/-- The items that `Array.from` starts from. -/
def sourceItems (v : Value) : Eval (List Value) := do
  match v with
  | .array _ items => return items.toList
  | .string s => return s.toList.map fun c => .string (String.ofList [c])
  | .object _ members =>
    let length := Number.toCount (((members.lookup "length").map Value.toNumber).getD 0)
    if (← Eval.limits).arrayLength < length then throw Eval.invalidLength
    return List.replicate length .undefined
  | _ => return []

/-- `Array.from`: the items, mapped by a function if one is given. -/
def arrayFrom (call : Call) (args : List Value) : Eval Value := do
  let items ← sourceItems (argument args 0)
  let mapper := argument args 1
  if mapper.isCallable then
    Eval.newList (← items.zipIdx.mapM (Method.callItem call mapper))
  else Eval.newList items

/-- The members of an object, and the items of an array under their places. -/
def membersOf (v : Value) : List (String × Value) :=
  match v with
  | .object _ members => members
  | .array _ items => items.toList.zipIdx.map fun (v, i) => (toString i, v)
  | _ => []

/-- Adds the member that a pair of key and value stands for. -/
def addPair (members : List (String × Value)) (pair : Value) :
    Except ScriptError (List (String × Value)) :=
  match pair with
  | .array _ kv =>
    let key := (kv[0]?.map Value.text).getD ""
    if Security.isDenied key then .error (.deniedName key)
    else .ok (Json.insertMember key (kv[1]?.getD .undefined) members)
  | _ => .ok members

/-- The error object with a message. -/
def errorObject (message : Value) : Eval Value :=
  Eval.plainObject [("name", .string "Error"),
    ("message", .string (if message.isNullish then "" else message.text))]

/-- What the host answers when asked for an address. -/
def fetch (url : String) : Eval Value := do
  let context ← read
  match context.host.fetch with
  | none => throw (.wrongType "asynchronous host calls are not available here")
  | some answer =>
    modify fun m => { m with requests := m.requests ++ [url] }
    Eval.ofExcept (Eval.poll context.budget (← get).ticks)
    match answer url with
    | .body text => return .string text
    | .failure message => throw (.thrown message)
    | .pending => throw (.timeout context.budget.limit)

/-- Runs a built-in function. -/
def runBuiltin (call : Call) (b : Builtin) (args : List Value) : Eval Value := do
  let first := argument args 0
  match b with
  | .math f => return .number (f.apply first.toNumber)
  | .pow => return .number (first.toNumber.pow (argument args 1).toNumber)
  | .atan2 => return .number (first.toNumber.atan2 (argument args 1).toNumber)
  | .min => return .number ((args.map Value.toNumber).foldl lesser Number.infinity)
  | .max => return .number ((args.map Value.toNumber).foldl greater (-Number.infinity))
  | .hypot => return .number (rootOfSquares (args.map Value.toNumber))
  | .random => return .number (← random)
  | .stringify => stringify first (argument args 2)
  | .parseJson => parseJson first.text
  | .now => return .number (Number.ofInt (← Eval.now).toMillis)
  | .parseDate =>
    let found := Calendar.Instant.ofText? first.text
    return .number ((found.map fun i => Number.ofInt i.toMillis).getD Number.notANumber)
  | .string => Eval.newString (if args.isEmpty then "" else first.text)
  | .number => return .number (if args.isEmpty then 0 else first.toNumber)
  | .boolean => return .bool first.truthy
  | .parseInt =>
    let base := argument args 1
    let base := if base.isUndefined then none else some (Number.toCount base.toNumber)
    return .number (Number.leadingInteger first.text base)
  | .parseFloat => return .number (Number.leadingDecimal first.text)
  | .isNaN => return .bool first.toNumber.isNaN
  | .isFinite => return .bool (Number.isFinite first.toNumber)
  | .isArray => return .bool first.isArray
  | .arrayFrom => arrayFrom call args
  | .arrayOf => Eval.newList args
  | .keys => Eval.newList ((membersOf first).map fun (key, _) => .string key)
  | .values => Eval.newList ((membersOf first).map (·.2))
  | .entries =>
    Eval.newList (← (membersOf first).mapM fun (key, v) => Eval.plainArray #[.string key, v])
  | .fromEntries =>
    let pairs := (first.items?.getD #[]).toList
    Eval.newObject (← Eval.ofExcept (pairs.foldlM addPair []))
  | .assign =>
    let members := args.flatMap membersOf
    Eval.newObject (members.foldl (fun ms (key, v) => Json.insertMember key v ms) [])
  | .error => errorObject first
  | .encodeUriComponent => return .string (Text.Percent.encode first.text)
  | .decodeUriComponent =>
    match Text.Percent.decode? first.text with
    | some s => return .string s
    | none => throw (.wrongType "URI malformed")
  | .require =>
    match Globals.modules.lookup first.text with
    | some v => return v
    | none => throw (.moduleNotAllowed first.text)
  | .capitalize => return .string (String.ofList (Text.capitalize first.text.toList))
  | .titleCase => return .string (Text.titleCase first.text)
  | .truncate =>
    let max := (argument args 1).toNumber
    let suffix := textOr "..." (argument args 2)
    return .string (if max.isNaN then first.text
      else Text.truncate first.text (Number.toCount max) suffix)
  | .slugify => return .string (Text.slug first.text)
  | .words =>
    let words := Text.wordsBy Text.isBlank first.text.toList
    Eval.plainArray (words.map fun cs => .string (String.ofList cs)).toArray
  | .fetch => fetch (if args.isEmpty then "" else first.text)

/-- Runs a function of the host. -/
def runHost (name : String) (args : List Value) : Eval Value := do
  match (← read).host.natives name args with
  | .ok v =>
    modify fun m => { m with received := v :: m.received }
    return v
  | .error message => throw (.thrown message)

/-- Runs a function that is not written in the script language. -/
def run (call : Call) (f : Native) (args : List Value) : Eval Value :=
  match f with
  | .builtin b => runBuiltin call b args
  | .host _ name _ => runHost name args

/-- The instant that `new Date` makes of its arguments. -/
def newInstant? (now : Calendar.Instant) (args : List Value) : Option Calendar.Instant :=
  match args with
  | [] => some now
  | .number x :: _ =>
    if Number.isFinite x then Calendar.Instant.ofMillis? (Number.truncate x) else none
  | .date i :: _ => some i
  | .string s :: _ => Calendar.Instant.ofText? s
  | _ => none

/-- The array that `new Array` makes: a single number is a length, anything else is items. -/
def constructArray (args : List Value) : Eval Value := do
  match args with
  | [.number x] =>
    if !Number.isInteger x || x < 0 || (← Eval.limits).arrayLength < Number.toCount x then
      throw Eval.invalidLength
    Eval.newArray (Array.replicate (Number.toCount x) .undefined)
  | args => Eval.newList args

/-- What `new` makes with the constructor of a global name. -/
def construct (call : Call) (name : String) (args : List Value) : Eval Value := do
  match name with
  | "Date" =>
    match newInstant? (← Eval.now) args with
    | some i => return .date i
    | none => throw (.outOfRange "Invalid time value")
  | "Error" => errorObject (argument args 0)
  | "Object" => Eval.plainObject []
  | "Array" => constructArray args
  | "String" => call (Globals.function .string) args
  | "Number" => call (Globals.function .number) args
  | "Boolean" => call (Globals.function .boolean) args
  | name => throw (.wrongType s!"{name} is not a constructor")

end Native
end Stencil.Script
