import Stencil.Script.Method.Basic
import Stencil.Text.Case
import Stencil.Text.Search
/-!
# Methods of strings

A string is a sequence of characters; lengths and places count characters.
-/
namespace Stencil.Script.Method
open Value (argument)

/-- Characters as a string value. -/
def ofChars (cs : List Char) : Value :=
  .string (String.ofList cs)

/-- One character as a string value, or `undefined`. -/
def ofChar? (c : Option Char) : Value :=
  (c.map fun c => ofChars [c]).getD .undefined

/-- The number of a place for `substring`: within the length, and the default if it is missing. -/
def clampedIndex (v : Value) (length default : Nat) : Nat :=
  if v.isNullish then default else min (Number.toCount v.toNumber) length

/-- The pieces that `split` makes. -/
def pieces (s : String) (separator : Value) : List Value :=
  if separator.isUndefined then [.string s]
  else
    match separator.text.toList with
    | [] => s.toList.map fun c => ofChars [c]
    | sep => (Text.splitOn sep s.toList).map ofChars

/-- What `replace` puts in the place of an occurrence. -/
def replacementText (call : Call) (search replacement : Value) : Eval String := do
  if replacement.isCallable then return (← call replacement [search]).text
  else return replacement.text

/-- Replaces an empty text: in front of the first character, or of every character. -/
def replaceEmpty (call : Call) (replacement : Value) (all : Bool) (out : String) :
    List Char → Eval String
  | [] => return out ++ (← replacementText call (.string "") replacement)
  | c :: cs => do
    let out := out ++ (← replacementText call (.string "") replacement)
    if all then
      Eval.tick
      replaceEmpty call replacement all (out.push c) cs
    else return out ++ String.ofList (c :: cs)

/-- Replaces occurrences of a text that is not empty: the first, or all; `fuel` bounds their
number. -/
def replaceFrom (call : Call) (search : List Char) (replacement : Value) (all : Bool)
    (out : String) (cs : List Char) : Nat → Eval String
  | 0 => return out ++ String.ofList cs
  | fuel + 1 => do
    match Text.breakOn? search cs with
    | none => return out ++ String.ofList cs
    | some (before, after) =>
      let piece ← replacementText call (ofChars search) replacement
      let out := out ++ String.ofList before ++ piece
      Eval.tick
      if all then replaceFrom call search replacement all out after fuel
      else return out ++ String.ofList after

/-- The text with the first or all occurrences replaced. -/
def replaced (call : Call) (s : String) (search : String) (replacement : Value) (all : Bool) :
    Eval String :=
  match search.toList with
  | [] => replaceEmpty call replacement all "" s.toList
  | cs => replaceFrom call cs replacement all "" s.toList (s.length + 1)

/-- The text repeated. -/
def repeated (s : String) (n : Nat) : String :=
  if s.isEmpty then "" else (List.replicate n s).foldl (· ++ ·) ""

/-- `n` characters that repeat a text, which is not empty. -/
def filling (cs : List Char) (n : Nat) : List Char :=
  go [] cs n
where
  /-- `rest` is what is left of the present round, `done` what was made, last first. -/
  go (done rest : List Char) : Nat → List Char
    | 0 => done.reverse
    | n + 1 =>
      match rest with
      | c :: rest => go (c :: done) rest n
      | [] =>
        match cs with
        | c :: rest => go (c :: done) rest n
        | [] => done.reverse

/-- `padStart` and `padEnd`: the text filled up to a number of characters. -/
def padded (s : String) (args : List Value) (atStart : Bool) : Eval Value := do
  let target := Number.toCount (argument args 0).toNumber
  if (← Eval.limits).stringLength < target then throw Eval.invalidStringLength
  let fill := textOr " " (argument args 1)
  let length := s.length
  if target ≤ length || fill.isEmpty then return .string s
  let pad := String.ofList (filling fill.toList (target - length))
  Eval.newString (if atStart then pad ++ s else s ++ pad)

/-- The code units of a character in UTF-16. -/
def utf16Units (c : Char) : List Nat :=
  let n := c.toNat
  if n < 0x10000 then [n] else [0xD800 + (n - 0x10000) / 0x400, 0xDC00 + (n - 0x10000) % 0x400]

/-- The code unit at a place of the text in UTF-16. -/
def codeUnit? (cs : List Char) (i : Nat) : Option Nat :=
  (cs.flatMap utf16Units)[i]?

/-- Minus one, zero or one as one text comes before, equals or comes after another. -/
def comparison (s t : String) : Value :=
  .number (if s < t then -1 else if s == t then 0 else 1)

/-- A method of strings; `none` if there is none of that name. -/
def ofString (call : Call) (s : String) (name : String) (args : List Value) :
    Eval (Option Value) := do
  match name with
  | "toUpperCase" | "toLocaleUpperCase" => some <$> Eval.newString (Text.toUpper s)
  | "toLowerCase" | "toLocaleLowerCase" => some <$> Eval.newString (Text.toLower s)
  | "trim" => return some (ofChars (Number.trimBlanks s.toList))
  | "trimStart" => return some (ofChars (s.toList.dropWhile Text.isBlank))
  | "trimEnd" => return some (ofChars ((s.toList.reverse.dropWhile Text.isBlank).reverse))
  | "toString" | "valueOf" => return some (.string s)
  | "includes" => return some (.bool (Text.containsText (textArgument args 0).toList s.toList))
  | "startsWith" => return some (.bool ((textArgument args 0).toList.isPrefixOf s.toList))
  | "endsWith" => return some (.bool ((textArgument args 0).toList.isSuffixOf s.toList))
  | "indexOf" => return some (placeOrMinusOne (Text.indexOf? (textArgument args 0).toList s.toList))
  | "lastIndexOf" =>
    return some (placeOrMinusOne (Text.lastIndexOf? (textArgument args 0).toList s.toList))
  | "charAt" =>
    let i := Number.toCount (argument args 0).toNumber
    return some (ofChars (s.toList[i]?.toList))
  | "at" =>
    let cs := s.toList
    return some (ofChar? (relativePlace? (argument args 0) cs.length >>= fun i => cs[i]?))
  | "slice" =>
    let cs := s.toList
    let start := relativeIndex (argument args 0) cs.length 0
    let stop := relativeIndex (argument args 1) cs.length cs.length
    return some (ofChars ((cs.drop start).take (stop - start)))
  | "substring" =>
    let cs := s.toList
    let a := clampedIndex (argument args 0) cs.length 0
    let b := clampedIndex (argument args 1) cs.length cs.length
    return some (ofChars ((cs.drop (min a b)).take (max a b - min a b)))
  | "split" =>
    let ps := pieces s (argument args 0)
    let limit := argument args 1
    let kept := if limit.isUndefined then ps else ps.take (Number.toCount limit.toNumber)
    some <$> Eval.newList kept
  | "replace" | "replaceAll" =>
    let out ← replaced call s (textArgument args 0) (argument args 1) (name == "replaceAll")
    some <$> Eval.newString out
  | "repeat" =>
    let n := (argument args 0).toNumber
    if n < 0 || n.isInf then throw (.outOfRange s!"Invalid count value: {Number.text n}")
    let times := Number.toCount n
    if (← Eval.limits).stringLength < s.utf8ByteSize * times then throw Eval.invalidStringLength
    some <$> Eval.newString (repeated s times)
  | "padStart" => some <$> padded s args true
  | "padEnd" => some <$> padded s args false
  | "concat" => some <$> Eval.newString (args.foldl (fun out v => out ++ v.text) s)
  | "localeCompare" => return some (comparison s (textArgument args 0))
  | "charCodeAt" =>
    let i := Number.toCount (argument args 0).toNumber
    return some (((codeUnit? s.toList i).map count).getD (.number Number.notANumber))
  | _ => return none

end Stencil.Script.Method
