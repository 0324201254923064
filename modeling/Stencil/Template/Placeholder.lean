import Stencil.Json.Basic
import Stencil.Script.Value.Json
import Stencil.Template.Block
/-!
# Placeholders

A placeholder is a name between single braces in the literal text of a template.  It is replaced by
the text of the variable of that name; expression blocks are left as they are.
-/
namespace Stencil.Template

/-- Characters that a placeholder may start with. -/
def startsName (c : Char) : Bool :=
  c.isAlpha || c == '_' || c == '$'

/-- Characters that a placeholder may hold. -/
def continuesName (c : Char) : Bool :=
  c.isAlphanum || c == '_' || c == '$'

/-- Whether a text is the name of a placeholder. -/
def isName : List Char → Bool
  | [] => false
  | c :: cs => startsName c && cs.all continuesName

/-- The text that a JSON value has in a template. -/
def jsonText (j : Json) : String :=
  (Script.Value.ofJson 0 j).1.text

/-- What stands for a placeholder: the text of its variable, or the placeholder itself, which is
marked in debug mode. -/
def replacement (vars : List (String × Json)) (debug : Bool) (name : String) : String :=
  match vars.lookup name with
  | some j => jsonText j
  | none => "\x7b" ++ name ++ (if debug then "?\x7d" else "\x7d")

/-- The name of the placeholder whose opening brace stands before a text.  A name next to another
closing brace is no placeholder. -/
def placeholder? (cs : List Char) : Option (List Char) :=
  match cs.span continuesName with
  | (name, '\x7d' :: after) =>
    if isName name && after.head? != some '\x7d' then some name else none
  | _ => none

/-- Replaces the placeholders of literal text.  `skip` counts the characters of a placeholder that
are still to be passed over, and `afterBrace` says whether an opening brace stands before the text,
next to which another brace opens no placeholder. -/
def substituteLiteral (vars : List (String × Json)) (debug : Bool) (out : String) (skip : Nat)
    (afterBrace : Bool) : List Char → String
  | [] => out
  | c :: cs =>
    match skip with
    | skip + 1 => substituteLiteral vars debug out skip false cs
    | 0 =>
      if c = '\x7b' then
        match if afterBrace then none else placeholder? cs with
        | some name =>
          let out := out ++ replacement vars debug (String.ofList name)
          substituteLiteral vars debug out (name.length + 1) false cs
        | none => substituteLiteral vars debug (out.push c) 0 true cs
      else substituteLiteral vars debug (out.push c) 0 false cs

/-- Replaces the placeholders of a template outside of its blocks. -/
def substituteFrom (vars : List (String × Json)) (debug : Bool) (out : String) (cs : List Char) :
    String :=
  match h : nextBlock cs with
  | .none => substituteLiteral vars debug out 0 false cs
  | .unclosed before body =>
    substituteLiteral vars debug out 0 false before ++ String.ofList (opening ++ body)
  | .found before inner after =>
    have : after.length < cs.length :=
      (Block.length_lt (nextBlock_append (by simp [h])) h).2
    let block := opening ++ inner ++ closing
    substituteFrom vars debug
      (substituteLiteral vars debug out 0 false before ++ String.ofList block) after
termination_by cs.length

/-- Replaces the placeholders of a template. -/
def substitute (vars : List (String × Json)) (debug : Bool) (template : String) : String :=
  substituteFrom vars debug "" template.toList

end Stencil.Template
