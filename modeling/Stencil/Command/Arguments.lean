import Stencil.Command.Basic
/-!
# Reading arguments

An option is written `--name value`, `--name=value`, `-x value`, `-xvalue` or `-x=value`; letters
without values may share one dash.  Behind `--` nothing is an option.  The first argument that is
none names the command, and its options are known from there on.
-/
namespace Stencil.Command

/-- An argument: an option that was given, or an operand. -/
inductive Argument where
  | option (name : String) (value : Option String)
  | operand (text : String)
  deriving Repr, DecidableEq

/-- Whether an argument can be the value of the option before it. -/
def isValue (argument : String) : Bool :=
  !argument.startsWith "-" || argument == "-"

/-- What one argument that may hold several letters says. -/
inductive Piece where
  /-- Options that are complete. -/
  | complete (options : List Argument)
  /-- Options of which the last one, here named, waits for its value. -/
  | waiting (options : List Argument) (name : String)

/-- An option by its name, with the value behind `=` if there is one. -/
def longOption (switches : List Switch) (cs : List Char) : Except UsageError Piece :=
  let (nameChars, tail) := cs.span (· != '=')
  let name := String.ofList nameChars
  match switches.find? (·.name == name), tail with
  | none, _ => .error (.unexpected ("--" ++ name))
  | some s, [] =>
    .ok (if s.takesValue then .waiting [] s.name else .complete [.option s.name none])
  | some s, _ :: value =>
    if s.takesValue then .ok (.complete [.option s.name (some (String.ofList value))])
    else .error (.unwantedValue ("--" ++ name))

/-- Options by their letters; the last one takes what follows it as its value. -/
def shortOptions (switches : List Switch) (done : List Argument) :
    List Char → Except UsageError Piece
  | [] => .ok (.complete done.reverse)
  | c :: cs =>
    match switches.find? (·.letter == some c), cs with
    | none, _ => .error (.unexpected ("-" ++ c.toString))
    | some s, cs =>
      if !s.takesValue then shortOptions switches (.option s.name none :: done) cs
      else
        match cs with
        | [] => .ok (.waiting done.reverse s.name)
        | '=' :: value | value =>
          .ok (.complete ((.option s.name (some (String.ofList value)) :: done).reverse))

/-- What an argument says: an operand, if it is no option. -/
def pieceOf (switches : List Switch) (argument : String) : Except UsageError Piece :=
  match argument.toList with
  | '-' :: '-' :: cs => longOption switches cs
  | '-' :: c :: cs => shortOptions switches [] (c :: cs)
  | _ => .ok (.complete [.operand argument])

/-- Whether the argument is the one after which nothing is an option. -/
def isEndOfOptions (argument : String) : Bool :=
  argument == "--"

/-- The switches that are known behind some arguments: those of the command once it is named. -/
def switchesBehind (switches : List Switch) (named : Bool) (arguments : List Argument) :
    Except UsageError (List Switch × Bool) :=
  if named then .ok (switches, true)
  else
    match arguments with
    | [.operand name] =>
      match Switch.ofCommand? name with
      | some own => .ok (switches ++ own, true)
      | none => .error (.unknownCommand name)
    | _ => .ok (switches, false)

/-- Reads arguments; `named` says whether the command is known already. -/
def readArguments (switches : List Switch) (named : Bool) :
    List String → Except UsageError (List Argument)
  | [] => .ok []
  | argument :: rest => do
    if isEndOfOptions argument then return rest.map .operand
    match ← pieceOf switches argument with
    | .complete arguments =>
      let (switches, named) ← switchesBehind switches named arguments
      return arguments ++ (← readArguments switches named rest)
    | .waiting arguments name =>
      match rest with
      | value :: rest =>
        if isValue value then
          return arguments ++ .option name (some value) :: (← readArguments switches named rest)
        else throw (.missingValue ("--" ++ name))
      | [] => throw (.missingValue ("--" ++ name))

/-- The values that an option was given. -/
def valuesOf (name : String) (arguments : List Argument) : List String :=
  arguments.filterMap fun
    | .option n value => if n = name then value else none
    | .operand _ => none

/-- The value that an option was given, if it was. -/
def valueOf? (name : String) (arguments : List Argument) : Option String :=
  (valuesOf name arguments).getLast?

/-- Whether an option was given. -/
def isGiven (name : String) (arguments : List Argument) : Bool :=
  arguments.any fun
    | .option n _ => n == name
    | .operand _ => false

/-- The operands. -/
def operands (arguments : List Argument) : List String :=
  arguments.filterMap fun
    | .operand text => some text
    | .option .. => none

/-- The options that may be given once and were given more often. -/
def overused (switches : List Switch) (arguments : List Argument) : Option String :=
  (switches.find? fun s => !s.repeats && 1 < arguments.countP fun
    | .option n _ => n == s.name
    | .operand _ => false).map (·.name)

/-- The format that the option `--format` asks for. -/
def formatOf (arguments : List Argument) : Except UsageError Format :=
  match valueOf? "format" arguments with
  | none | some "text" => .ok .text
  | some "json" => .ok .json
  | some value => .error (.badValue "--format" value)

/-- The time that the option `--timeout-ms` asks for; it fits into 64 bits. -/
def timeoutOf (arguments : List Argument) : Except UsageError (Option Nat) :=
  match valueOf? "timeout-ms" arguments with
  | none => .ok none
  | some value =>
    match value.toList with
    | [] => .error (.badValue "--timeout-ms" value)
    | ds =>
      if ds.all Char.isDigit && value.toNat?.any (· < Nat.pow 2 64) then .ok value.toNat?
      else .error (.badValue "--timeout-ms" value)

/-- The one file that a command needs. -/
def fileOf : List String → Except UsageError String
  | [] => .error .missingFile
  | [file] => .ok file
  | _ :: extra :: _ => .error (.unexpected extra)

/-- The command of a name with its arguments. -/
def ofArguments (name : String) (files : List String) (arguments : List Argument) :
    Except UsageError Command :=
  match name with
  | "render" => do
    return .render
      { template := ← fileOf files
        assignments := valuesOf "var" arguments
        varsFile := valueOf? "vars-file" arguments
        helperFiles := valuesOf "helper-file" arguments
        moduleFiles := valuesOf "module-file" arguments
        helperUrls := valuesOf "helper-url" arguments
        debug := isGiven "debug" arguments
        timeout := ← timeoutOf arguments }
  | "check" => do
    return .check (← fileOf files) (isGiven "module" arguments) (← formatOf arguments)
  | "scan" => do return .scan (← fileOf files) (← formatOf arguments)
  | "config" =>
    match files with
    | [] => .ok .config
    | extra :: _ => .error (.unexpected extra)
  | name => .error (.unknownCommand name)

end Stencil.Command

namespace Stencil.Invocation
open Stencil.Command

/-- What the arguments of a command line ask for. -/
def ofArguments (words : List String) : Except UsageError Invocation := do
  let arguments ← readArguments Switch.shared false words
  match operands arguments with
  | [] => throw .missingCommand
  | name :: files =>
    let switches := Switch.shared ++ (Switch.ofCommand? name).getD []
    match overused switches arguments with
    | some option => throw (.repeated ("--" ++ option))
    | none =>
      return { command := ← Command.ofArguments name files arguments
               configFile := valueOf? "config" arguments
               logLevel := valueOf? "log-level" arguments }

end Stencil.Invocation
