import Std.Time.DateTime.Timestamp
import Stencil.Command.Arguments
import Stencil.Command.Outcome
/-!
# The command line

Reads arguments and files, lets `Command` do the work, and prints what comes of it.
-/
namespace Stencil.CommandLine
open Stencil.Command

/-- A program that may fail. -/
abbrev Program := ExceptT Failure IO

/-- Why reading failed. -/
def reasonOf (e : IO.Error) : String :=
  toString e

/-- The text of a file; a file named `-` is the standard input. -/
def readText (path : String) : IO String := do
  if path == "-" then (← IO.getStdin).readToEnd else IO.FS.readFile path

/-- The text of a file that has to be there. -/
def required (path : String) : Program String := do
  match ← (readText path).toBaseIO with
  | .ok text => return text
  | .error e => throw (.unreadable path (reasonOf e))

/-- The text of a file that may be missing. -/
def attempted (path : String) : IO (String × Source) := do
  match ← (IO.FS.readFile path).toBaseIO with
  | .ok text => return (path, .ok text)
  | .error e => return (path, .error (reasonOf e))

/-- The configuration in a file, or the default one. -/
def loadConfig (path : Option String) : Program Config := do
  match path with
  | none => return {}
  | some path =>
    match ← (IO.FS.readFile path).toBaseIO with
    | .ok text => configOfText path text
    | .error e => throw (.badConfigFile path (reasonOf e))

/-- The files of a render. -/
def renderFiles (r : RenderRequest) : Program RenderFiles := do
  let vars ← r.varsFile.mapM fun path => return (path, ← required path)
  let template ← required r.template
  let helpers ← r.helperFiles.mapM fun path => (attempted path : IO _)
  let modules ← r.moduleFiles.mapM fun path => (attempted path : IO _)
  return { template, vars, helpers, modules }

/-- What the host provides: the present. -/
def host : IO Script.Host := do
  let ms := (← Std.Time.Timestamp.now).toMillisecondsSinceUnixEpoch.val
  return { now := (Calendar.Instant.ofMillis? ms).getD ⟨0, 0⟩ }

/-- Carries out a command. -/
def carryOut (config : Config) (command : Command) : Program Outcome := do
  match command with
  | .render request =>
    let files ← renderFiles request
    Outcome.ofRender config (← host) request files
  | .check file isModule format => return Outcome.ofCheck config isModule format (← required file)
  | .scan file format => return Outcome.ofScan format (← required file)
  | .config => return Outcome.ofConfig config

/-- Carries out what a command line asks for. -/
def run (i : Invocation) : Program Outcome := do
  let config ← loadConfig i.configFile
  if let some warning := logLevelWarning? (i.logLevel.getD config.logLevel) then
    IO.eprintln warning
  carryOut (← soundConfig config) i.command

end Stencil.CommandLine

open Stencil in
/-- Runs the command line; ends with 0 if all went well, 1 on failures, 2 on arguments that make no
sense. -/
def main (arguments : List String) : IO UInt32 := do
  match Invocation.ofArguments arguments with
  | .error e =>
    IO.eprintln ("error: " ++ e.message)
    return 2
  | .ok invocation =>
    match ← (CommandLine.run invocation).run with
    | .error failure =>
      IO.eprintln ("Error: " ++ failure.message)
      return 1
    | .ok outcome =>
      outcome.warnings.forM IO.eprintln
      IO.print outcome.output
      return outcome.code.toUInt32
