/-!
# Commands

What the command line can be asked to do (`Command`), the options that say so, and what can be wrong
with the arguments.
-/
namespace Stencil

/-- How a report is written. -/
inductive Command.Format where
  | text
  | json
  deriving Repr, DecidableEq

/-- A template to render and what it is rendered with.  A file named `-` is the standard input. -/
structure Command.RenderRequest where
  template : String
  /-- Variables as `KEY=VALUE`. -/
  assignments : List String := []
  /-- A file with a JSON object of variables. -/
  varsFile : Option String := none
  /-- Files with one helper each, which is named for its file. -/
  helperFiles : List String := []
  /-- Files with modules of helpers. -/
  moduleFiles : List String := []
  /-- Addresses of modules of helpers. -/
  helperUrls : List String := []
  /-- Whether errors come with advice and examples. -/
  debug : Bool := false
  /-- Time for one expression, in milliseconds. -/
  timeout : Option Nat := none
  deriving Repr, DecidableEq

/-- A command. -/
inductive Command where
  | render (request : Command.RenderRequest)
  /-- Compile a helper, or load a module, and report what it defines. -/
  | check (file : String) (isModule : Bool) (format : Command.Format)
  /-- Look for forbidden code. -/
  | scan (file : String) (format : Command.Format)
  /-- Show the configuration in full. -/
  | config
  deriving Repr, DecidableEq

namespace Command

/-- An option of the command line. -/
structure Switch where
  name : String
  letter : Option Char := none
  /-- Whether a value follows. -/
  takesValue : Bool := true
  /-- Whether it may be given more than once. -/
  repeats : Bool := false
  deriving Repr, DecidableEq

namespace Switch

/-- The options that every command has. -/
def shared : List Switch :=
  [⟨"config", some 'c', true, false⟩, ⟨"log-level", some 'l', true, false⟩]

/-- The option that says how a report is written. -/
def format : Switch :=
  ⟨"format", some 'f', true, false⟩

/-- The options of the command of a name, if there is such a command. -/
def ofCommand? : String → Option (List Switch)
  | "render" => some
      [⟨"var", none, true, true⟩, ⟨"vars-file", none, true, false⟩,
        ⟨"helper-file", none, true, true⟩, ⟨"module-file", none, true, true⟩,
        ⟨"helper-url", none, true, true⟩, ⟨"debug", some 'd', false, false⟩,
        ⟨"timeout-ms", some 't', true, false⟩]
  | "check" => some [⟨"module", some 'm', false, false⟩, format]
  | "scan" => some [format]
  | "config" => some []
  | _ => none

end Switch

/-- What is wrong with the arguments. -/
inductive UsageError where
  | missingCommand
  | unknownCommand (name : String)
  | unexpected (argument : String)
  | missingValue (option : String)
  | unwantedValue (option : String)
  | repeated (option : String)
  | badValue (option value : String)
  | missingFile
  deriving Repr, DecidableEq

/-- The text of the error. -/
def UsageError.message : UsageError → String
  | .missingCommand => "a command is required: render, check, scan or config"
  | .unknownCommand name => "unrecognized subcommand '" ++ name ++ "'"
  | .unexpected argument => "unexpected argument '" ++ argument ++ "' found"
  | .missingValue option => "a value is required for '" ++ option ++ "' but none was supplied"
  | .unwantedValue option => "unexpected value for '" ++ option ++ "' found; no more were expected"
  | .repeated option => "the argument '" ++ option ++ "' cannot be used multiple times"
  | .badValue option value => "invalid value '" ++ value ++ "' for '" ++ option ++ "'"
  | .missingFile => "a file is required"

end Command

/-- A command with the options that every command has. -/
structure Invocation where
  command : Command
  /-- The file of the configuration. -/
  configFile : Option String := none
  logLevel : Option String := none
  deriving Repr, DecidableEq

end Stencil
