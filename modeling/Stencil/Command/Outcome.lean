import Stencil.Command.Assignment
import Stencil.Command.Report
import Stencil.Config.Fields
import Stencil.Engine.Fetch
import Stencil.Engine.Render
import Stencil.Json.Read
import Stencil.Yaml.Read
import Stencil.Yaml.Write
/-!
# Outcomes of commands

What a command does once its files are read.  Nothing here touches the outside: the texts of the
files come in, and an `Outcome` says what to print and how to end.
-/
namespace Stencil

/-- Why a command was not carried out. -/
inductive Command.Failure where
  | unreadable (path reason : String)
  | badConfigFile (path reason : String)
  | badConfig (fault : String)
  | badVariables (path : String)
  | badAssignment (e : Command.AssignmentError)
  | badTemplate (e : Engine.RenderError)
  deriving Repr, DecidableEq

/-- The text of a failure. -/
def Command.Failure.message : Command.Failure → String
  | .unreadable path reason => "Failed to read " ++ path ++ ": " ++ reason
  | .badConfigFile path reason => "Failed to load config from " ++ path ++ ": " ++ reason
  | .badConfig fault => "Invalid configuration: " ++ fault
  | .badVariables path => path ++ " is not a JSON object"
  | .badAssignment e => e.message
  | .badTemplate e => e.message

/-- What a command prints, and the code with which it ends. -/
structure Command.Outcome where
  output : String
  /-- The lines for the user who watches. -/
  warnings : List String := []
  code : Nat := 0
  deriving Repr, DecidableEq

/-- A text that was read from a file, or why it could not be read. -/
abbrev Command.Source := Except String String

/-- The files of a render. -/
structure Command.RenderFiles where
  template : String
  /-- The JSON text of variables and where it comes from. -/
  vars : Option (String × String) := none
  helpers : List (String × Command.Source) := []
  modules : List (String × Command.Source) := []

namespace Command

/-- The configuration that the text of a file describes. -/
def configOfText (path text : String) : Except Failure Config := do
  let document ← (Yaml.read text).mapError fun e => .badConfigFile path e.message
  (Config.ofDocument document).mapError fun e => .badConfigFile path e.message

/-- A configuration under which something can be rendered. -/
def soundConfig (config : Config) : Except Failure Config :=
  match config.fault? with
  | some fault => .error (.badConfig fault)
  | none => .ok config

/-- The variables in the JSON text of a file. -/
def variablesOfText (path text : String) : Except Failure (List (String × Json)) :=
  match Json.parse text with
  | .ok (.object members) => .ok members
  | _ => .error (.badVariables path)

/-- The variables of a render; assignments take the place of what the file says. -/
def variablesOf (file : Option (String × String)) (assignments : List String) :
    Except Failure (List (String × Json)) := do
  let fromFile ← match file with
    | some (path, text) => variablesOfText path text
    | none => pure []
  let assigned ← (parseAssignments assignments).mapError .badAssignment
  return assigned.foldl (fun vars (key, value) => Json.insertMember key value vars) fromFile

/-- An address cannot be asked from the command line. -/
def unanswered (url : String) : Script.FetchAnswer :=
  .failure ("no connection to " ++ url)

/-- The registry with all helpers of a render. -/
def registryFor (engine : Engine) (request : RenderRequest) (files : RenderFiles) : Registry :=
  let r : Registry := { engine }
  let r := files.helpers.foldl (fun r (path, source) => (r.addHelperFile path source).2) r
  let r := files.modules.foldl (fun r (path, source) => (r.addModuleFile path source).2) r
  request.helperUrls.foldl Registry.afterUrl r

/-- What a user is told about a source that was not accepted. -/
def rejectionWarning (r : Rejection) : String :=
  "warning: skipped helper from " ++ r.origin ++ ": " ++ r.error.message

/-- The options of a render that a request sets. -/
def RenderRequest.options (request : RenderRequest) : RenderOptions :=
  { debug := if request.debug then some true else none, timeout := request.timeout }

/-- The outcome of rendering a template. -/
def Outcome.ofRender (config : Config) (host : Script.Host) (request : RenderRequest)
    (files : RenderFiles) : Except Failure Outcome := do
  let vars ← variablesOf files.vars request.assignments
  let host := { host with fetch := config.fetch.guarded? unanswered }
  let registry := registryFor (Engine.ofConfig config host) request files
  let (result, _) := registry.engine.render files.template vars registry.table request.options
  let output ← result.mapError .badTemplate
  return { output, warnings := registry.rejections.map rejectionWarning }

/-- The outcome of checking a helper or a module. -/
def Outcome.ofCheck (config : Config) (isModule : Bool) (format : Format) (source : String) :
    Outcome :=
  let engine := Engine.ofConfig config
  let result := if isModule then (engine.load source).1
    else (engine.compile source).1.map fun h => [(h.name, h)]
  let report := CheckReport.ofHelpers result
  { output := report.text format, code := if report.isOk then 0 else 1 }

/-- The outcome of looking for forbidden code. -/
def Outcome.ofScan (format : Format) (source : String) : Outcome :=
  let report : ScanReport := Security.violation? source
  { output := report.text format, code := if report.isNone then 0 else 1 }

/-- The outcome of showing a configuration in full. -/
def Outcome.ofConfig (config : Config) : Outcome :=
  { output := Yaml.written config.toDocument }

/-- The levels at which a log may be kept. -/
def logLevels : List String :=
  ["TRACE", "DEBUG", "INFO", "WARN", "WARNING", "ERROR"]

/-- What a user is told about a level that there is not. -/
def logLevelWarning? (level : String) : Option String :=
  let upper := String.ofList (level.toList.map Char.toUpper)
  if logLevels.contains upper then none
  else some ("Warning: Unknown log-level '" ++ upper ++ "', defaulting to INFO")

end Command
end Stencil
