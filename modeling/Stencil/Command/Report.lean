import Stencil.Command.Basic
import Stencil.Engine.Registry
import Stencil.Json.Write
import Stencil.Security.Scan
/-!
# Reports

What the commands `check` and `scan` print, as lines of text or as JSON.
-/
namespace Stencil

namespace Diagnosis

/-- The example of a diagnosis as JSON. -/
def exampleJson : String × String → Json
  | (bad, good) => .object [("bad", .string bad), ("good", .string good)]

/-- A diagnosis as JSON. -/
def toJson (d : Diagnosis) : Json :=
  .object
    [("kind", .string d.kind.name), ("message", .string d.message),
      ("suggestion", .string d.suggestion),
      ("example", (d.kind.example?.map exampleJson).getD .null),
      ("near", (d.near.map fun e =>
        .object [("snippet", .string e.snippet), ("column", .number (.integer e.column))]).getD
          .null)]

end Diagnosis

namespace Command

/-- A function that a checked source defines. -/
structure FunctionSummary where
  name : String
  arity : Nat
  deriving Repr, DecidableEq

/-- What checking a source found: its functions in the order of their names, or what is wrong with
it. -/
abbrev CheckReport := Except Diagnosis (List FunctionSummary)

namespace CheckReport

/-- The report on helpers, or on the reason why there are none. -/
def ofHelpers (r : Except HelperError HelperTable) : CheckReport :=
  match r with
  | .ok table =>
    .ok ((table.map fun (_, h) => ⟨h.name, h.arity⟩).mergeSort fun a b => a.name ≤ b.name)
  | .error e => .error e.diagnosis

/-- Whether the source is in order. -/
def isOk (r : CheckReport) : Bool :=
  r.toBool

/-- The lines of a report. -/
def lines : CheckReport → List String
  | .ok [] => ["! no functions registered"]
  | .ok functions => functions.map fun f => s!"✓ {f.name} (arity {f.arity})"
  | .error d => ["✗ " ++ d.display, "  " ++ d.suggestion]

/-- A report as JSON. -/
def toJson (r : CheckReport) : Json :=
  let functions := match r with
    | .ok functions => functions
    | .error _ => []
  let error := match r with
    | .ok _ => .null
    | .error d => d.toJson
  .object
    [("ok", .bool r.isOk),
      ("functions", .array (functions.map fun f =>
        .object [("name", .string f.name), ("arity", .number (.integer f.arity))])),
      ("error", error)]

/-- The text of a report. -/
def text (r : CheckReport) : Format → String
  | .text => String.join (r.lines.map (· ++ "\n"))
  | .json => r.toJson.pretty "  " ++ "\n"

end CheckReport

/-- What scanning a source found: nothing, or the first piece of forbidden code. -/
abbrev ScanReport := Option Security.Violation

namespace ScanReport

/-- A violation as JSON. -/
def violationJson (v : Security.Violation) : Json :=
  .object [("category", .string v.category.identifier), ("snippet", .string v.snippet),
    ("offset", .number (.integer v.offset))]

/-- A report as JSON. -/
def toJson : ScanReport → Json
  | none => .object [("ok", .bool true)]
  | some v => .object [("ok", .bool false), ("violation", violationJson v)]

/-- The line of a report. -/
def line : ScanReport → String
  | none => "✓ no violations"
  | some v => s!"✗ {v.category.description} at offset {v.offset}: {v.snippet}"

/-- The text of a report. -/
def text (r : ScanReport) : Format → String
  | .text => r.line ++ "\n"
  | .json => r.toJson.compact ++ "\n"

end ScanReport
end Command
end Stencil
