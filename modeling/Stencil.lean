import Stencil.Address.AllowList
import Stencil.Address.Basic
import Stencil.Address.Domain
import Stencil.Address.Numeric
import Stencil.Address.Punycode
import Stencil.Cache.Lru
import Stencil.Calendar.Basic
import Stencil.Calendar.Format
import Stencil.Calendar.Read
import Stencil.Cancel.Clones
import Stencil.Cancel.Token
import Stencil.Command.Arguments
import Stencil.Command.Assignment
import Stencil.Command.Basic
import Stencil.Command.Outcome
import Stencil.Command.Report
import Stencil.Config.Basic
import Stencil.Config.Codec
import Stencil.Config.Document
import Stencil.Config.Fields
import Stencil.Diagnosis.Basic
import Stencil.Diagnosis.Excerpt
import Stencil.Diagnosis.Kind
import Stencil.Diagnosis.Message
import Stencil.Digest.Sha256
import Stencil.Engine.Basic
import Stencil.Engine.Fetch
import Stencil.Engine.Helpers
import Stencil.Engine.Registry
import Stencil.Engine.Render
import Stencil.Helper.Basic
import Stencil.Helper.Compile
import Stencil.Helper.Module
import Stencil.Json.Basic
import Stencil.Json.Read
import Stencil.Json.Write
import Stencil.Main
import Stencil.Number.Binary
import Stencil.Number.Format
import Stencil.Number.Leading
import Stencil.Number.Radix
import Stencil.Number.Read
import Stencil.Number.Root
import Stencil.Number.Shortest
import Stencil.Proofs.Script.Activations
import Stencil.Proofs.Script.Content
import Stencil.Proofs.Script.Deadline
import Stencil.Proofs.Script.Places
import Stencil.Proofs.Script.StepLogic
import Stencil.Proofs.Script.Steps
import Stencil.Proofs.Template.Substitution
import Stencil.Script.Arguments
import Stencil.Script.Bindings
import Stencil.Script.Builtin
import Stencil.Script.Error
import Stencil.Script.Eval
import Stencil.Script.Globals
import Stencil.Script.Limits
import Stencil.Script.Machine
import Stencil.Script.Method.Arrays
import Stencil.Script.Method.Basic
import Stencil.Script.Method.Dispatch
import Stencil.Script.Method.Scalars
import Stencil.Script.Method.Strings
import Stencil.Script.Native
import Stencil.Script.Operators
import Stencil.Script.Parse
import Stencil.Script.Run
import Stencil.Script.Token
import Stencil.Script.Token.Scan
import Stencil.Script.Tree
import Stencil.Script.Value.Basic
import Stencil.Script.Value.Equality
import Stencil.Script.Value.Height
import Stencil.Script.Value.Json
import Stencil.Script.Value.Text
import Stencil.Security.Scan
import Stencil.Security.Violation
import Stencil.Template.Block
import Stencil.Template.Placeholder
import Stencil.Template.Render
import Stencil.Text.Bytes
import Stencil.Text.Case
import Stencil.Text.CaseTable
import Stencil.Text.Class
import Stencil.Text.LetterTable
import Stencil.Text.Pattern
import Stencil.Text.Percent
import Stencil.Text.PrintTable
import Stencil.Text.Quoted
import Stencil.Text.Search
import Stencil.Text.Words
import Stencil.Yaml.Flow
import Stencil.Yaml.Line
import Stencil.Yaml.Read
import Stencil.Yaml.Scalar
import Stencil.Yaml.Write
import Stencil.Proofs.Script.Parser.Locality
import Stencil.Proofs.Script.Parser.Levels
import Stencil.Proofs.Script.Parser.Parts
import Stencil.Proofs.Helper.Scanned
import Stencil.Proofs.Script.ArrayLength
import Stencil.Proofs.Script.HelperCalls
import Stencil.Proofs.Script.Height
import Stencil.Proofs.Script.Ledger
import Stencil.Proofs.Script.Nesting
import Stencil.Proofs.Script.NestingDepth
import Stencil.Proofs.Script.Renaming.Machine
import Stencil.Proofs.Cache.Lru
import Stencil.Proofs.Cache.Recency
import Stencil.Proofs.Cache.History
import Stencil.Proofs.Engine.Caches
import Stencil.Proofs.Script.Parser.Trees
import Stencil.Proofs.Script.Promise
import Stencil.Proofs.Helper.Discarded
import Stencil.Proofs.Script.Charges
import Stencil.Proofs.Script.Making
import Stencil.Proofs.Script.Parser.Spines
import Stencil.Proofs.Script.StringLength
import Stencil.Proofs.Script.Allocation
import Stencil.Proofs.Helper.Scoping
import Stencil.Proofs.Template.Plan
import Stencil.Proofs.Template.Pieces
import Stencil.Proofs.Template.Control
import Stencil.Proofs.Template.Truncation
import Stencil.Proofs.Script.Detached
import Stencil.Proofs.Script.LexicalCalls
import Stencil.Proofs.Script.Holding
import Stencil.Proofs.Script.KeyOrigins
import Stencil.Proofs.Security.Scan
import Stencil.Proofs.Script.Token.Spelling
import Stencil.Proofs.Script.Parser.Texts
import Stencil.Proofs.Security.Coverage
import Stencil.Proofs.Template.Agreement
import Stencil.Proofs.Cancel.Settled
import Stencil.Proofs.Engine.Merging
import Stencil.Proofs.Script.Hoisting
import Stencil.Proofs.Helper.Declared
import Stencil.Proofs.Script.HoistedCalls
import Stencil.Proofs.Script.Rearrangement
import Stencil.Proofs.Script.MatchLogic
import Stencil.Proofs.Script.MatchLogic.Methods
import Stencil.Proofs.Script.MatchLogic.Natives
import Stencil.Proofs.Script.MatchLogic.Evaluator
import Stencil.Proofs.Script.Agreement
import Stencil.Proofs.Script.Agreement.Places
import Stencil.Proofs.Script.Agreement.Machine
import Stencil.Proofs.Script.Agreement.Steps
import Stencil.Proofs.Script.Agreement.Hoisting
import Stencil.Proofs.Script.Agreement.Programs
import Stencil.Proofs.Text.Digits
import Stencil.Proofs.Text.Percent
import Stencil.Proofs.Text.Slices
import Stencil.Proofs.Template.Standing
import Stencil.Proofs.Template.Offsets
import Stencil.Proofs.Template.Placeholders
import Stencil.Proofs.Script.Token.Interpolation
import Stencil.Proofs.Script.Parser.Precedence
import Stencil.Proofs.Script.Sorting
import Stencil.Proofs.Script.Paths
import Stencil.Proofs.Script.ArgumentChecks
import Stencil.Proofs.Script.PlaceKeys
import Stencil.Proofs.Script.Conversion.Text
import Stencil.Proofs.Script.Conversion.Json
import Stencil.Proofs.Script.Conversion.Limits
import Stencil.Proofs.Script.Token.Offsets
import Stencil.Proofs.Script.Parser.Holes
import Stencil.Proofs.Script.Parser.Uniformity
import Stencil.Proofs.Script.Parser.Offsets
import Stencil.Proofs.Diagnosis.Excerpt
import Stencil.Proofs.Text.Occurrences
import Stencil.Proofs.Script.Replacement
import Stencil.Proofs.Script.OptionalChains
import Stencil.Proofs.Script.Loosening.Programs
import Stencil.Proofs.Script.NativeTexts
import Stencil.Proofs.Number.Exact
import Stencil.Proofs.Number.Numerals
import Stencil.Proofs.Script.Flows
import Stencil.Proofs.Script.LoopControl
import Stencil.Proofs.Script.Parser.Progress
