/-!
# Built-in functions

The functions that every script can reach through the global names, each with its name and the
number of arguments it announces.
-/
namespace Stencil.Script

/-- Functions of one number. -/
inductive MathFunction where
  | abs
  | floor
  | ceil
  | round
  | trunc
  | sign
  | sqrt
  | cbrt
  | log
  | log2
  | log10
  | exp
  | sin
  | cos
  | tan
  deriving Repr, DecidableEq

/-- The name of a function of one number. -/
def MathFunction.name : MathFunction → String
  | .abs => "abs"
  | .floor => "floor"
  | .ceil => "ceil"
  | .round => "round"
  | .trunc => "trunc"
  | .sign => "sign"
  | .sqrt => "sqrt"
  | .cbrt => "cbrt"
  | .log => "log"
  | .log2 => "log2"
  | .log10 => "log10"
  | .exp => "exp"
  | .sin => "sin"
  | .cos => "cos"
  | .tan => "tan"

/-- Functions of the language itself. -/
inductive Builtin where
  | math (f : MathFunction)
  | pow
  | atan2
  | min
  | max
  | hypot
  | random
  | stringify
  | parseJson
  | now
  | parseDate
  | string
  | number
  | boolean
  | parseInt
  | parseFloat
  | isNaN
  | isFinite
  | isArray
  | arrayFrom
  | arrayOf
  | keys
  | values
  | entries
  | fromEntries
  | assign
  | error
  | encodeUriComponent
  | decodeUriComponent
  | require
  | capitalize
  | titleCase
  | truncate
  | slugify
  | words
  /-- Asks the host for the text behind an address. -/
  | fetch
  deriving Repr, DecidableEq

namespace Builtin

/-- The name that the function shows. -/
def name : Builtin → String
  | .math f => f.name
  | .pow => "pow"
  | .atan2 => "atan2"
  | .min => "min"
  | .max => "max"
  | .hypot => "hypot"
  | .random => "random"
  | .stringify => "stringify"
  | .parseJson | .parseDate => "parse"
  | .now => "now"
  | .string => "String"
  | .number => "Number"
  | .boolean => "Boolean"
  | .parseInt => "parseInt"
  | .parseFloat => "parseFloat"
  | .isNaN => "isNaN"
  | .isFinite => "isFinite"
  | .isArray => "isArray"
  | .arrayFrom => "from"
  | .arrayOf => "of"
  | .keys => "keys"
  | .values => "values"
  | .entries => "entries"
  | .fromEntries => "fromEntries"
  | .assign => "assign"
  | .error => "Error"
  | .encodeUriComponent => "encodeURIComponent"
  | .decodeUriComponent => "decodeURIComponent"
  | .require => "require"
  | .capitalize => "capitalize"
  | .titleCase => "titleCase"
  | .truncate => "truncate"
  | .slugify => "slugify"
  | .words => "words"
  | .fetch => "fetch"

/-- The number of arguments that the function announces. -/
def arity : Builtin → Nat
  | .random | .now | .arrayOf => 0
  | .pow | .atan2 | .min | .max | .hypot | .parseInt | .arrayFrom | .assign => 2
  | .stringify | .truncate => 3
  | _ => 1

end Builtin
end Stencil.Script
