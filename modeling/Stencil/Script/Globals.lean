import Stencil.Number.Read
import Stencil.Script.Value.Basic
/-!
# Global names

The names that every script can read, and the modules that `require` gives out.  The objects among
them have the first identities.
-/
namespace Stencil.Script.Globals

/-- A built-in function as a value. -/
def function (b : Builtin) : Value :=
  .native (.builtin b)

/-- A built-in function as a member under its name. -/
def member (b : Builtin) : String × Value :=
  (b.name, function b)

/-- The functions of one number in the order of their members. -/
def mathFunctions : List MathFunction :=
  [.abs, .floor, .ceil, .round, .trunc, .sign, .sqrt, .cbrt, .log, .log2, .log10, .exp, .sin, .cos,
    .tan]

/-- The mathematical constants. -/
def mathConstants : List (String × Value) :=
  [("PI", .number 3.141592653589793), ("E", .number 2.718281828459045),
    ("LN2", .number 0.6931471805599453), ("LN10", .number 2.302585092994046),
    ("SQRT2", .number 1.4142135623730951)]

/-- Mathematical constants and functions. -/
def math : Value :=
  .object 0 (mathConstants ++ (mathFunctions.map fun f => member (.math f))
    ++ [.pow, .atan2, .min, .max, .hypot, .random].map member)

/-- Reading and writing JSON. -/
def json : Value :=
  .object 1 ([.stringify, .parseJson].map member)

/-- Reading dates. -/
def date : Value :=
  .object 2 ([.now, .parseDate].map member)

/-- Functions on texts. -/
def strings : Value :=
  .object 3 ([.capitalize, .titleCase, .truncate, .slugify, .words].map member)

/-- Functions that make and recognise arrays. -/
def array : Value :=
  .object 4 ([.isArray, .arrayFrom, .arrayOf].map member)

/-- Functions on the members of objects. -/
def object : Value :=
  .object 5 ([.keys, .values, .entries, .fromEntries, .assign].map member)

/-- The first identity that no global object has. -/
def firstIdentity : Identity := 6

/-- The global names and their values. -/
def table : List (String × Value) :=
  [("Math", math), ("JSON", json), ("Date", date), ("NaN", .number Number.notANumber),
    ("Infinity", .number Number.infinity), ("undefined", .undefined),
    ("Array", array), ("Object", object)]
  ++ [.string, .number, .boolean, .parseInt, .parseFloat, .isNaN, .isFinite, .error,
    .encodeUriComponent, .decodeUriComponent, .require].map member

/-- The modules that `require` gives out. -/
def modules : List (String × Value) :=
  [("math", math), ("json", json), ("date", date), ("strings", strings)]

end Stencil.Script.Globals
