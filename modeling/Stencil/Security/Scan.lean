import Stencil.Number.Read
import Stencil.Security.Violation
import Stencil.Text.Pattern
/-!
# Scanning for forbidden code

The rules that reject a source before it is parsed.  They look at the text alone, so a forbidden
word is forbidden in comments and strings as well.  The first rule with a match decides.
-/
namespace Stencil.Security
open Stencil.Text Pattern

/-- What a rule looks for and the category of what it finds. -/
structure Rule where
  category : Category
  pattern : Pattern

/-- The three quotation marks. -/
def quotes : String :=
  String.ofList ['\'', '"', Char.ofNat 0x60]

/-- A quotation mark. -/
def quote : Pattern :=
  anyOf quotes

/-- A given text that does not continue a word, blanks, and one of several characters. -/
def wordThen (word next : String) : Pattern :=
  sequence [.boundary, text word, blanks, anyOf next]

/-- A digit in base sixteen. -/
def isHexDigit (c : Char) : Bool :=
  (digitValue? 16 c).isSome

/-- The members of `Object` that reach behind objects. -/
def reflectiveMembers : Pattern :=
  oneOf [text "setPrototypeOf", text "getPrototypeOf", text "defineProperty",
    text "defineProperties", sequence [text "getOwnPropertyDescriptor", optional (text "s")]]

/-- The modules for files, processes and networks. -/
def forbiddenModules : List String :=
  ["fs", "fs/promises", "child_process", "net", "http", "https", "http2", "os", "vm",
    "worker_threads", "cluster", "dgram", "dns", "tls", "module", "process", "path", "v8",
    "inspector", "repl"]

/-- The rules for process, global object and environment. -/
def globalRules : List Pattern :=
  [word "process", word "globalThis", wordThen "global" ".[", wordThen "window" ".[",
    sequence [.boundary, texts ["Deno", "Bun"], blanks, anyOf ".["],
    .alt (word "__dirname") (word "__filename")]

/-- The rules for constructors and prototypes. -/
def prototypeRules : List Pattern :=
  [text "__proto__", word "constructor", word "prototype",
    sequence [text "__", texts ["define", "lookup"], texts ["Getter", "Setter"], text "__"],
    sequence [.boundary, text "Object", blanks, text ".", blanks, reflectiveMembers, .boundary],
    .alt (wordThen "Reflect" ".")
      (sequence [.boundary, text "new", someBlanks, text "Proxy", .boundary])]

/-- The rules for code made from text, and for timers. -/
def codeRules : List Pattern :=
  [wordThen "eval" "(",
    .alt (sequence [.boundary, text "new", someBlanks, text "Function", .boundary])
      (wordThen "Function" "("),
    sequence [.boundary, text "set", texts ["Timeout", "Interval", "Immediate"], blanks, text "("],
    oneOf [wordThen "import" "(",
      sequence [.textStart, blanks, text "import", .one isBlank],
      wordThen "with" "("]]

/-- The rule for modules. -/
def moduleRule : Pattern :=
  sequence [.boundary, text "require", blanks, text "(", blanks, quote, optional (text "node:"),
    texts forbiddenModules, quote, blanks, text ")"]

/-- The rules for names that are hidden by escapes, character codes or concatenation. -/
def hidingRules : List Pattern :=
  [sequence [text "\\x", .many isHexDigit 2 (some 2)],
    sequence [text "\\u", optional (text "\x7b"), .many isHexDigit 1 (some 6)],
    oneOf [sequence [.boundary, text "String", blanks, text ".", blanks, text "fromCharCode",
        .boundary],
      wordThen "atob" "(", wordThen "btoa" "("],
    sequence [text "[", blanks, quote, .many (fun c => !quotes.contains c && c != ']') 0 none,
      quote, blanks, text "+"]]

/-- All rules, in the order in which they are tried. -/
def rules : List Rule :=
  globalRules.map (⟨.globalAccess, ·⟩) ++ prototypeRules.map (⟨.prototypeAccess, ·⟩)
    ++ codeRules.map (⟨.dynamicCode, ·⟩) ++ [⟨.forbiddenModule, moduleRule⟩]
    ++ hidingRules.map (⟨.obfuscation, ·⟩)

/-- The violation that a rule finds in a text. -/
def Rule.violation? (r : Rule) (cs : List Char) : Option Violation :=
  (r.pattern.find? cs).map fun found =>
    ⟨r.category, String.ofList (Number.trimBlanks found.chars), found.offset⟩

/-- The violation that the first rule with a match finds in a source. -/
def violation? (source : String) : Option Violation :=
  let cs := source.toList
  rules.findSome? fun r => r.violation? cs

/-- Rejects a source in which some rule has a match. -/
def scan (source : String) : Except Violation Unit :=
  match violation? source with
  | some v => .error v
  | none => .ok ()

end Stencil.Security
