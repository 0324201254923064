import Stencil.Text.Search
/-!
# Expression blocks

An expression block stands between double braces.  `nextBlock` cuts a text at its first block, and
`nextNestedBlock` does so in the source of an expression, where double braces within quotes open no
block.  The pieces make up the text again (`nextBlock_append`, `nextNestedBlock_append`).
-/
namespace Stencil.Template
open Stencil.Text

/-- The first block of a text. -/
inductive Block where
  /-- There is none. -/
  | none
  /-- Double braces open a block that is not closed: the text before them and the text after. -/
  | unclosed (before body : List Char)
  /-- The text before the block, the text between its braces, and the text behind it. -/
  | found (before inner after : List Char)
  deriving Repr, DecidableEq

/-- The braces that open a block. -/
def opening : List Char := ['\x7b', '\x7b']

/-- The braces that close a block. -/
def closing : List Char := ['\x7d', '\x7d']

/-- Quotation marks. -/
def isQuote (c : Char) : Bool :=
  c == '\'' || c == '"' || c == Char.ofNat 0x60

/-- The text up to the braces that close a block and the text behind them.  `depth` counts the
single braces that are open, `quote` is the quotation mark that is open, and `seen` holds the
characters already passed, last first.  Within quotes a backslash hides the character after it. -/
def close? (seen : List Char) (depth : Nat) (quote : Option Char) :
    List Char → Option (List Char × List Char)
  | [] => Option.none
  | c :: cs =>
    match quote with
    | some q =>
      if c = '\\' then
        match cs with
        | [] => Option.none
        | d :: cs => close? (d :: c :: seen) depth quote cs
      else close? (c :: seen) depth (if c = q then Option.none else quote) cs
    | Option.none =>
      if isQuote c then close? (c :: seen) depth (some c) cs
      else if c = '\x7b' then close? (c :: seen) (depth + 1) quote cs
      else if c = '\x7d' then
        match depth, cs with
        | 0, '\x7d' :: after => some (seen.reverse, after)
        | depth, cs => close? (c :: seen) (depth - 1) quote cs
      else close? (c :: seen) depth quote cs

/-- The block that is opened between two pieces of text. -/
def enclose (before body : List Char) : Block :=
  match close? [] 0 Option.none body with
  | some (inner, after) => .found before inner after
  | Option.none => .unclosed before body

/-- The first block of a text. -/
def nextBlock (cs : List Char) : Block :=
  match breakOn? opening cs with
  | some (before, body) => enclose before body
  | Option.none => .none

/-- The text before the first double braces outside of quotes and the text behind them. -/
def breakUnquoted? (seen : List Char) (quote : Option Char) :
    List Char → Option (List Char × List Char)
  | [] => Option.none
  | c :: cs =>
    match quote with
    | some q =>
      if c = '\\' then
        match cs with
        | [] => Option.none
        | d :: cs => breakUnquoted? (d :: c :: seen) quote cs
      else breakUnquoted? (c :: seen) (if c = q then Option.none else quote) cs
    | Option.none =>
      if isQuote c then breakUnquoted? (c :: seen) (some c) cs
      else
        match c, cs with
        | '\x7b', '\x7b' :: body => some (seen.reverse, body)
        | c, cs => breakUnquoted? (c :: seen) quote cs

/-- The first block of the source of an expression. -/
def nextNestedBlock (cs : List Char) : Block :=
  match breakUnquoted? [] Option.none cs with
  | some (before, body) => enclose before body
  | Option.none => .none

/-! ### The pieces make up the text -/

theorem close?_append {seen cs inner after : List Char} {depth : Nat} {quote : Option Char}
    (h : close? seen depth quote cs = some (inner, after)) :
    seen.reverse ++ cs = inner ++ closing ++ after := by
  fun_induction close? seen depth quote cs <;> simp_all [closing]

theorem breakUnquoted?_append {seen cs before body : List Char} {quote : Option Char}
    (h : breakUnquoted? seen quote cs = some (before, body)) :
    seen.reverse ++ cs = before ++ opening ++ body := by
  fun_induction breakUnquoted? seen quote cs <;> simp_all [opening]

/-- The text that the pieces of a block make up. -/
def Block.text? : Block → Option (List Char)
  | .none => Option.none
  | .unclosed before body => some (before ++ opening ++ body)
  | .found before inner after => some (before ++ opening ++ inner ++ closing ++ after)

theorem text?_enclose (before body : List Char) :
    (enclose before body).text? = some (before ++ opening ++ body) := by
  unfold enclose
  split
  · rename_i inner after h
    have := close?_append h
    simp_all [Block.text?]
  · rfl

/-- The pieces of the first block make up the text. -/
theorem nextBlock_append {cs : List Char} (h : nextBlock cs ≠ .none) :
    (nextBlock cs).text? = some cs := by
  unfold nextBlock at h ⊢
  split
  · rename_i before body hb
    rw [text?_enclose, ← breakOn?_append hb]
  · simp_all

/-- The pieces of the first nested block make up the text. -/
theorem nextNestedBlock_append {cs : List Char} (h : nextNestedBlock cs ≠ .none) :
    (nextNestedBlock cs).text? = some cs := by
  unfold nextNestedBlock at h ⊢
  split
  · rename_i before body hb
    have := breakUnquoted?_append hb
    simp_all [text?_enclose]
  · simp_all

/-- The pieces of a block that are looked into are shorter than the text that holds it. -/
theorem Block.length_lt {b : Block} {cs before inner after : List Char}
    (h : b.text? = some cs) (hb : b = .found before inner after) :
    inner.length < cs.length ∧ after.length < cs.length := by
  subst hb
  simp only [Block.text?, Option.some.injEq] at h
  subst h
  simp [opening, closing]
  omega

/-- Where a block lies, in byte offsets. -/
structure Span where
  /-- Where the opening braces start. -/
  start : Nat
  /-- Where the text between the braces starts. -/
  innerStart : Nat
  /-- Where the text between the braces ends. -/
  innerStop : Nat
  /-- Where the closing braces end. -/
  stop : Nat
  deriving Repr, DecidableEq

/-- Where a block that was found lies, in a text that starts at a byte offset. -/
def Span.ofPieces (base : Nat) (before inner : List Char) : Span :=
  let start := base + byteLength before
  let innerStop := start + byteLength opening + byteLength inner
  ⟨start, start + byteLength opening, innerStop, innerStop + byteLength closing⟩

/-- The first block of a text from a byte offset on, and the offset from which it is looked for.
Within a character there is no such offset. -/
def nextBlockFrom (cs : List Char) (offset : Nat) : Nat × Block :=
  match splitAtByte? cs offset with
  | some (_, rest) => (offset, nextBlock rest)
  | none => (offset, .none)

/-- The first nested block of a text from a byte offset on, and the offset from which it is looked
for: the next character starts there. -/
def nextNestedBlockFrom (cs : List Char) (offset : Nat) : Nat × Block :=
  let rest := dropBytes cs offset
  (byteLength cs - byteLength rest, nextNestedBlock rest)

end Stencil.Template
