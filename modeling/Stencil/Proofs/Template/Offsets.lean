import Mathlib.Order.Bounds.Defs
import Stencil.Proofs.Text.Slices
import Stencil.Proofs.Template.ByteScan

/-! # Where blocks lie

Blocks are reported by byte offsets, and who asks for them takes slices of the text at these offsets.
From every character boundary of a text on, **the first block is reported that there is**: its braces
are the first that open one, and it ends at the first braces that close it (`Location.IsFirst`).

Going through the bytes of the text finds the same offsets as going through its characters
(`locateBlock_eq_place`, `locateNestedBlock_eq_place`).

So the offsets are character boundaries, in order and within the text, and to replace placeholders or
to render a text by way of slices, of which none is taken that does not exist, is the same as to do
it piece by piece (`blocks_located`).
-/
namespace Stencil.Template
open Stencil.Text

/-! ## Marks at byte offsets -/

/-- A mark stands at a byte offset, and the text from another offset up to it admits the mark. -/
def MarkedAt (mark : List Char) (admits : Standing → Bool) (cs : List Char) (start i : Nat) : Prop :=
  slice? cs i (i + byteLength mark) = some mark ∧
    ∃ u, slice? cs start i = some u ∧ admits (Standing.after {} u)

/-- Double braces stand at `i`, not before `start`. -/
def OpensAt (cs : List Char) (start i : Nat) : Prop :=
  start ≤ i ∧ slice? cs i (i + 2) = some opening

/-- Double braces stand at `i` that are not quoted in the text from `start` on. -/
def OpensUnquotedAt (cs : List Char) (start i : Nat) : Prop :=
  slice? cs i (i + 2) = some opening ∧
    ∃ u, slice? cs start i = some u ∧ (Standing.after {} u).quote = none

/-- Double braces stand at `i` that are not quoted in the text from `start` on, when every brace that
was opened in it has been closed. -/
def ClosesAt (cs : List Char) (start i : Nat) : Prop :=
  slice? cs i (i + 2) = some closing ∧
    ∃ u, slice? cs start i = some u ∧ (Standing.after {} u).quote = none ∧
      (Standing.after {} u).depth = 0

section Marks
variable {mark front rest before behind : List Char} {admits : Standing → Bool} {i : Nat}

/-- The marks in a text behind a byte offset are those in the part of the text that starts there. -/
theorem markedAt_append : MarkedAt mark admits (front ++ rest) (byteLength front) i ↔
    ∃ before behind, Admitted mark admits {} rest before behind ∧
      i = byteLength front + byteLength before := by
  constructor
  · rintro ⟨hmark, u, hslice, hadmits⟩
    obtain ⟨front', back, hcs, hfront, rfl⟩ := slice?_eq_some.mp hslice
    rw [List.append_assoc] at hcs
    obtain ⟨rfl, rfl⟩ := append_inj_of_byteLength hcs hfront
    obtain ⟨u', behind, hcs', hu, -⟩ := slice?_eq_some.mp hmark
    rw [← byteLength_append] at hu
    rw [← List.append_assoc, List.append_assoc u'] at hcs'
    obtain ⟨rfl, rfl⟩ := append_inj_of_byteLength hcs' hu
    exact ⟨u, behind, ⟨(List.append_assoc ..).symm, hadmits⟩, rfl⟩
  · rintro ⟨before, behind, ⟨rfl, hadmits⟩, rfl⟩
    refine ⟨slice?_eq_some.mpr ⟨front ++ before, behind, by simp, by simp, rfl⟩, before, ?_, hadmits⟩
    exact slice?_eq_some.mpr ⟨front, mark ++ behind, by simp, rfl, rfl⟩

theorem opensAt_iff {cs : List Char} {start : Nat} (hstart : IsBoundary cs start) :
    OpensAt cs start i ↔ MarkedAt opening (fun _ => true) cs start i := by
  obtain ⟨front, rest, rfl, rfl⟩ := isBoundary_iff.mp hstart
  constructor
  · rintro ⟨hle, hmark⟩
    obtain ⟨front', behind, hcs, rfl, -⟩ := slice?_eq_some.mp hmark
    obtain ⟨u, rfl, hrest⟩ := exists_append_of_byteLength_le
      (hcs.trans (List.append_assoc ..)) hle
    exact ⟨hmark, u, slice?_eq_some.mpr ⟨front, opening ++ behind, by rw [hrest]; simp, rfl, by simp⟩,
      rfl⟩
  · rintro ⟨hmark, u, hslice, -⟩
    obtain ⟨-, -, -, -, hlength⟩ := slice?_eq_some.mp hslice
    exact ⟨by omega, hmark⟩

theorem not_markedAt_of_seek? (hne : mark ≠ []) (front : List Char)
    (h : seek? mark admits {} rest = none) (i : Nat) :
    ¬ MarkedAt mark admits (front ++ rest) (byteLength front) i := by
  intro hi
  obtain ⟨before, behind, hthere, -⟩ := markedAt_append.mp hi
  exact (seek?_spec hne admits {} rest).1 h before behind hthere

/-- What is found in the part of a text that starts at a byte offset is marked first. -/
theorem isLeast_of_seek? (hne : mark ≠ []) (front : List Char)
    (h : seek? mark admits {} rest = some (before, behind)) :
    rest = before ++ mark ++ behind ∧
      IsLeast {i | MarkedAt mark admits (front ++ rest) (byteLength front) i}
        (byteLength front + byteLength before) := by
  obtain ⟨hfound, hfirst⟩ := (seek?_spec hne admits {} rest).2 before behind h
  refine ⟨hfound.eq, markedAt_append.mpr ⟨before, behind, hfound, rfl⟩, fun i hi => ?_⟩
  obtain ⟨before', behind', hthere, rfl⟩ := markedAt_append.mp hi
  obtain ⟨u, rfl⟩ := hfirst before' behind' hthere
  rw [byteLength_append]
  omega

theorem opensUnquotedAt_iff {cs : List Char} {start : Nat} :
    OpensUnquotedAt cs start i ↔ MarkedAt opening Standing.isCode cs start i := by
  simp only [OpensUnquotedAt, MarkedAt, Standing.isCode, Option.isNone_iff_eq_none]
  rfl

theorem closesAt_iff {cs : List Char} {start : Nat} :
    ClosesAt cs start i ↔ MarkedAt closing Standing.isOutside cs start i := by
  simp only [ClosesAt, MarkedAt, Standing.isOutside, Bool.and_eq_true, Option.isNone_iff_eq_none,
    beq_iff_eq]
  rfl

end Marks

/-! ## Where the first block lies -/

/-- What is reported of the first block from a byte offset on. -/
inductive Location where
  /-- There is none. -/
  | none
  /-- It is opened at an offset and not closed. -/
  | unclosed (start : Nat)
  /-- It is found. -/
  | found (span : Span)
  deriving Repr, DecidableEq

/-- Where a block lies in a text, if the text is looked through from a byte offset on. -/
def Block.location (base : Nat) : Block → Location
  | .none => .none
  | .unclosed before _ => .unclosed (base + byteLength before)
  | .found before inner _ => .found (Span.ofPieces base before inner)

/-- Where the first block of a text from a byte offset on lies. -/
def locateBlock (cs : List Char) (offset : Nat) : Location :=
  (nextBlockFrom cs offset).2.location (nextBlockFrom cs offset).1

/-- Where the first nested block of a text from a byte offset on lies. -/
def locateNestedBlock (cs : List Char) (offset : Nat) : Location :=
  (nextNestedBlockFrom cs offset).2.location (nextNestedBlockFrom cs offset).1

/-- A block lies at these offsets, and no block is opened before it. -/
structure Span.IsFirst (cs : List Char) (opens : Nat → Prop) (s : Span) : Prop where
  start : IsLeast {i | opens i} s.start
  innerStart : s.innerStart = s.start + 2
  inner : s.innerStart ≤ s.innerStop
  stop : s.stop = s.innerStop + 2
  within : s.stop ≤ byteLength cs
  opened : slice? cs s.start (s.start + 2) = some opening
  closed : slice? cs (s.stop - 2) s.stop = some closing
  boundary : ∀ i ∈ [s.start, s.innerStart, s.innerStop, s.stop], IsBoundary cs i
  close : IsLeast {i | ClosesAt cs s.innerStart i} s.innerStop

/-- The first block is reported among those that are opened somewhere. -/
structure Location.IsFirst (cs : List Char) (opens : Nat → Prop) (l : Location) : Prop where
  none_iff : l = .none ↔ ∀ i, ¬ opens i
  unclosed : ∀ start, l = .unclosed start →
    IsLeast {i | opens i} start ∧ ∀ i, ¬ ClosesAt cs (start + 2) i
  found : ∀ span, l = .found span → span.IsFirst cs opens

/-- The block between two pieces of text, in the text that they make up. -/
theorem isFirst_ofPieces {opens : Nat → Prop} (front before inner after : List Char) {cs : List Char}
    (hcs : cs = front ++ (before ++ opening ++ (inner ++ closing ++ after)))
    (hopens : IsLeast {i | opens i} (byteLength front + byteLength before))
    (hcloses : IsLeast {i | ClosesAt cs (byteLength front + byteLength before + 2) i}
      (byteLength front + byteLength before + 2 + byteLength inner)) :
    (Span.ofPieces (byteLength front) before inner).IsFirst cs opens := by
  have hopening : byteLength opening = 2 := rfl
  have hclosing : byteLength closing = 2 := rfl
  constructor
  · exact hopens
  · rfl
  · exact Nat.le_add_right _ _
  · rfl
  · simp only [Span.ofPieces, hcs, byteLength_append]
    omega
  · exact slice?_eq_some.mpr ⟨front ++ before, inner ++ closing ++ after, by rw [hcs]; simp,
      by rw [byteLength_append]; rfl, rfl⟩
  · exact slice?_eq_some.mpr ⟨front ++ before ++ opening ++ inner, after, by rw [hcs]; simp,
      by simp only [byteLength_append]; rfl, rfl⟩
  · intro i hi
    rw [isBoundary_iff]
    simp only [List.mem_cons, List.not_mem_nil, or_false] at hi
    rcases hi with rfl | rfl | rfl | rfl
    · exact ⟨front ++ before, opening ++ inner ++ closing ++ after, by rw [hcs]; simp,
        by rw [byteLength_append]; rfl⟩
    · exact ⟨front ++ before ++ opening, inner ++ closing ++ after, by rw [hcs]; simp,
        by simp only [byteLength_append]; rfl⟩
    · exact ⟨front ++ before ++ opening ++ inner, closing ++ after, by rw [hcs]; simp,
        by simp only [byteLength_append]; rfl⟩
    · exact ⟨front ++ before ++ opening ++ inner ++ closing, after, by rw [hcs]; simp,
        by simp only [byteLength_append]; rfl⟩
  · exact hcloses

/-- What is reported of the first block behind a part of a text. -/
theorem isFirst_firstBlock (admits : Standing → Bool) (front rest : List Char) :
    ((firstBlock admits rest).location (byteLength front)).IsFirst (front ++ rest)
      (MarkedAt opening admits (front ++ rest) (byteLength front)) := by
  have hopening : opening ≠ [] := by decide
  have hclosing : closing ≠ [] := by decide
  unfold firstBlock
  cases hopen : seek? opening admits {} rest with
  | none =>
    have hnone := not_markedAt_of_seek? hopening front hopen
    exact ⟨iff_of_true rfl hnone, fun _ h => (by cases h), fun _ h => (by cases h)⟩
  | some pieces =>
    obtain ⟨before, body⟩ := pieces
    obtain ⟨rfl, hleast⟩ := isLeast_of_seek? hopening front hopen
    have hsome : ¬ ∀ i, ¬ MarkedAt opening admits (front ++ (before ++ opening ++ body))
        (byteLength front) i := fun h => h _ hleast.1
    -- where it is closed is looked for behind the opening braces
    have hbody : byteLength (front ++ before ++ opening) =
        byteLength front + byteLength before + 2 := by
      rw [byteLength_append, byteLength_append]
      rfl
    have htext : front ++ (before ++ opening ++ body) = front ++ before ++ opening ++ body := by
      simp only [List.append_assoc]
    dsimp only
    rw [enclose_eq]
    cases hclose : seek? closing Standing.isOutside {} body with
    | none =>
      have hnone := not_markedAt_of_seek? hclosing (front ++ before ++ opening) hclose
      rw [hbody, ← htext] at hnone
      refine ⟨iff_of_false (fun h => by cases h) hsome, fun start h => ?_, fun _ h => (by cases h)⟩
      cases h
      exact ⟨hleast, fun i hi => hnone i (closesAt_iff.mp hi)⟩
    | some pieces =>
      obtain ⟨inner, after⟩ := pieces
      obtain ⟨rfl, hcloses⟩ := isLeast_of_seek? hclosing (front ++ before ++ opening) hclose
      rw [hbody, ← htext] at hcloses
      refine ⟨iff_of_false (fun h => by cases h) hsome, fun _ h => (by cases h), fun span h => ?_⟩
      cases h
      simp only [← closesAt_iff] at hcloses
      exact isFirst_ofPieces front before inner after rfl hleast hcloses

theorem locateBlock_append (front rest : List Char) :
    locateBlock (front ++ rest) (byteLength front) =
      (nextBlock rest).location (byteLength front) := by
  unfold locateBlock nextBlockFrom
  rw [splitAtByte?_append]

theorem locateNestedBlock_append (front rest : List Char) :
    locateNestedBlock (front ++ rest) (byteLength front) =
      (nextNestedBlock rest).location (byteLength front) := by
  unfold locateNestedBlock nextNestedBlockFrom
  dsimp only
  rw [dropBytes_append, byteLength_append, Nat.add_sub_cancel]

/-! ## Byte by byte -/

/-- Where a block lies whose pieces are made of bytes, if the bytes are looked through from an offset
on. -/
def Block.place (offset : Nat) : Block → Location
  | .none => .none
  | .unclosed before _ => .unclosed (offset + before.length)
  | .found before inner _ =>
    let start := offset + before.length
    .found ⟨start, start + 2, start + 2 + inner.length, start + 2 + inner.length + 2⟩

theorem isAscii_opening : ∀ m ∈ opening, IsAscii m := by
  simp only [opening, List.forall_mem_cons]
  exact ⟨by decide, by decide, List.forall_mem_nil _⟩

theorem isAscii_closing : ∀ m ∈ closing, IsAscii m := by
  simp only [closing, List.forall_mem_cons]
  exact ⟨by decide, by decide, List.forall_mem_nil _⟩

/-- The first block is found byte by byte, also from within a character on. -/
theorem place_firstBlock (admits : Standing → Bool) {u : List Char} (hu : ∀ b ∈ u, ¬ IsAscii b)
    (rest : List Char) (offset : Nat) : (firstBlock admits (u ++ octets rest)).place offset =
      (firstBlock admits rest).location (offset + u.length) := by
  have hopening : opening ≠ [] := by decide
  have hclosing : closing ≠ [] := by decide
  unfold firstBlock
  rw [seek?_inside hopening isAscii_opening (.code 0) rfl hu,
    seek?_octets hopening isAscii_opening (.code 0)]
  cases seek? opening admits {} rest with
  | none => rfl
  | some pieces =>
    obtain ⟨before, body⟩ := pieces
    have hlength : (u ++ octets before).length = u.length + byteLength before := by
      rw [List.length_append, length_octets]
    simp only [Option.map_some, Prod.map_apply, id_eq]
    rw [enclose_eq, enclose_eq, seek?_octets hclosing isAscii_closing (.code 0)]
    cases seek? closing Standing.isOutside {} body with
    | none =>
      simp only [Option.map_none, Block.place, Block.location, hlength, Nat.add_assoc]
    | some pieces =>
      obtain ⟨inner, after⟩ := pieces
      simp only [Option.map_some, Prod.map_apply, Block.place, Block.location, hlength,
        length_octets, Nat.add_assoc, Span.ofPieces]
      rfl

theorem locateBlock_eq_place {cs : List Char} {offset : Nat} (h : IsBoundary cs offset) :
    locateBlock cs offset = (nextBlock ((octets cs).drop offset)).place offset := by
  obtain ⟨front, rest, rfl, rfl⟩ := isBoundary_iff.mp h
  have hdrop : (octets (front ++ rest)).drop (byteLength front) = [] ++ octets rest := by
    rw [octets_append, ← length_octets]
    exact List.drop_left
  rw [hdrop, nextBlock_eq_firstBlock, place_firstBlock _ (List.forall_mem_nil _),
    ← nextBlock_eq_firstBlock, locateBlock_append]
  rfl

theorem locateNestedBlock_eq_place (cs : List Char) (offset : Nat) :
    locateNestedBlock cs offset = (nextNestedBlock ((octets cs).drop offset)).place offset := by
  obtain ⟨u, hdrop, hu, hlength⟩ := drop_octets cs offset
  rw [hdrop, nextNestedBlock_eq_firstBlock, place_firstBlock _ hu, ← nextNestedBlock_eq_firstBlock]
  unfold locateNestedBlock nextNestedBlockFrom
  dsimp only
  by_cases hend : dropBytes cs offset = []
  · rw [hend]
    rfl
  · rw [← hlength hend, Nat.add_sub_cancel]

/-! ## Slices at these offsets -/

/-- Where the first block of a text lies that stands `depth` blocks deep. -/
def locateAt (depth : Nat) (cs : List Char) (offset : Nat) : Location :=
  if depth = 0 then locateBlock cs offset else locateNestedBlock cs offset

theorem locateAt_append (depth : Nat) (front rest : List Char) :
    locateAt depth (front ++ rest) (byteLength front) =
      (blockAt depth rest).location (byteLength front) := by
  unfold locateAt blockAt
  rw [locateBlock_append, locateNestedBlock_append]
  split <;> rfl

/-- Replaces the placeholders of a text from a byte offset on, by way of slices of the text; `none`
if a slice is taken that does not exist.  `fuel` exceeds the number of blocks to come. -/
def substituteSlices? (vars : List (String × Json)) (debug : Bool) (cs : List Char) :
    Nat → String → Nat → Option String
  | 0, _, _ => none
  | fuel + 1, out, offset =>
    match locateBlock cs offset with
    | .none => do
      let literal ← slice? cs offset (byteLength cs)
      let rest ← slice? cs (byteLength cs) (byteLength cs)
      return substituteLiteral vars debug out 0 false literal ++ String.ofList rest
    | .unclosed start => do
      let literal ← slice? cs offset start
      let rest ← slice? cs start (byteLength cs)
      return substituteLiteral vars debug out 0 false literal ++ String.ofList rest
    | .found span => do
      let literal ← slice? cs offset span.start
      let block ← slice? cs span.start span.stop
      substituteSlices? vars debug cs fuel
        (substituteLiteral vars debug out 0 false literal ++ String.ofList block) span.stop

/-- Renders a text from a byte offset on, by way of slices of the text and of the sources in it;
`none` if a slice is taken that does not exist.  `fuel` exceeds the number of characters to come. -/
def Renderer.renderSlices? {σ : Type} (r : Renderer σ) :
    Nat → Nat → List Char → Nat → String → Nat → σ → Option (Rendering σ)
  | 0, _, _, _, _, _, _ => none
  | fuel + 1, depth, cs, offset, out, turns, state =>
    let turns := turns + 1
    if r.maxIterations < turns then some ⟨out, turns, state, some (.tooMany r.maxIterations)⟩
    else
      match locateAt depth cs offset with
      | .none => do
        let rest ← slice? cs offset (byteLength cs)
        return { out := out ++ String.ofList rest, turns, state }
      | .unclosed start => do
        let before ← slice? cs offset start
        return { out := out ++ String.ofList before ++ unclosedMarker r.debug cs start, turns, state }
      | .found span => do
        let before ← slice? cs offset span.start
        let raw ← slice? cs span.innerStart span.innerStop
        let rendered : Option (Rendering σ) :=
          if locateNestedBlock raw 0 ≠ .none then
            if r.maxDepth < depth + 1 then some ⟨"", turns, state, some (.tooDeep r.maxDepth)⟩
            else r.renderSlices? fuel (depth + 1) raw 0 "" turns state
          else some { out := String.ofList raw, turns, state }
        let source ← rendered
        let out := out ++ String.ofList before
        if source.halt.isSome then return { source with out }
        else
          let done := r.evaluateSource source.out source.state
          r.renderSlices? fuel depth cs span.stop (out ++ done.1) source.turns done.2

section Slices
variable {before inner after : List Char}

/-- The slices that are taken at the offsets of a block. -/
theorem slices_of_found (front before inner after : List Char) :
    let cs := front ++ (before ++ opening ++ inner ++ closing ++ after)
    let span := Span.ofPieces (byteLength front) before inner
    slice? cs (byteLength front) span.start = some before ∧
      slice? cs span.start span.stop = some (opening ++ inner ++ closing) ∧
      slice? cs span.innerStart span.innerStop = some inner ∧
      span.stop = byteLength (front ++ (before ++ opening ++ inner ++ closing)) := by
  refine ⟨?_, ?_, ?_, ?_⟩
  · exact slice?_eq_some.mpr ⟨front, opening ++ inner ++ closing ++ after, by simp, rfl, rfl⟩
  · exact slice?_eq_some.mpr ⟨front ++ before, after, by simp, by rw [byteLength_append]; rfl,
      by simp only [byteLength_append, Span.ofPieces]; omega⟩
  · exact slice?_eq_some.mpr ⟨front ++ before ++ opening, closing ++ after, by simp,
      by simp only [byteLength_append, Span.ofPieces], rfl⟩
  · simp only [byteLength_append, Span.ofPieces]
    omega

/-- The slices that are taken at the offset of a block without an end. -/
theorem slices_of_unclosed (front before body : List Char) :
    let cs := front ++ (before ++ opening ++ body)
    let start := byteLength front + byteLength before
    slice? cs (byteLength front) start = some before ∧
      slice? cs start (byteLength cs) = some (opening ++ body) := by
  refine ⟨?_, ?_⟩
  · exact slice?_eq_some.mpr ⟨front, opening ++ body, by simp, rfl, rfl⟩
  · exact slice?_eq_some.mpr ⟨front ++ before, [], by simp, by rw [byteLength_append],
      by simp only [byteLength_append]; omega⟩

/-- **Placeholders are replaced by way of slices.** -/
theorem substituteSlices?_eq (vars : List (String × Json)) (debug : Bool) {fuel : Nat}
    (front rest : List Char) (out : String) (hfuel : rest.length < fuel) :
    substituteSlices? vars debug (front ++ rest) fuel out (byteLength front) =
      some (substituteFrom vars debug out rest) := by
  induction fuel generalizing front rest out with
  | zero => exact absurd hfuel (Nat.not_lt_zero _)
  | succ fuel ih =>
    rw [substituteSlices?, locateBlock_append]
    cases hb : nextBlock rest with
    | none =>
      have hend := slice?_end (front ++ rest) []
      rw [List.append_nil] at hend
      simp only [Block.location, slice?_end, hend, substituteFrom_none hb]
      exact congrArg some (String.append_empty ..)
    | unclosed before body =>
      have happend := nextBlock_append (show nextBlock rest ≠ .none by simp [hb])
      rw [substituteFrom_unclosed hb]
      obtain rfl : before ++ opening ++ body = rest := by simpa [hb, Block.text?] using happend
      obtain ⟨hliteral, hrest⟩ := slices_of_unclosed front before body
      simp only [Block.location, hliteral, hrest]
      rfl
    | found before inner after =>
      have hlength := (Block.length_lt (nextBlock_append (by simp [hb])) hb).2
      rw [substituteFrom_found hb]
      have hb' : blockAt 0 rest = .found before inner after := hb
      obtain rfl := append_of_found hb'
      obtain ⟨hliteral, hblock, -, hstop⟩ := slices_of_found front before inner after
      have hcs : front ++ (before ++ opening ++ inner ++ closing ++ after) =
          front ++ (before ++ opening ++ inner ++ closing) ++ after := by simp
      simp only [Block.location, hliteral, hblock]
      refine Eq.trans ?_ (ih (front ++ (before ++ opening ++ inner ++ closing)) after _ (by omega))
      rw [← hcs, ← hstop]
      rfl

theorem locateNestedBlock_ne_none_iff (inner : List Char) :
    locateNestedBlock inner 0 ≠ .none ↔ hasNested inner := by
  have hlocate : locateNestedBlock inner 0 = (nextNestedBlock inner).location 0 :=
    locateNestedBlock_append [] inner
  rw [hlocate, hasNested, bne_iff_ne]
  cases nextNestedBlock inner <;> simp [Block.location]

variable {σ : Type} (r : Renderer σ)

/-- The source of an expression is rendered by way of slices. -/
theorem sourceSlices?_eq {fuel depth turns : Nat} {state : σ}
    (ih : r.renderSlices? fuel (depth + 1) inner 0 "" turns state =
      some (r.renderFrom (depth + 1) inner 0 "" turns state inner)) :
    (if locateNestedBlock inner 0 ≠ .none then
        if r.maxDepth < depth + 1 then some ⟨"", turns, state, some (.tooDeep r.maxDepth)⟩
        else r.renderSlices? fuel (depth + 1) inner 0 "" turns state
      else some { out := String.ofList inner, turns, state }) =
      some (r.renderSource depth turns state inner) := by
  unfold Renderer.renderSource
  simp only [locateNestedBlock_ne_none_iff, ih]
  split
  · split <;> rfl
  · rfl

/-- **Texts are rendered by way of slices.** -/
theorem renderSlices?_eq {fuel : Nat} (front rest : List Char) (depth : Nat) (out : String)
    (turns : Nat) (state : σ) (hfuel : rest.length < fuel) :
    r.renderSlices? fuel depth (front ++ rest) (byteLength front) out turns state =
      some (r.renderFrom depth (front ++ rest) (byteLength front) out turns state rest) := by
  induction fuel generalizing front rest depth out turns state with
  | zero => exact absurd hfuel (Nat.not_lt_zero _)
  | succ fuel ih =>
    rw [Renderer.renderSlices?, locateAt_append]
    by_cases hturns : r.maxIterations < turns + 1
    · rw [Renderer.renderFrom_halts r hturns]
      exact if_pos hturns
    · have hroom := Nat.not_lt.mp hturns
      refine (if_neg hturns).trans ?_
      cases hb : blockAt depth rest with
      | none =>
        rw [Renderer.renderFrom_none r hroom hb]
        simp only [Block.location, slice?_end]
        rfl
      | unclosed before body =>
        have happend := blockAt_append (show blockAt depth rest ≠ .none by simp [hb])
        rw [Renderer.renderFrom_unclosed r hroom hb]
        obtain rfl : before ++ opening ++ body = rest := by simpa [hb, Block.text?] using happend
        simp only [Block.location, (slices_of_unclosed front before body).1]
        rfl
      | found before inner after =>
        obtain ⟨hinner, hafter⟩ := Block.length_lt (blockAt_append (by simp [hb])) hb
        have hinside : r.renderSlices? fuel (depth + 1) inner 0 "" (turns + 1) state =
            some (r.renderFrom (depth + 1) inner 0 "" (turns + 1) state inner) :=
          ih [] inner (depth + 1) "" (turns + 1) state (by omega)
        rw [Renderer.renderFrom_found hroom hb]
        obtain rfl := append_of_found hb
        obtain ⟨hbefore, -, hraw, hstop⟩ := slices_of_found front before inner after
        have hcs : front ++ (before ++ opening ++ inner ++ closing ++ after) =
            front ++ (before ++ opening ++ inner ++ closing) ++ after := by simp
        have hbehind : byteLength front + (Span.ofPieces 0 before inner).stop =
            (Span.ofPieces (byteLength front) before inner).stop := by
          simp only [Span.ofPieces]
          omega
        simp only [Block.location, hbefore, hraw, Option.bind_some, bind]
        rw [sourceSlices?_eq r hinside, Option.bind_some, hbehind]
        split
        · rfl
        · rw [hcs, hstop]
          exact ih (front ++ (before ++ opening ++ inner ++ closing)) after _ _ _ _ (by omega)

end Slices

/-- **What is reported of blocks, and what it is good for.**  From every character boundary of a text
on, the first block is reported that is opened, and in the source of an expression the first that
is opened outside of quotes.  They are reported where going through the bytes from there on finds
them.  No slice is taken at the offsets reported that does not exist, neither to replace placeholders
nor to render. -/
theorem blocks_located {cs : List Char} {offset : Nat} (h : IsBoundary cs offset) :
    (locateBlock cs offset).IsFirst cs (OpensAt cs offset) ∧
      (locateNestedBlock cs offset).IsFirst cs (OpensUnquotedAt cs offset) ∧
      locateBlock cs offset = (nextBlock ((octets cs).drop offset)).place offset ∧
      locateNestedBlock cs offset = (nextNestedBlock ((octets cs).drop offset)).place offset ∧
      (∀ vars debug, substituteSlices? vars debug cs (cs.length + 1) "" 0 =
        some (substitute vars debug (String.ofList cs))) ∧
      ∀ {σ : Type} (r : Renderer σ) depth state,
        r.renderSlices? (cs.length + 1) depth cs 0 "" 0 state =
          some (r.renderFrom depth cs 0 "" 0 state cs) := by
  refine ⟨?_, ?_, locateBlock_eq_place h, locateNestedBlock_eq_place cs offset,
    fun vars debug => ?_, fun r depth state => ?_⟩
  · rw [show OpensAt cs offset = MarkedAt opening (fun _ => true) cs offset from
      funext fun i => propext (opensAt_iff h)]
    obtain ⟨front, rest, rfl, rfl⟩ := isBoundary_iff.mp h
    rw [locateBlock_append, nextBlock_eq_firstBlock]
    exact isFirst_firstBlock _ front rest
  · rw [show OpensUnquotedAt cs offset = MarkedAt opening Standing.isCode cs offset from
      funext fun i => propext opensUnquotedAt_iff]
    obtain ⟨front, rest, rfl, rfl⟩ := isBoundary_iff.mp h
    rw [locateNestedBlock_append, nextNestedBlock_eq_firstBlock]
    exact isFirst_firstBlock _ front rest
  · rw [substitute, String.toList_ofList]
    exact substituteSlices?_eq vars debug [] cs "" (Nat.lt_succ_self _)
  · exact renderSlices?_eq r [] cs depth "" 0 state (Nat.lt_succ_self _)

/-- A block behind a character of two bytes, whose source is a quoted pair of braces. -/
theorem blocks_located_quoted :
    let cs := ['\u00e9', '\x7b', '\x7b', '\'', '\x7d', '\x7d', '\'', '\x7d', '\x7d']
    IsBoundary cs 2 ∧ ¬ IsBoundary cs 1 ∧ locateBlock cs 2 = .found ⟨2, 4, 8, 10⟩ ∧
      (locateBlock cs 2).IsFirst cs (OpensAt cs 2) ∧
      (locateNestedBlock cs 2).IsFirst cs (OpensUnquotedAt cs 2) := by
  intro cs
  have h : IsBoundary cs 2 := by decide
  exact ⟨h, by decide, by decide, (blocks_located h).1, (blocks_located h).2.1⟩

end Stencil.Template
