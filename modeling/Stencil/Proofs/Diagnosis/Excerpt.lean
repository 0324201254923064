import Mathlib.Data.List.Forall2
import Stencil.Diagnosis.Excerpt

/-! # Where excerpts point

The **position** of a byte offset is the number of characters that start before it
(`Text.IsPosition`); on a boundary these are the characters in front of it, and within a character
and behind the end of the text there is a position as well.

An excerpt **shows** a position if its column stands for it: the snippet is a piece of the text, with
an ellipsis on each side on which something was cut off, and in the column the character at the
position is seen, which is a blank for a line break or a tab (`Excerpt.Piece`, `Excerpt.Shows`).
Every text that is not empty has an excerpt for every offset, and it shows the position of the offset
(`Excerpt.at?_shows`).
-/
namespace Stencil

namespace Text
variable {cs : List Char} {n : Nat}

/-- The characters before the position are those that start before the byte offset. -/
structure IsPosition (cs : List Char) (offset position : Nat) : Prop where
  le : position ≤ cs.length
  before : ∀ i < position, byteLength (cs.take i) < offset
  behind : ∀ i, position ≤ i → i < cs.length → offset ≤ byteLength (cs.take i)

theorem charsBefore_go (cs : List Char) (n k : Nat) :
    charsBefore.go cs n k = charsBefore.go cs n 0 + k := by
  induction cs generalizing n k with
  | nil => cases n <;> simp [charsBefore.go]
  | cons c cs ih =>
    cases n with
    | zero => simp [charsBefore.go]
    | succ n =>
      rw [charsBefore.go, charsBefore.go, ih _ (k + 1), ih _ (0 + 1)]
      omega

theorem charsBefore_cons (c : Char) (cs : List Char) (h : 0 < n) :
    charsBefore (c :: cs) n = charsBefore cs (n - c.utf8Size) + 1 := by
  obtain ⟨n, rfl⟩ := Nat.exists_eq_add_of_lt h
  rw [Nat.zero_add]
  exact charsBefore_go cs _ _

theorem isPosition_charsBefore (cs : List Char) (offset : Nat) :
    IsPosition cs offset (charsBefore cs offset) := by
  induction cs generalizing offset with
  | nil =>
    have hnone : charsBefore [] offset = 0 := by cases offset <;> rfl
    rw [hnone]
    exact ⟨Nat.le_refl 0, nofun, nofun⟩
  | cons c cs ih =>
    rcases Nat.eq_zero_or_pos offset with rfl | hpos
    · exact ⟨Nat.zero_le _, nofun, fun _ _ _ => Nat.zero_le _⟩
    · obtain ⟨hle, hbefore, hbehind⟩ := ih (offset - c.utf8Size)
      rw [charsBefore_cons c cs hpos]
      refine ⟨Nat.succ_le_succ hle, fun i hi => ?_, fun i hi hlength => ?_⟩
      · cases i with
        | zero => exact hpos
        | succ i =>
          have hstart := hbefore i (Nat.lt_of_succ_lt_succ hi)
          rw [List.take_succ_cons, byteLength_cons]
          omega
      · cases i with
        | zero => exact absurd hi (Nat.not_succ_le_zero _)
        | succ i =>
          have hstart := hbehind i (Nat.le_of_succ_le_succ hi) (Nat.lt_of_succ_lt_succ hlength)
          rw [List.take_succ_cons, byteLength_cons]
          omega

theorem byteLength_take_lt {i j : Nat} (hij : i < j) (hj : j ≤ cs.length) :
    byteLength (cs.take i) < byteLength (cs.take j) := by
  induction cs generalizing i j with
  | nil => exact absurd hij (by simp_all)
  | cons c cs ih =>
    obtain ⟨j, rfl⟩ := Nat.exists_eq_add_of_lt (Nat.zero_lt_of_lt hij)
    rw [Nat.zero_add, List.take_succ_cons, byteLength_cons]
    cases i with
    | zero =>
      have hc := Char.utf8Size_pos c
      rw [List.take_zero, byteLength_nil]
      omega
    | succ i =>
      have hlt := ih (i := i) (j := j) (by omega) (by simp_all)
      rw [List.take_succ_cons, byteLength_cons]
      omega

/-- On a boundary the position is the number of characters in front of it. -/
theorem IsPosition.eq_length {position : Nat} {front back : List Char}
    (h : IsPosition (front ++ back) (byteLength front) position) : position = front.length := by
  have hfront : (front ++ back).take front.length = front := List.take_left
  rcases Nat.lt_trichotomy position front.length with hlt | heq | hlt
  · have hle : front.length ≤ (front ++ back).length := by simp
    have hbytes := byteLength_take_lt hlt hle
    rw [hfront] at hbytes
    have hbehind := h.behind position (Nat.le_refl _) (Nat.lt_of_lt_of_le hlt hle)
    omega
  · exact heq
  · have hbefore := h.before front.length hlt
    rw [hfront] at hbefore
    exact absurd hbefore (Nat.lt_irrefl _)

end Text

namespace Excerpt
open Text

/-- How a character of the text is seen in a snippet: a line break or a tab as a blank, and every
other character as it is. -/
inductive SeenAs : Char → Char → Prop
  | newline : SeenAs '\n' ' '
  | tab : SeenAs '\t' ' '
  | other {c : Char} (hn : c ≠ '\n') (ht : c ≠ '\t') : SeenAs c c

theorem seenAs_flatten (c : Char) : SeenAs c (flatten c) := by
  unfold flatten
  split
  · rename_i h
    rcases h with rfl | rfl
    · exact .newline
    · exact .tab
  · rename_i h
    rw [not_or] at h
    exact .other h.1 h.2

/-- What stands in the place of text that was cut off. -/
def mark : List Char → List Char
  | [] => []
  | _ :: _ => ['…']

/-- The text is cut into what stands in front of the snippet, what is shown in it and what stands
behind it.  Up to 20 characters before the position are shown and up to 20 from it on; fewer are
shown only where the text begins or ends. -/
structure Piece (cs : List Char) (position : Nat) (e : Excerpt) (front shown back : List Char) :
    Prop where
  text : cs = front ++ shown ++ back
  snippet : ∃ seen, List.Forall₂ SeenAs shown seen ∧
    e.snippet.toList = mark front ++ seen ++ mark back
  column : e.column + front.length = (mark front).length + position
  before : front.length ≤ position ∧ position ≤ front.length + 20
  before_full : front ≠ [] → position = front.length + 20
  behind_full : back ≠ [] → front.length + shown.length = position + 20

/-- The excerpt is a piece of the text, and its column is that of the position. -/
structure Shows (cs : List Char) (position : Nat) (e : Excerpt) : Prop where
  length_le : e.snippet.length ≤ 42
  column_le : e.column ≤ e.snippet.length
  /-- In the column the character at the position is seen. -/
  inside : ∀ h : position < cs.length,
    ∃ c, e.snippet.toList[e.column]? = some c ∧ SeenAs cs[position] c
  /-- Behind the end of the text the column is the one behind the snippet. -/
  outside : cs.length ≤ position → e.column = e.snippet.length
  /-- Between the ellipses stands a piece of the text, and an ellipsis only where something is
  missing. -/
  piece : ∃ front shown back, Piece cs position e front shown back

theorem length_mark_le (cut : List Char) : (mark cut).length ≤ 1 := by
  cases cut with
  | nil => exact Nat.zero_le 1
  | cons => exact Nat.le_refl 1

/-- A piece of the text of up to 20 characters before and 20 from a position on shows the position. -/
theorem shows_of_piece {front shown back : List Char} {position : Nat} {e : Excerpt}
    (h : Piece (front ++ shown ++ back) position e front shown back)
    (hshown : front.length + shown.length ≤ position + 20)
    (hend : position < front.length + shown.length ∨
      position = front.length + shown.length ∧ back = []) :
    Shows (front ++ shown ++ back) position e := by
  obtain ⟨seen, hseen, hsnippet⟩ := h.snippet
  have hlength : e.snippet.length = (mark front).length + shown.length + (mark back).length := by
    rw [← String.length_toList, hsnippet, List.length_append, List.length_append, hseen.length_eq]
  have hcolumn := h.column
  have hbefore := h.before
  have hfront := length_mark_le front
  have hback := length_mark_le back
  refine ⟨by omega, by omega, fun hposition => ?_, fun hbehind => ?_, front, shown, back, h⟩
  · have hin : position - front.length < shown.length := by
      refine Or.elim hend (fun hlt => by omega) fun hlast => ?_
      rw [hlast.2, List.append_nil, List.length_append] at hposition
      omega
    have hin' : position - front.length < seen.length := hseen.length_eq ▸ hin
    have hhere : (front ++ shown ++ back)[position] = shown[position - front.length] := by
      rw [List.getElem_append_left (by rw [List.length_append]; omega),
        List.getElem_append_right hbefore.1]
    have hcol : e.column = (mark front).length + (position - front.length) := by omega
    refine ⟨seen[position - front.length], ?_, ?_⟩
    · rw [hsnippet, hcol, List.append_assoc, List.getElem?_append_right (Nat.le_add_right _ _),
        Nat.add_sub_cancel_left, List.getElem?_append_left hin', List.getElem?_eq_getElem hin']
    · rw [hhere]
      exact hseen.get hin hin'
  · have hlast : position = front.length + shown.length ∧ back = [] := by
      refine hend.resolve_left fun hlt => ?_
      simp only [List.length_append] at hbehind
      omega
    rw [hlast.2, mark, List.length_nil] at hlength
    omega

theorem mark_eq (cut : List Char) : mark cut = if 0 < cut.length then [ellipsis] else [] := by
  cases cut <;> rfl

theorem around_shows {cs : List Char} {position : Nat} (h : position ≤ cs.length) :
    Shows cs position (around cs position) := by
  let start := position - radius
  let front := cs.take start
  let shown := (cs.drop start).take (position + radius - start)
  let back := cs.drop (position + radius)
  have hradius : radius = 20 := rfl
  have hcut : cs = front ++ shown ++ back := by
    have hback : back = (cs.drop start).drop (position + radius - start) := by
      rw [List.drop_drop, Nat.add_sub_cancel' (show start ≤ position + radius by omega)]
    rw [List.append_assoc, hback, List.take_append_drop, List.take_append_drop]
  have hfront : front.length = start := by
    rw [List.length_take]
    omega
  have hback : back.length = cs.length - (position + radius) := List.length_drop
  have hshown : shown.length = min (position + radius - start) (cs.length - start) := by
    rw [List.length_take, List.length_drop]
  have hmarks : (if 0 < start then [ellipsis] else []) = mark front ∧
      (if position + radius < cs.length then [ellipsis] else []) = mark back := by
    constructor
    · rw [mark_eq, hfront]
    · rw [mark_eq, hback]
      simp only [Nat.sub_pos_iff_lt]
  have hpiece : Piece (front ++ shown ++ back) position (around cs position) front shown back := by
    refine ⟨rfl, ⟨shown.map flatten, ?_, ?_⟩, ?_, by omega, fun hne => ?_, fun hne => ?_⟩
    · exact List.forall₂_map_right_iff.mpr (List.forall₂_same.mpr fun c _ => seenAs_flatten c)
    · rw [← hmarks.1, ← hmarks.2]
      exact String.toList_ofList
    · have hcolumn : (around cs position).column = position - start + (mark front).length := by
        rw [← hmarks.1]
        rfl
      omega
    · have hpos := List.length_pos_iff.mpr hne
      omega
    · have hpos := List.length_pos_iff.mpr hne
      omega
  have hshows := shows_of_piece hpiece (by omega) (by
    rw [← List.length_eq_zero_iff]
    omega)
  rwa [← hcut] at hshows

/-- **A text that is not empty has an excerpt for every byte offset, which shows the position of the
offset**; offsets on a boundary have the characters in front of them as their position. -/
theorem at?_shows (source : String) (offset : Nat) (h : source ≠ "") :
    ∃ e position, at? source offset = some e ∧ IsPosition source.toList offset position ∧
      (∀ front back, source.toList = front ++ back → offset = byteLength front →
        position = front.length) ∧
      e.Shows source.toList position := by
  have hposition := isPosition_charsBefore source.toList offset
  refine ⟨_, _, if_neg ?_, hposition, ?_, around_shows hposition.le⟩
  · rw [List.isEmpty_iff, String.toList_eq_nil_iff]
    exact h
  · rintro front back hcut rfl
    rw [hcut] at hposition ⊢
    exact hposition.eq_length

/-- A snippet that is cut on both sides, with a line break in its column and a tab behind it; the
position is less than the offset, since a character in front of it takes two bytes. -/
theorem at?_shows_clipped :
    let source := "let café = prices.map(double)\n\t.reduce(add, 0) + shipping"
    source ≠ "" ∧
      at? source 30 = some ⟨"…= prices.map(double)  .reduce(add, 0) + …", 21⟩ ∧
      IsPosition source.toList 30 29 ∧
      ∃ e position, at? source 30 = some e ∧ IsPosition source.toList 30 position ∧
        (∀ front back, source.toList = front ++ back → 30 = byteLength front →
          position = front.length) ∧
        e.Shows source.toList position := by
  intro source
  have hne : source ≠ "" := by decide
  have hposition : charsBefore source.toList 30 = 29 := by decide
  have hbefore : IsPosition source.toList 30 29 := hposition ▸ isPosition_charsBefore _ _
  exact ⟨hne, by decide, hbefore, at?_shows source 30 hne⟩

end Excerpt
end Stencil
