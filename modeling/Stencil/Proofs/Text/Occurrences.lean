import Stencil.Text.Search

/-! # Occurrences of a text, and the pieces between them

A text is broken at the **first occurrence** of another one (`breakOn?_eq_some_iff`).  To break what
is left again and again **cuts** it into pieces (`Cut`), with the occurrences between them: put
together with the text that was looked for, they make up the whole text (`Cut.intercalate`).
-/
namespace Stencil.Text
variable {needle cs before after : List Char} {pieces : List (List Char)}

/-- The first occurrence of a text, by what stands in front of it and what comes behind it. -/
structure FirstOccurrence (needle cs before after : List Char) : Prop where
  text : cs = before ++ needle ++ after
  first : ∀ before' after', cs = before' ++ needle ++ after' → before.length ≤ before'.length

theorem FirstOccurrence.unique {before' after' : List Char}
    (h : FirstOccurrence needle cs before after) (h' : FirstOccurrence needle cs before' after') :
    before = before' ∧ after = after' := by
  have hlength : before.length = before'.length :=
    Nat.le_antisymm (h.first _ _ h'.text) (h'.first _ _ h.text)
  have hsame := h.text.symm.trans h'.text
  obtain ⟨hfront, hafter⟩ := List.append_inj hsame (by simp [hlength])
  exact ⟨(List.append_inj hfront hlength).1, hafter⟩

theorem breakOn?_go_eq_some {seen : List Char}
    (h : breakOn?.go needle seen cs = some (before, after)) :
    ∃ u, before = seen.reverse ++ u ∧ FirstOccurrence needle cs u after := by
  induction cs generalizing seen with
  | nil =>
    unfold breakOn?.go at h
    split at h
    · rename_i hempty
      cases h
      rw [List.isEmpty_iff] at hempty
      exact ⟨[], (List.append_nil _).symm, by simp [hempty], fun _ _ _ => Nat.zero_le _⟩
    · cases h
  | cons c cs ih =>
    unfold breakOn?.go at h
    split at h
    · rename_i hhere
      cases h
      obtain ⟨behind, hbehind⟩ := List.isPrefixOf_iff_prefix.mp hhere
      refine ⟨[], (List.append_nil _).symm, ?_, fun _ _ _ => Nat.zero_le _⟩
      rw [← hbehind, List.drop_left, List.nil_append]
    · rename_i hhere
      obtain ⟨u, hbefore, htext, hfirst⟩ := ih h
      refine ⟨c :: u, by simp [hbefore], by simp [htext], fun before' after' hcs => ?_⟩
      cases before' with
      | nil => exact absurd (List.isPrefixOf_iff_prefix.mpr ⟨after', hcs.symm⟩) hhere
      | cons d before' => exact Nat.succ_le_succ (hfirst before' after' (List.cons.inj hcs).2)

theorem breakOn?_go_eq_none {seen : List Char} (h : breakOn?.go needle seen cs = none) :
    ¬ needle <:+: cs := by
  rintro ⟨before, after, hcs⟩
  induction cs generalizing seen before with
  | nil =>
    unfold breakOn?.go at h
    split at h
    · cases h
    · rename_i hempty
      exact hempty (List.isEmpty_iff.mpr (by simp_all))
  | cons c cs ih =>
    unfold breakOn?.go at h
    split at h
    · cases h
    · rename_i hhere
      cases before with
      | nil => exact hhere (List.isPrefixOf_iff_prefix.mpr ⟨after, hcs⟩)
      | cons d before => exact ih h before (List.cons.inj hcs).2

/-- A text is broken at the first occurrence. -/
theorem breakOn?_eq_some_iff :
    breakOn? needle cs = some (before, after) ↔ FirstOccurrence needle cs before after := by
  have hfound : ∀ {before after}, breakOn? needle cs = some (before, after) →
      FirstOccurrence needle cs before after := by
    intro before after h
    obtain ⟨u, rfl, hu⟩ := breakOn?_go_eq_some h
    exact hu
  refine ⟨hfound, fun h => ?_⟩
  cases hbreak : breakOn? needle cs with
  | none => exact (breakOn?_go_eq_none hbreak ⟨before, after, h.text.symm⟩).elim
  | some found =>
    obtain ⟨rfl, rfl⟩ := (hfound hbreak).unique h
    rfl

theorem breakOn?_eq_none_iff : breakOn? needle cs = none ↔ ¬ needle <:+: cs := by
  refine ⟨breakOn?_go_eq_none, fun h => ?_⟩
  cases hbreak : breakOn? needle cs with
  | none => rfl
  | some found => exact (h ⟨found.1, found.2, (breakOn?_append hbreak).symm⟩).elim

/-! ## Pieces -/

/-- The pieces between the occurrences of a separator, found from the front. -/
inductive Cut (separator : List Char) : List Char → List (List Char) → Prop
  | rest {cs : List Char} (h : breakOn? separator cs = none) : Cut separator cs [cs]
  | piece {cs before after : List Char} {pieces : List (List Char)}
    (h : breakOn? separator cs = some (before, after)) (hrest : Cut separator after pieces) :
    Cut separator cs (before :: pieces)

theorem cut_splitOn {separator : List Char} (h : separator ≠ []) (cs : List Char) :
    Cut separator cs (splitOn separator cs) := by
  have hgo : ∀ (fuel : Nat) (found : List (List Char)) (cs : List Char), cs.length ≤ fuel →
      ∃ pieces, splitOn.go separator found cs fuel = found.reverse ++ pieces ∧
        Cut separator cs pieces := by
    intro fuel
    induction fuel with
    | zero =>
      intro found cs hfuel
      obtain rfl := List.eq_nil_of_length_eq_zero (Nat.le_zero.mp hfuel)
      refine ⟨[[]], by simp [splitOn.go], .rest (breakOn?_eq_none_iff.mpr fun hin => ?_)⟩
      exact h (List.infix_nil.mp hin)
    | succ fuel ih =>
      intro found cs hfuel
      unfold splitOn.go
      split
      · rename_i before after hbreak
        have hlength : after.length ≤ fuel := by
          have htext := congrArg List.length (breakOn?_append hbreak)
          have hpos := List.length_pos_iff.mpr h
          simp only [List.length_append] at htext
          omega
        obtain ⟨pieces, hpieces, hcut⟩ := ih (before :: found) after hlength
        exact ⟨before :: pieces, by simp [hpieces], .piece hbreak hcut⟩
      · rename_i hbreak
        exact ⟨[cs], by simp, .rest hbreak⟩
  obtain ⟨pieces, hpieces, hcut⟩ := hgo cs.length [] cs (Nat.le_refl _)
  rw [splitOn, hpieces]
  exact hcut

namespace Cut
variable {separator : List Char}

theorem exists_cons (h : Cut separator cs pieces) : ∃ piece rest, pieces = piece :: rest := by
  cases h <;> exact ⟨_, _, rfl⟩

theorem length_le (h : Cut separator cs pieces) (hseparator : separator ≠ []) :
    pieces.length ≤ cs.length + 1 := by
  induction h with
  | rest => simp
  | piece hbreak _ ih =>
    have htext := congrArg List.length (breakOn?_append hbreak)
    have hpos := List.length_pos_iff.mpr hseparator
    simp only [List.length_append, List.length_cons] at htext ⊢
    omega

theorem intercalate_cons {text piece : List Char} (h : Cut separator cs pieces) :
    text.intercalate (piece :: pieces) = piece ++ text ++ text.intercalate pieces := by
  obtain ⟨next, rest, rfl⟩ := h.exists_cons
  simp [List.intercalate]

/-- The pieces with the separator between them are the text. -/
theorem intercalate (h : Cut separator cs pieces) : separator.intercalate pieces = cs := by
  induction h with
  | rest => simp [List.intercalate]
  | piece hbreak hrest ih => rw [hrest.intercalate_cons, ih, ← breakOn?_append hbreak]

end Cut
end Stencil.Text
