import Stencil.Proofs.Text.Slices
import Stencil.Proofs.Template.Standing

/-! # Looking for blocks byte by byte

The characters that blocks depend on all belong to ASCII, so that bytes can be looked through instead
of characters: **the same pieces are found** (`firstBlock_octets`).  To the bytes of other characters
nothing happens.  This holds even where the search starts within a character, and where a backslash
hides only the first byte of one (`seek?_inside`).
-/
namespace Stencil.Template
open Stencil.Text

theorem isAscii_of_isQuote {c : Char} (h : isQuote c) : IsAscii c := by
  simp only [isQuote, Bool.or_eq_true, beq_iff_eq] at h
  rcases h with (rfl | rfl) | rfl <;> decide

theorem ne_of_isAscii {c m : Char} (hc : ¬ IsAscii c) (hm : IsAscii m) : c ≠ m := by
  rintro rfl
  exact hc hm

namespace Standing

/-- What is quoted stands behind a quotation mark, and what a backslash hides is quoted. -/
inductive Valid : Standing → Prop
  | code (depth : Nat) : Valid ⟨depth, none, false⟩
  | quoted (depth : Nat) {q : Char} (hq : isQuote q) (escaped : Bool) :
      Valid ⟨depth, some q, escaped⟩

variable {s : Standing} {c : Char}

theorem Valid.step (h : s.Valid) (c : Char) : (s.step c).Valid := by
  cases h with
  | code depth =>
    by_cases hquote : isQuote c
    · rw [step_quote hquote]
      exact .quoted depth hquote false
    · obtain ⟨depth', hstep⟩ := step_code hquote
      rw [hstep]
      exact .code depth'
  | quoted depth hq escaped =>
    cases escaped with
    | true => exact .quoted depth hq false
    | false =>
      by_cases hc : c = '\\'
      · rw [hc]
        exact .quoted depth hq true
      · rw [step_quoted hc]
        split
        · exact .code depth
        · exact .quoted depth hq false

/-- To a character outside of ASCII nothing happens but that a backslash may hide it. -/
theorem Valid.step_of_not_isAscii (h : s.Valid) (hc : ¬ IsAscii c) :
    s.step c = { s with escaped := false } := by
  cases h with
  | code depth =>
    exact step_other (fun hquote => hc (isAscii_of_isQuote hquote)) (ne_of_isAscii hc (by decide))
      (ne_of_isAscii hc (by decide))
  | quoted depth hq escaped =>
    cases escaped with
    | true => rfl
    | false =>
      rw [step_quoted (ne_of_isAscii hc (by decide)),
        if_neg (ne_of_isAscii hc (isAscii_of_isQuote hq))]

end Standing

section Seeking
variable {mark cs u : List Char} {admits : Standing → Bool} {s : Standing}

/-- Where nothing of ASCII stands, no mark does. -/
theorem not_starts_mark (hne : mark ≠ []) (hmark : ∀ m ∈ mark, IsAscii m) {c : Char}
    (hc : ¬ IsAscii c) : ¬ mark <+: c :: cs := by
  obtain ⟨m, mark, rfl⟩ := List.exists_cons_of_ne_nil hne
  rw [List.cons_prefix_cons]
  rintro ⟨rfl, -⟩
  exact hc (hmark m List.mem_cons_self)

/-- Bytes that are not of ASCII are passed. -/
theorem seek?_inside (hne : mark ≠ []) (hmark : ∀ m ∈ mark, IsAscii m) (hs : s.Valid)
    (hescaped : s.escaped = false) (hu : ∀ b ∈ u, ¬ IsAscii b) (cs : List Char) :
    seek? mark admits s (u ++ cs) = (seek? mark admits s cs).map (Prod.map (u ++ ·) id) := by
  induction u with
  | nil => exact Option.map_id'.symm
  | cons b u ih =>
    obtain ⟨hb, hu⟩ := List.forall_mem_cons.mp hu
    have hstep : s.step b = s := by
      rw [hs.step_of_not_isAscii hb, ← hescaped]
    rw [List.cons_append, seek?_next fun h => not_starts_mark hne hmark hb h.2, hstep, ih hu,
      Option.map_map]
    rfl

/-- A mark stands in front of a text if it stands in front of its bytes. -/
theorem starts_mark_octets_iff (hmark : ∀ m ∈ mark, IsAscii m) :
    mark <+: octets cs ↔ mark <+: cs := by
  induction mark generalizing cs with
  | nil => exact iff_of_true List.nil_prefix List.nil_prefix
  | cons m mark ih =>
    obtain ⟨hm, hmark⟩ := List.forall_mem_cons.mp hmark
    cases cs with
    | nil => exact Iff.rfl
    | cons c cs =>
      by_cases hc : IsAscii c
      · rw [octets_cons, octetsOf_eq_singleton hc, List.singleton_append, List.cons_prefix_cons,
          List.cons_prefix_cons, ih hmark]
      · have hall := List.forall_mem_cons.mpr ⟨hm, hmark⟩
        obtain ⟨b, u, hu⟩ := exists_octetsOf c
        have hb : ¬ IsAscii b := not_isAscii_of_mem hc (hu ▸ List.mem_cons_self)
        rw [octets_cons, hu]
        exact iff_of_false (not_starts_mark (List.cons_ne_nil _ _) hall hb)
          (not_starts_mark (List.cons_ne_nil _ _) hall hc)

/-- **The first place that admits a mark is found byte by byte.** -/
theorem seek?_octets (hne : mark ≠ []) (hmark : ∀ m ∈ mark, IsAscii m) (hs : s.Valid)
    (cs : List Char) : seek? mark admits s (octets cs) =
      (seek? mark admits s cs).map (Prod.map octets octets) := by
  induction cs generalizing s with
  | nil => rfl
  | cons c cs ih =>
    by_cases hc : IsAscii c
    · have hbytes : octets (c :: cs) = c :: octets cs := by
        rw [octets_cons, octetsOf_eq_singleton hc]
        rfl
      by_cases hhere : admits s ∧ mark <+: c :: cs
      · obtain ⟨hadmits, rest, hrest⟩ := hhere
        rw [← hrest, octets_append, octets_eq_self hmark, seek?_here mark _ hadmits hne,
          seek?_here mark _ hadmits hne]
        rfl
      · have hthere : ¬ (admits s ∧ mark <+: c :: octets cs) := by
          rwa [← hbytes, starts_mark_octets_iff hmark]
        rw [hbytes, seek?_next hthere, seek?_next hhere, ih (hs.step c), Option.map_map,
          Option.map_map]
        refine congrArg (Option.map · _) (funext fun p => ?_)
        exact congrArg (·, octets p.2) (by rw [octets_cons, octetsOf_eq_singleton hc]; rfl)
    · obtain ⟨b, u, hu⟩ := exists_octetsOf c
      have hbytes : ∀ x ∈ b :: u, ¬ IsAscii x := fun x hx => not_isAscii_of_mem hc (hu ▸ hx)
      obtain ⟨hb, hrest⟩ := List.forall_mem_cons.mp hbytes
      have hstep : s.step b = s.step c := by
        rw [hs.step_of_not_isAscii hb, hs.step_of_not_isAscii hc]
      have hescaped : (s.step c).escaped = false := by
        rw [hs.step_of_not_isAscii hc]
      rw [octets_cons, hu, List.cons_append,
        seek?_next fun h => not_starts_mark hne hmark hb h.2, hstep,
        seek?_inside hne hmark (hs.step c) hescaped hrest, ih (hs.step c),
        seek?_next fun h => not_starts_mark hne hmark hc h.2]
      simp only [Option.map_map]
      refine congrArg (Option.map · _) (funext fun p => ?_)
      exact congrArg (·, octets p.2) (by rw [octets_cons, hu]; rfl)

end Seeking

end Stencil.Template
