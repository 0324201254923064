import Stencil.Security.Scan

/-! # What the rules find

The first match of a pattern is the leftmost one, so **a pattern that is not found has no match at
any place of the text** (`Pattern.find?_eq_none`).  The places where a match can end are told by one
lemma for each form of pattern: a text, a class of characters that repeats, two patterns one behind
the other.

From the rules for prototypes follows what an accepted source is free of.  The names of the form
`__name__` stand nowhere in it, and the names `constructor` and `prototype` stand nowhere as words
of their own (`Security.not_hasWord`): behind a digit or a letter they are part of a longer word,
and the rules pass over them.  From the rules for hidden names follows that no backslash stands in
front of `x` and two digits in base sixteen, nor in front of `u` and one such digit.
-/
namespace Stencil.Text.Pattern
variable {p : Pattern} {cs pre rest : List Char}

/-! ## Where matches are looked for -/

theorem getLast?_cons_or (c : Char) (pre : List Char) (before : Option Char) :
    (c :: pre).getLast?.or before = pre.getLast?.or (some c) := by
  cases pre with
  | nil => rfl
  | cons d pre =>
    rw [List.getLast?_cons_cons]
    cases h : (d :: pre).getLast? with
    | none => cases List.getLast?_eq_none_iff.mp h
    | some e => rfl

theorem findFrom?_eq_none (p : Pattern) {before : Option Char} {offset : Nat} :
    p.findFrom? before offset cs = none ↔
      ∀ pre rest, cs = pre ++ rest → p.ends ⟨pre.getLast?.or before, rest⟩ = [] := by
  induction cs generalizing before offset with
  | nil =>
    rw [findFrom?, Option.map_eq_none_iff, List.head?_eq_none_iff]
    constructor
    · rintro h pre rest hcs
      obtain ⟨rfl, rfl⟩ := List.append_eq_nil_iff.mp hcs.symm
      exact h
    · exact fun h => h [] [] rfl
  | cons c cs ih =>
    have hrest : (∀ pre rest, c :: cs = pre ++ rest →
        p.ends ⟨pre.getLast?.or before, rest⟩ = []) ↔ p.ends ⟨before, c :: cs⟩ = [] ∧
          ∀ pre rest, cs = pre ++ rest → p.ends ⟨pre.getLast?.or (some c), rest⟩ = [] := by
      constructor
      · intro h
        refine ⟨h [] (c :: cs) rfl, fun pre rest hcs => ?_⟩
        rw [← getLast?_cons_or c pre before]
        exact h (c :: pre) rest (congrArg (c :: ·) hcs)
      · rintro ⟨hhere, hthere⟩ pre rest hcs
        cases pre with
        | nil =>
          obtain rfl : c :: cs = rest := hcs
          exact hhere
        | cons d pre =>
          obtain ⟨rfl, htail⟩ := List.cons.inj hcs
          rw [getLast?_cons_or]
          exact hthere pre rest htail
    rw [hrest, findFrom?]
    split
    · rename_i hends
      rw [hends]
      exact ⟨nofun, fun h => nomatch h.1⟩
    · rename_i hends
      exact ih.trans ⟨fun h => ⟨hends, h⟩, fun h => h.2⟩

/-- **A pattern is not found if and only if no match of it starts anywhere.** -/
theorem find?_eq_none (p : Pattern) :
    p.find? cs = none ↔ ∀ pre rest, cs = pre ++ rest → p.ends ⟨pre.getLast?, rest⟩ = [] := by
  have h : p.findFrom? none 0 cs = none ↔
      ∀ pre rest, cs = pre ++ rest → p.ends ⟨pre.getLast?.or none, rest⟩ = [] :=
    p.findFrom?_eq_none
  simp only [Option.or_none] at h
  exact h

/-- There is no match where a pattern is not found. -/
theorem not_mem_ends {stop : Spot} (h : p.find? (pre ++ rest) = none) :
    stop ∉ p.ends ⟨pre.getLast?, rest⟩ := by
  rw [p.find?_eq_none.mp h pre rest rfl]
  exact List.not_mem_nil

/-! ## Where matches end -/

section Ends
variable {a b : Pattern} {s middle stop : Spot}

theorem mem_ends_seq (ha : middle ∈ a.ends s) (hb : stop ∈ b.ends middle) :
    stop ∈ (seq a b).ends s :=
  List.mem_flatMap.mpr ⟨middle, ha, hb⟩

theorem mem_ends_last (ha : stop ∈ a.ends s) : stop ∈ (sequence [a]).ends s :=
  mem_ends_seq ha List.mem_cons_self

theorem mem_ends_left (ha : stop ∈ a.ends s) : stop ∈ (alt a b).ends s :=
  List.mem_append_left _ ha

theorem mem_ends_right (hb : stop ∈ b.ends s) : stop ∈ (alt a b).ends s :=
  List.mem_append_right _ hb

theorem mem_ends_optional : s ∈ (optional a).ends s :=
  mem_ends_right List.mem_cons_self

theorem mem_ends_boundary (h : s.isBoundary = true) : s ∈ boundary.ends s := by
  rw [ends, if_pos h]
  exact List.mem_cons_self

theorem mem_ends_oneOf {ps : List Pattern} (ha : a ∈ ps) (h : stop ∈ a.ends s) :
    stop ∈ (oneOf ps).ends s := by
  fun_induction oneOf ps with
  | case1 => cases ha
  | case2 p => exact List.mem_singleton.mp ha ▸ h
  | case3 p ps _ ih =>
    rcases List.mem_cons.mp ha with rfl | ha
    · exact mem_ends_left h
    · exact mem_ends_right (ih ha)

theorem mem_ends_sequence_text (u : List Char) (before : Option Char) :
    ⟨u.getLast?.or before, rest⟩ ∈
      (sequence (u.map fun c => .one (· == c))).ends ⟨before, u ++ rest⟩ := by
  induction u generalizing before with
  | nil => exact List.mem_cons_self
  | cons c u ih =>
    rw [getLast?_cons_or]
    have hfirst : ⟨some c, u ++ rest⟩ ∈ (one (· == c)).ends ⟨before, c :: (u ++ rest)⟩ := by
      rw [ends]
      dsimp only
      rw [if_pos (beq_self_eq_true c)]
      exact List.mem_cons_self
    exact mem_ends_seq hfirst (ih (some c))

/-- A text matches in front of itself. -/
theorem mem_ends_text (t : String) (before : Option Char) :
    ⟨t.toList.getLast?.or before, rest⟩ ∈ (text t).ends ⟨before, t.toList ++ rest⟩ :=
  mem_ends_sequence_text t.toList before

theorem mem_ends_texts {ts : List String} {t : String} (ht : t ∈ ts) (before : Option Char) :
    ⟨t.toList.getLast?.or before, rest⟩ ∈ (texts ts).ends ⟨before, t.toList ++ rest⟩ :=
  mem_ends_oneOf (List.mem_map_of_mem ht) (mem_ends_text t before)

theorem mem_greedy_of_mem {test : Char → Bool} {least : Nat} {most : Option Nat}
    {found : List Spot} {before : Option Char} (h : stop ∈ found) :
    stop ∈ greedy test least most found before cs := by
  induction cs generalizing least most found before with
  | nil =>
    unfold greedy
    split
    · exact List.mem_cons_of_mem _ h
    · exact h
  | cons c cs ih =>
    have hfound : stop ∈ (if least = 0 then ⟨before, c :: cs⟩ :: found else found) := by
      split
      · exact List.mem_cons_of_mem _ h
      · exact h
    unfold greedy
    dsimp only
    split
    · exact ih hfound
    · exact hfound

/-- As few characters as are needed are enough. -/
theorem mem_ends_many {test : Char → Bool} {most : Option Nat} (u : List Char)
    (hu : ∀ c ∈ u, test c = true) (hmost : ∀ m ∈ most, u.length ≤ m) (before : Option Char) :
    ⟨u.getLast?.or before, rest⟩ ∈ (many test u.length most).ends ⟨before, u ++ rest⟩ := by
  rw [ends]
  generalize ([] : List Spot) = found
  induction u generalizing most found before with
  | nil =>
    cases rest with
    | nil => exact List.mem_cons_self
    | cons c rest =>
      have hhere : (⟨before, c :: rest⟩ : Spot) ∈ (⟨before, c :: rest⟩ : Spot) :: found :=
        List.mem_cons_self
      change _ ∈ greedy test 0 most found before (c :: rest)
      rw [greedy, if_pos rfl]
      split
      · exact mem_greedy_of_mem hhere
      · exact hhere
  | cons c u ih =>
    obtain ⟨hc, hu⟩ := List.forall_mem_cons.mp hu
    have hgo : (test c && most != some 0) = true := by
      rw [hc, Bool.true_and, bne_iff_ne]
      rintro rfl
      exact absurd (hmost 0 rfl) (Nat.not_succ_le_zero _)
    change _ ∈ greedy test (u.length + 1) most found before (c :: (u ++ rest))
    rw [getLast?_cons_or, greedy, if_neg (Nat.succ_ne_zero _), if_pos hgo]
    refine ih hu (fun m hm => ?_) _ _
    obtain ⟨m, hm', rfl⟩ := Option.map_eq_some_iff.mp hm
    exact Nat.le_sub_of_add_le (hmost m hm')

end Ends

/-! ## Words -/

/-- The text holds the characters as a word of its own, between characters that are of no word. -/
def HasWord (w cs : List Char) : Prop :=
  ∃ pre rest, cs = pre ++ (w ++ rest) ∧ pre.getLast?.any isWordChar = false ∧
    rest.head?.any isWordChar = false

theorem HasWord.isInfix {w : List Char} (h : HasWord w cs) : w <:+: cs := by
  obtain ⟨pre, rest, rfl, -, -⟩ := h
  exact ⟨pre, rest, List.append_assoc pre w rest⟩

theorem not_isInfix_of_find? {t : String} (h : (text t).find? cs = none) : ¬ t.toList <:+: cs := by
  rintro ⟨pre, rest, rfl⟩
  rw [List.append_assoc] at h
  exact not_mem_ends h (mem_ends_text t _)

theorem any_or {test : Char → Bool} {x y : Option Char} (h : x.any test = true) :
    (x.or y).any test = true := by
  cases x with
  | none => cases h
  | some c => exact h

theorem not_hasWord_of_find? {w : String} (h : (word w).find? cs = none)
    (hfirst : w.toList.head?.any isWordChar = true)
    (hlast : w.toList.getLast?.any isWordChar = true) : ¬ HasWord w.toList cs := by
  rintro ⟨pre, rest, rfl, hpre, hrest⟩
  have hopen : Spot.isBoundary ⟨pre.getLast?, w.toList ++ rest⟩ = true := by
    rw [Spot.isBoundary, List.head?_append, any_or hfirst, hpre]
    rfl
  have hclose : Spot.isBoundary ⟨w.toList.getLast?.or pre.getLast?, rest⟩ = true := by
    rw [Spot.isBoundary, any_or hlast, hrest]
    rfl
  have hstop := mem_ends_last (mem_ends_boundary hclose)
  exact not_mem_ends h (mem_ends_seq (mem_ends_boundary hopen)
    (mem_ends_seq (mem_ends_text w _) hstop))

end Stencil.Text.Pattern

namespace Stencil.Security
open Stencil.Text Pattern
variable {source : String}

/-- **A source is accepted if and only if no rule finds anything in it.** -/
theorem scan_eq_ok : scan source = .ok () ↔ ∀ r ∈ rules, r.pattern.find? source.toList = none := by
  have hrules : violation? source = none ↔ ∀ r ∈ rules, r.pattern.find? source.toList = none := by
    unfold violation? Rule.violation?
    simp only [List.findSome?_eq_none_iff, Option.map_eq_none_iff]
  rw [← hrules]
  unfold scan
  split
  · rename_i hsome
    rw [hsome]
    exact ⟨nofun, nofun⟩
  · rename_i hnone
    exact ⟨fun _ => hnone, fun _ => rfl⟩

section Accepted
variable (h : scan source = .ok ())
include h

theorem find?_of_prototypeRules {p : Pattern} (hp : p ∈ prototypeRules) :
    p.find? source.toList = none := by
  refine scan_eq_ok.mp h ⟨.prototypeAccess, p⟩ ?_
  have hrule : (⟨.prototypeAccess, p⟩ : Rule) ∈ prototypeRules.map (⟨.prototypeAccess, ·⟩) :=
    List.mem_map_of_mem hp
  simp only [rules, List.mem_append]
  exact .inl (.inl (.inl (.inr hrule)))

theorem find?_of_hidingRules {p : Pattern} (hp : p ∈ hidingRules) :
    p.find? source.toList = none := by
  refine scan_eq_ok.mp h ⟨.obfuscation, p⟩ ?_
  have hrule : (⟨.obfuscation, p⟩ : Rule) ∈ hidingRules.map (⟨.obfuscation, ·⟩) :=
    List.mem_map_of_mem hp
  simp only [rules, List.mem_append]
  exact .inr hrule

/-- The names of the functions that define and look up accessors stand nowhere. -/
theorem not_isInfix_accessor (verb noun : String) (hverb : verb ∈ ["define", "lookup"])
    (hnoun : noun ∈ ["Getter", "Setter"]) :
    ¬ "__".toList ++ (verb.toList ++ (noun.toList ++ "__".toList)) <:+: source.toList := by
  rintro ⟨pre, rest, hcs⟩
  have hrule := find?_of_prototypeRules h (p := sequence [text "__", texts ["define", "lookup"],
    texts ["Getter", "Setter"], text "__"]) (by simp [prototypeRules])
  rw [← hcs] at hrule
  simp only [List.append_assoc] at hrule
  exact not_mem_ends hrule (mem_ends_seq (mem_ends_text "__" _)
    (mem_ends_seq (mem_ends_texts hverb _) (mem_ends_seq (mem_ends_texts hnoun _)
      (mem_ends_last (mem_ends_text "__" _)))))

/-- Of the denied names, only two can be part of an accepted source. -/
theorem eq_of_isInfix {name : String} (hdenied : isDenied name = true)
    (hpart : name.toList <:+: source.toList) : name = "constructor" ∨ name = "prototype" := by
  have hname : name ∈ deniedNames := List.contains_iff_mem.mp hdenied
  simp only [deniedNames, List.mem_cons, List.not_mem_nil, or_false] at hname
  rcases hname with rfl | rfl | rfl | rfl | rfl | rfl | rfl
  · exact absurd hpart
      (not_isInfix_of_find? (find?_of_prototypeRules h (by simp [prototypeRules])))
  · exact .inl rfl
  · exact .inr rfl
  · exact absurd hpart (not_isInfix_accessor h "define" "Getter" (by simp) (by simp))
  · exact absurd hpart (not_isInfix_accessor h "define" "Setter" (by simp) (by simp))
  · exact absurd hpart (not_isInfix_accessor h "lookup" "Getter" (by simp) (by simp))
  · exact absurd hpart (not_isInfix_accessor h "lookup" "Setter" (by simp) (by simp))

/-- **No denied name stands in an accepted source as a word of its own.** -/
theorem not_hasWord {name : String} (hdenied : isDenied name = true) :
    ¬ HasWord name.toList source.toList := by
  intro hword
  rcases eq_of_isInfix h hdenied hword.isInfix with rfl | rfl
  · exact not_hasWord_of_find? (find?_of_prototypeRules h (by simp [prototypeRules])) rfl rfl hword
  · exact not_hasWord_of_find? (find?_of_prototypeRules h (by simp [prototypeRules])) rfl rfl hword

/-- In an accepted source, no backslash and `x` stand in front of two digits in base sixteen. -/
theorem not_isInfix_byteEscape {a b : Char} (ha : isHexDigit a = true) (hb : isHexDigit b = true) :
    ¬ ['\\', 'x', a, b] <:+: source.toList := by
  rintro ⟨pre, rest, hcs⟩
  have hrule := find?_of_hidingRules h (p := sequence [text "\\x", .many isHexDigit 2 (some 2)])
    (by simp [hidingRules])
  rw [← hcs, List.append_assoc] at hrule
  have hdigits : ∀ c ∈ [a, b], isHexDigit c = true :=
    List.forall_mem_cons.mpr ⟨ha, List.forall_mem_singleton.mpr hb⟩
  have hmost : ∀ m ∈ some 2, [a, b].length ≤ m := fun m hm => Nat.le_of_eq (Option.some.inj hm)
  exact not_mem_ends hrule (mem_ends_seq (mem_ends_text "\\x" _)
    (mem_ends_last (mem_ends_many [a, b] hdigits hmost _)))

/-- In an accepted source, no backslash and `u` stand in front of a digit in base sixteen. -/
theorem not_isInfix_unicodeEscape {a : Char} (ha : isHexDigit a = true) :
    ¬ ['\\', 'u', a] <:+: source.toList := by
  rintro ⟨pre, rest, hcs⟩
  have hrule := find?_of_hidingRules h (p := sequence [text "\\u", optional (text "\x7b"),
    .many isHexDigit 1 (some 6)]) (by simp [hidingRules])
  rw [← hcs, List.append_assoc] at hrule
  have hmost : ∀ m ∈ some 6, [a].length ≤ m := by
    intro m hm
    rw [← Option.some.inj hm]
    exact Nat.le_add_left 1 5
  exact not_mem_ends hrule (mem_ends_seq (mem_ends_text "\\u" _) (mem_ends_seq mem_ends_optional
    (mem_ends_last (mem_ends_many [a] (List.forall_mem_singleton.mpr ha) hmost _))))

end Accepted
end Stencil.Security
