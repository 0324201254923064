import Stencil.Script.Value.Json

/-! # The text of a value, and where it is cut off

The **full text** of a value has no limits: the texts of the items of an array stand with commas
between them, and an item that is `undefined` or `null` leaves nothing (`Value.fullText`).  The
conversion to a string does not always get that far.  It stops once the output is **overlong**, and
it leaves out arrays that stand in too many others.

The limit on nesting never matters to a value whose arrays are not nested that deep
(`textOnto_eq_writtenOnto`).  What the other limit leaves is described by how the output grows
(`Written`): either everything has been appended, or the output is overlong and a part of what it
should have been.  Nothing is appended to an output that is overlong, so it has passed the limit with
its last piece, which is a comma or the text of one leaf.  A short text is therefore never a text
that was cut (`text_full_or_overlong`), which is what the output of a template relies on.
-/
namespace Stencil.Script.Value

/-! ## Texts without limits -/

/-- The text of a value that is no array; an array has no text of its own. -/
def leafText : Value → String
  | .undefined => "undefined"
  | .null => "null"
  | .bool b => if b then "true" else "false"
  | .number x => Number.text x
  | .string s => s
  | .array .. => ""
  | .object .. => "[object Object]"
  | .date i => i.isoText
  | .closure _ definition _ _ => functionText (closureName definition)
  | .native f => functionText f.name

mutual

/-- The whole text of a value, however long it is and however deep its arrays are nested. -/
def fullText : Value → String
  | .array _ ⟨items⟩ => ",".intercalate (itemTexts items)
  | v => v.leafText

/-- The texts of items; `undefined` and `null` leave none. -/
def itemTexts : List Value → List String
  | [] => []
  | v :: rest => (if v.isNullish then "" else v.fullText) :: itemTexts rest

end

mutual

/-- How many arrays are nested in one another. -/
def arrayLevels : Value → Nat
  | .array _ ⟨items⟩ => itemsArrayLevels items + 1
  | _ => 0

/-- How many arrays are nested in one another among items. -/
def itemsArrayLevels : List Value → Nat
  | [] => 0
  | v :: rest => max v.arrayLevels (itemsArrayLevels rest)

end

/-- A value that is no array and stands in the given one with nothing but arrays around it, or is
the given one. -/
inductive IsLeafOf (leaf : Value) : Value → Prop where
  | self (h : leaf.isArray = false) : IsLeafOf leaf leaf
  | item {id items v} : v ∈ items → v.isNullish = false → IsLeafOf leaf v →
      IsLeafOf leaf (.array id items)

mutual

/-- Appends the text of a value as `textOnto` does, however deep arrays are nested: only the length
of the output limits it. -/
def writtenOnto (out : String) : Value → String
  | .array _ ⟨items⟩ => writtenItems out true items
  | v => if isOverlong out then out else out ++ v.leafText

/-- Appends the items of an array as `itemsOnto` does. -/
def writtenItems (out : String) (first : Bool) : List Value → String
  | [] => out
  | v :: rest =>
    if isOverlong out then out
    else
      let out := if first then out else out ++ ","
      writtenItems (if v.isNullish then out else writtenOnto out v) false rest

end

variable {v : Value} {out out' t : String}

theorem fullText_leaf (h : v.isArray = false) : v.fullText = v.leafText := by
  cases v <;> first | rfl | cases h

theorem writtenOnto_leaf (h : v.isArray = false) (out : String) :
    writtenOnto out v = if isOverlong out then out else out ++ v.leafText := by
  cases v <;> first | rfl | cases h

/-! ## The limit on nesting -/

mutual

/-- Arrays that are not nested too deep are all written. -/
theorem textOnto_eq_writtenOnto (depth : Nat) (out : String) :
    ∀ v : Value, depth + v.arrayLevels ≤ maxNesting → textOnto depth out v = writtenOnto out v
  | .array _ ⟨items⟩, h => by
    rw [arrayLevels] at h
    rw [textOnto, writtenOnto, if_neg (by omega)]
    exact itemsOnto_eq_writtenItems depth out true items (by omega)
  | .undefined, _ | .null, _ | .bool _, _ | .number _, _ | .string _, _ | .object .., _
  | .date _, _ | .closure .., _ | .native _, _ => rfl

theorem itemsOnto_eq_writtenItems (depth : Nat) (out : String) (first : Bool) :
    ∀ items : List Value, depth + 1 + itemsArrayLevels items ≤ maxNesting →
      itemsOnto depth out first items = writtenItems out first items
  | [], _ => rfl
  | v :: rest, h => by
    rw [itemsArrayLevels] at h
    have hv (out : String) := textOnto_eq_writtenOnto (depth + 1) out v (by omega)
    have hrest (out : String) := itemsOnto_eq_writtenItems depth out false rest (by omega)
    simp only [itemsOnto, writtenItems, hv, hrest]

end

/-! ## The limit on length -/

/-- What has been appended to an output: all of the text, unless the output became overlong.  The
last piece that was appended is a comma or the text of one of the leaves. -/
structure Written (leaf : Value → Prop) (out t out' : String) : Prop where
  full_or_overlong : out' = out ++ t ∨ isOverlong out' ∧ ∃ rest, out ++ t = out' ++ rest
  stays : isOverlong out → out' = out
  excess : isOverlong out = false → isOverlong out' →
    out'.utf8ByteSize ≤ maxTextBytes + 1 ∨
      ∃ v, leaf v ∧ out'.utf8ByteSize ≤ maxTextBytes + v.leafText.utf8ByteSize

theorem size_le_of_isOverlong (h : isOverlong out = false) : out.utf8ByteSize ≤ maxTextBytes :=
  Nat.le_of_not_lt (of_decide_eq_false h)

namespace Written
variable {leaf leaf' : Value → Prop}

theorem mono (h : Written leaf out t out') (hleaf : ∀ v, leaf v → leaf' v) :
    Written leaf' out t out' :=
  ⟨h.full_or_overlong, h.stays, fun hout hout' =>
    (h.excess hout hout').imp_right fun ⟨v, hv, hsize⟩ => ⟨v, hleaf v hv, hsize⟩⟩

theorem of_overlong (hout : isOverlong out = true) (t : String) : Written leaf out t out :=
  ⟨.inr ⟨hout, t, rfl⟩, fun _ => rfl, fun h => absurd (h.symm.trans hout) Bool.false_ne_true⟩

/-- One piece that is appended to an output that is not overlong. -/
theorem piece (hout : isOverlong out = false)
    (hsize : t.utf8ByteSize ≤ 1 ∨ ∃ v, leaf v ∧ t = v.leafText) : Written leaf out t (out ++ t) := by
  refine ⟨.inl rfl, fun h => absurd (hout.symm.trans h) Bool.false_ne_true, fun _ _ => ?_⟩
  have hle := size_le_of_isOverlong hout
  rw [String.utf8ByteSize_append]
  refine hsize.imp (fun h => by omega) fun ⟨v, hv, ht⟩ => ⟨v, hv, ?_⟩
  rw [ht]
  omega

theorem nothing (leaf : Value → Prop) (out : String) : Written leaf out "" out := by
  refine ⟨.inl String.append_empty.symm, fun _ => rfl, fun hout hout' => ?_⟩
  exact absurd (hout.symm.trans hout') Bool.false_ne_true

/-- One text behind another: where the first is cut, nothing of the second follows. -/
theorem trans {t' out'' : String} (h : Written leaf out t out') (h' : Written leaf out' t' out'') :
    Written leaf out (t ++ t') out'' := by
  cases hout' : isOverlong out' with
  | true =>
    rw [h'.stays hout']
    refine ⟨.inr ⟨hout', ?_⟩, h.stays, h.excess⟩
    rcases h.full_or_overlong with hfull | ⟨-, rest, hrest⟩
    · exact ⟨t', by rw [← String.append_assoc, hfull]⟩
    · exact ⟨rest ++ t', by rw [← String.append_assoc, hrest, String.append_assoc]⟩
  | false =>
    have hfull : out' = out ++ t := h.full_or_overlong.resolve_right fun ⟨hover, _⟩ => by
      rw [hout'] at hover
      cases hover
    refine ⟨?_, fun hout => ?_, fun _ => h'.excess hout'⟩
    · rw [← String.append_assoc, ← hfull]
      exact h'.full_or_overlong
    · rw [h.stays hout, hout] at hout'
      cases hout'

end Written

theorem Written.leaf (h : v.isArray = false) (out : String) :
    Written (·.IsLeafOf v) out v.fullText (writtenOnto out v) := by
  rw [fullText_leaf h, writtenOnto_leaf h]
  cases hout : isOverlong out with
  | true => exact .of_overlong hout _
  | false => exact .piece hout (.inr ⟨v, .self h, rfl⟩)

/-- The texts of items, with a comma in front of each but the first one of the array. -/
def commaTexts (first : Bool) : List String → String
  | [] => ""
  | t :: rest => (if first then "" else ",") ++ t ++ commaTexts false rest

theorem commaTexts_false (ts : List String) :
    (commaTexts false ts).toList = ts.flatMap fun t => ',' :: t.toList := by
  induction ts with
  | nil => rfl
  | cons t ts ih => simp [commaTexts, ih]

theorem commaTexts_true (ts : List String) : commaTexts true ts = ",".intercalate ts := by
  refine String.toList_injective ?_
  rw [String.toList_intercalate]
  cases ts with
  | nil => rfl
  | cons t ts =>
    rw [commaTexts, if_pos rfl, String.empty_append, String.toList_append, commaTexts_false]
    induction ts generalizing t with
    | nil => simp
    | cons u ts ih => simpa [List.intercalate_cons_cons] using ih u

mutual

theorem written_writtenOnto (out : String) :
    ∀ v : Value, Written (·.IsLeafOf v) out v.fullText (writtenOnto out v)
  | .array id ⟨items⟩ => by
    have h := written_writtenItems out true items
    rw [commaTexts_true] at h
    rw [fullText, writtenOnto]
    exact h.mono fun leaf ⟨v, hv, hnullish, hleaf⟩ => .item (Array.mem_def.mpr hv) hnullish hleaf
  | .undefined | .null | .bool _ | .number _ | .string _ | .object .. | .date _ | .closure ..
  | .native _ => .leaf rfl out

theorem written_writtenItems (out : String) (first : Bool) : ∀ items : List Value,
    Written (fun leaf => ∃ v ∈ items, v.isNullish = false ∧ leaf.IsLeafOf v) out
      (commaTexts first (itemTexts items)) (writtenItems out first items)
  | [] => .nothing _ out
  | v :: rest => by
    rw [itemTexts, commaTexts, writtenItems]
    cases hout : isOverlong out with
    | true => exact .of_overlong hout _
    | false =>
      rw [if_neg Bool.false_ne_true]
      have hcomma : Written (fun leaf => ∃ u ∈ v :: rest, u.isNullish = false ∧ leaf.IsLeafOf u) out
          (if first then "" else ",") (if first then out else out ++ ",") := by
        cases first with
        | true => exact .nothing _ out
        | false => exact .piece hout (.inl (by decide))
      have hitem (out : String) :
          Written (fun leaf => ∃ u ∈ v :: rest, u.isNullish = false ∧ leaf.IsLeafOf u) out
            (if v.isNullish then "" else v.fullText)
            (if v.isNullish then out else writtenOnto out v) := by
        cases hv : v.isNullish with
        | true => exact .nothing _ out
        | false =>
          exact (written_writtenOnto out v).mono fun leaf h => ⟨v, List.mem_cons_self, hv, h⟩
      have hrest (out : String) :
          Written (fun leaf => ∃ u ∈ v :: rest, u.isNullish = false ∧ leaf.IsLeafOf u) out
            (commaTexts false (itemTexts rest)) (writtenItems out false rest) :=
        (written_writtenItems out false rest).mono
          fun leaf ⟨u, hu, h⟩ => ⟨u, List.mem_cons_of_mem v hu, h⟩
      exact (hcomma.trans (hitem _)).trans (hrest _)

end

/-- The text of a value as the limit on length alone leaves it. -/
def writtenText (v : Value) : String :=
  writtenOnto "" v

theorem text_eq_writtenText (h : v.arrayLevels ≤ maxNesting) : v.text = v.writtenText :=
  textOnto_eq_writtenOnto 0 "" v (by rwa [Nat.zero_add])

theorem written_writtenText (v : Value) : Written (·.IsLeafOf v) "" v.fullText v.writtenText :=
  written_writtenOnto "" v

/-- A text is overlong exactly if the full text is. -/
theorem isOverlong_writtenText (v : Value) : isOverlong v.writtenText = isOverlong v.fullText := by
  rcases (written_writtenText v).full_or_overlong with h | ⟨hover, rest, hrest⟩
  · rw [h, String.empty_append]
  · rw [String.empty_append] at hrest
    rw [hover, hrest]
    have hlong := of_decide_eq_true hover
    refine (decide_eq_true ?_).symm
    rw [String.utf8ByteSize_append]
    omega

/-- The error of a text that is too long to be put out. -/
def tooLongToPutOut : ScriptError :=
  .outOfRange s!"Rendered value is larger than {maxTextBytes} bytes"

/-- What is neither an object nor `undefined` or `null` is put out as its text. -/
theorem output_of_text (hmembers : v.members? = none) (hnullish : v.isNullish = false) :
    v.output = if isOverlong v.text then .error tooLongToPutOut else .ok v.text := by
  cases v with
  | undefined | null => cases hnullish
  | object => cases hmembers
  | _ => simp only [output, pure_bind, tooLongToPutOut]

theorem output_of_isNullish (h : v.isNullish = true) : v.output = .ok "" := by
  have hempty : ¬ isOverlong "" = true := by decide
  cases v with
  | undefined | null => simp only [output, pure_bind, if_neg hempty]
  | _ => cases h

/-- **A text is never cut without a trace.**  If no more arrays are nested than conversions descend
into, the text of a value is its full text, or it is overlong and the full text goes on from there.
An overlong text is past the limit by a comma, or by no more than the text of one leaf.  So the
output of a value that is no object is its full text, unless that is too long to be put out, and
nothing for `undefined` and `null`. -/
theorem text_full_or_overlong (v : Value) (h : v.arrayLevels ≤ maxNesting) :
    (v.text = v.fullText ∨
      maxTextBytes < v.text.utf8ByteSize ∧ ∃ rest, v.fullText = v.text ++ rest) ∧
    (maxTextBytes < v.text.utf8ByteSize → v.text.utf8ByteSize ≤ maxTextBytes + 1 ∨
      ∃ leaf : Value, leaf.IsLeafOf v ∧
        v.text.utf8ByteSize ≤ maxTextBytes + leaf.leafText.utf8ByteSize) ∧
    (v.members? = none → v.output =
      if v.isNullish then .ok ""
      else if maxTextBytes < v.fullText.utf8ByteSize then .error tooLongToPutOut
      else .ok v.fullText) := by
  have hwritten := written_writtenText v
  have hempty : isOverlong "" = false := by decide
  rw [text_eq_writtenText h]
  have hfull : v.writtenText = v.fullText ∨
      maxTextBytes < v.writtenText.utf8ByteSize ∧ ∃ rest, v.fullText = v.writtenText ++ rest := by
    have hcases := hwritten.full_or_overlong
    rw [String.empty_append] at hcases
    exact hcases.imp_right fun ⟨hover, hrest⟩ => ⟨of_decide_eq_true hover, hrest⟩
  refine ⟨hfull, fun hlong => hwritten.excess hempty (decide_eq_true hlong), fun hmembers => ?_⟩
  cases hnullish : v.isNullish with
  | true => exact output_of_isNullish hnullish
  | false =>
    rw [output_of_text hmembers hnullish, text_eq_writtenText h, isOverlong_writtenText,
      if_neg Bool.false_ne_true]
    by_cases hlong : maxTextBytes < v.fullText.utf8ByteSize
    · rw [if_pos hlong, if_pos (show isOverlong v.fullText = true from decide_eq_true hlong)]
    · rw [if_neg hlong, if_neg (show ¬ isOverlong v.fullText = true from
        fun hover => hlong (of_decide_eq_true hover))]
      rw [hfull.resolve_right fun ⟨hover, rest, hrest⟩ => hlong ?_]
      rw [hrest, String.utf8ByteSize_append]
      omega

/-! ## Shared arrays -/

/-- A string in an array that stands twice in an array that stands twice in another one, and so on:
few containers with a long text. -/
def tower : Nat → Value
  | 0 => .string "xxxxxxxx"
  | n + 1 => .array n #[tower n, tower n]

theorem arrayLevels_tower (n : Nat) : (tower n).arrayLevels = n := by
  induction n with
  | zero => rfl
  | succ n ih => simp [tower, arrayLevels, itemsArrayLevels, ih]

theorem isNullish_tower (n : Nat) : (tower n).isNullish = false := by
  cases n <;> rfl

theorem utf8ByteSize_fullText_tower (n : Nat) :
    (tower n).fullText.utf8ByteSize + 1 = 9 <<< n := by
  induction n with
  | zero => decide
  | succ n ih =>
    have htwo : (tower (n + 1)).fullText = (tower n).fullText ++ ("," ++ (tower n).fullText) := by
      simp [tower, fullText, itemTexts, isNullish_tower, String.append_assoc]
    rw [htwo, String.utf8ByteSize_append, String.utf8ByteSize_append, Nat.shiftLeft_succ]
    have hcomma : ",".utf8ByteSize = 1 := by decide
    omega

theorem leafText_of_isLeafOf_tower {leaf : Value} {n : Nat} (h : leaf.IsLeafOf (tower n)) :
    leaf.leafText = "xxxxxxxx" := by
  induction n with
  | zero =>
    cases h
    rfl
  | succ n ih =>
    cases h with
    | self hleaf => cases hleaf
    | item hv _ hleaf =>
      simp only [List.mem_toArray, List.mem_cons, List.not_mem_nil, or_false, or_self] at hv
      exact ih (hv ▸ hleaf)

/-- Sixty levels are cut off less than a leaf behind the limit, and cannot be put out. -/
theorem text_full_or_overlong_tower :
    (tower 60).arrayLevels ≤ maxNesting ∧
    maxTextBytes < (tower 60).text.utf8ByteSize ∧
    (tower 60).text.utf8ByteSize ≤ maxTextBytes + 8 ∧
    (tower 60).output = .error tooLongToPutOut := by
  have hlevels : (tower 60).arrayLevels ≤ maxNesting := by
    rw [arrayLevels_tower]
    decide
  obtain ⟨hfull, hexcess, houtput⟩ := text_full_or_overlong (tower 60) hlevels
  have hsize := utf8ByteSize_fullText_tower 60
  have hlong : maxTextBytes < (tower 60).fullText.utf8ByteSize := by
    unfold maxTextBytes
    omega
  have hover : maxTextBytes < (tower 60).text.utf8ByteSize := by
    rcases hfull with h | h
    · rwa [h]
    · exact h.1
  refine ⟨hlevels, hover, ?_, ?_⟩
  · rcases hexcess hover with h | ⟨leaf, hleaf, h⟩
    · omega
    · rw [leafText_of_isLeafOf_tower hleaf] at h
      exact h
  · rw [houtput rfl, isNullish_tower, if_neg Bool.false_ne_true, if_pos hlong]

/-- What is put out for `undefined` is neither its text nor an error. -/
theorem output_undefined_not_text : Value.undefined.members? = none ∧
    Value.undefined.arrayLevels ≤ maxNesting ∧
    ¬ (Value.undefined.output = .ok Value.undefined.fullText ∨
      ∃ message, Value.undefined.output = .error (.outOfRange message)) := by
  have houtput : Value.undefined.output = .ok "" := output_of_isNullish rfl
  refine ⟨rfl, Nat.zero_le _, ?_⟩
  rw [houtput]
  rintro (h | ⟨message, h⟩)
  · exact absurd (Except.ok.inj h) (by decide)
  · cases h

end Stencil.Script.Value
