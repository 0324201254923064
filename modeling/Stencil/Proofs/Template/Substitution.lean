import Mathlib.Data.List.TakeDrop
import Stencil.Engine.Render

/-! # What a placeholder puts into a template

The template `{k}` is a single placeholder.  Substitution turns it into the text
of the variable `k` (`substitute_placeholder`), and what is rendered afterwards is
that text: rendering looks for blocks in it as in any other text.

A text is **plain** when no double braces open in it (`IsPlain`).  A plain text is
rendered to itself and nothing is evaluated (`render_plain`).  A text that is not
plain is cut at its double braces, and what comes out depends on how markers are
written (`marker_ends_render`), so no text but a plain one comes out under every
choice of options.  The two together say exactly for which variables the
placeholder stands for its value (`render_placeholder`).
-/
namespace Stencil.Template
open Stencil.Text

/-- No double braces open in the text. -/
def IsPlain (text : String) : Prop :=
  breakOn? opening text.toList = none

instance (text : String) : Decidable (IsPlain text) :=
  inferInstanceAs (Decidable (_ = _))

/-! ## Block by block -/

section Cutting
variable {vars : List (String × Json)} {debug : Bool} {out : String}
  {cs before body inner after : List Char}

theorem substituteFrom_none (hb : nextBlock cs = .none) :
    substituteFrom vars debug out cs = substituteLiteral vars debug out 0 false cs := by
  rw [substituteFrom]
  split <;> simp_all

theorem substituteFrom_unclosed (hb : nextBlock cs = .unclosed before body) :
    substituteFrom vars debug out cs =
      substituteLiteral vars debug out 0 false before ++ String.ofList (opening ++ body) := by
  rw [substituteFrom]
  split <;> simp_all

theorem substituteFrom_found (hb : nextBlock cs = .found before inner after) :
    substituteFrom vars debug out cs =
      substituteFrom vars debug (substituteLiteral vars debug out 0 false before ++
        String.ofList (opening ++ inner ++ closing)) after := by
  rw [substituteFrom]
  split <;> simp_all

end Cutting

/-! ## The placeholder is replaced -/

theorem ne_brace_of_continuesName {c : Char} (h : continuesName c = true) :
    c ≠ '\x7b' ∧ c ≠ '\x7d' := by
  constructor <;> (rintro rfl; revert h; decide)

/-- Every character of a name may stand inside a name. -/
theorem continuesName_of_isName {k : List Char} (h : isName k = true) :
    ∀ c ∈ k, continuesName c = true := by
  cases k with
  | nil => simp
  | cons c cs =>
    simp only [isName, Bool.and_eq_true, List.all_eq_true] at h
    intro d hd
    rcases List.mem_cons.mp hd with rfl | hd
    · have hs := h.1
      simp only [startsName, continuesName, Char.isAlphanum, Bool.or_eq_true] at hs ⊢
      grind
    · exact h.2 d hd

/-- A single opening brace at the front opens no block. -/
theorem breakOn?_opening_of_forall {seen cs : List Char} (h : ∀ c ∈ cs.drop 1, c ≠ '\x7b') :
    breakOn?.go opening seen cs = none := by
  induction cs generalizing seen with
  | nil => rfl
  | cons c cs ih =>
    unfold breakOn?.go
    have hp : opening.isPrefixOf (c :: cs) = false := by
      cases cs with
      | nil => simp [opening, List.isPrefixOf]
      | cons d cs =>
        have hd : '\x7b' ≠ d := (h d (by simp)).symm
        simp [opening, List.isPrefixOf, hd]
    rw [if_neg (by simp [hp])]
    exact ih fun d hd => h d (List.mem_of_mem_drop hd)

/-- What stands behind the opening brace of a placeholder is recognised. -/
theorem placeholder?_append {k : List Char} (h : isName k = true) :
    placeholder? (k ++ ['\x7d']) = some k := by
  have hk := continuesName_of_isName h
  have hspan : (k ++ ['\x7d']).span continuesName = (k, ['\x7d']) := by
    rw [List.span_eq_takeWhile_dropWhile, List.takeWhile_append_of_pos hk,
      List.dropWhile_append_of_pos hk]
    simp [show continuesName '\x7d' = false by decide]
  unfold placeholder?
  rw [hspan]
  simp [h]

/-- Characters of a placeholder that was replaced leave nothing behind. -/
theorem substituteLiteral_skip (vars : List (String × Json)) (debug : Bool) (out : String)
    (cs : List Char) : substituteLiteral vars debug out cs.length false cs = out := by
  induction cs with
  | nil => rfl
  | cons c cs ih => exact ih

/-- The template that consists of the placeholder for a name. -/
def placeholder (k : String) : String :=
  "\x7b" ++ k ++ "\x7d"

theorem toList_placeholder (k : String) :
    (placeholder k).toList = '\x7b' :: (k.toList ++ ['\x7d']) := by
  simp [placeholder, String.toList_append]

/-- **Substitution puts the text of the variable into the place of its placeholder.** -/
theorem substitute_placeholder {k : String} (hk : isName k.toList = true) (v : Json)
    (debug : Bool) : substitute [(k, v)] debug (placeholder k) = jsonText v := by
  have hbraces : ∀ c ∈ ('\x7b' :: (k.toList ++ ['\x7d'])).drop 1, c ≠ '\x7b' := by
    intro c hc
    rcases List.mem_append.mp hc with hc | hc
    · exact (ne_brace_of_continuesName (continuesName_of_isName hk c hc)).1
    · rw [List.mem_singleton.mp hc]
      decide
  have hblock : nextBlock ('\x7b' :: (k.toList ++ ['\x7d'])) = .none := by
    unfold nextBlock breakOn?
    rw [breakOn?_opening_of_forall hbraces]
  unfold substitute substituteFrom
  rw [toList_placeholder]
  split
  · rw [substituteLiteral, placeholder?_append hk]
    have hlen : k.toList.length + 1 = (k.toList ++ ['\x7d']).length := by simp
    simp only [↓reduceIte, Bool.false_eq_true]
    rw [hlen, substituteLiteral_skip]
    simp [replacement]
  · simp_all
  · simp_all

/-! ## Rendering what was put there -/

namespace Renderer
variable {σ : Type} (r : Renderer σ) {depth : Nat} {whole : List Char} {offset : Nat} {out : String}
  {turns : Nat} {state : σ} {cs before inner after body : List Char}

/-- A turn that is not allowed ends the rendering. -/
theorem renderFrom_halts (h : r.maxIterations < turns + 1) :
    r.renderFrom depth whole offset out turns state cs =
      ⟨out, turns + 1, state, some (.tooMany r.maxIterations)⟩ := by
  unfold renderFrom
  simp only [if_pos h]

/-- A text without a block is copied. -/
theorem renderFrom_none (h : turns + 1 ≤ r.maxIterations) (hb : blockAt depth cs = .none) :
    r.renderFrom depth whole offset out turns state cs =
      { out := out ++ String.ofList cs, turns := turns + 1, state } := by
  unfold renderFrom
  simp only [if_neg (Nat.not_lt.mpr h)]
  split <;> simp_all

/-- A block without an end leaves its marker. -/
theorem renderFrom_unclosed (h : turns + 1 ≤ r.maxIterations)
    (hb : blockAt depth cs = .unclosed before body) :
    r.renderFrom depth whole offset out turns state cs =
      { out := out ++ String.ofList before
          ++ unclosedMarker r.debug whole (offset + byteLength before)
        turns := turns + 1, state } := by
  unfold renderFrom
  simp only [if_neg (Nat.not_lt.mpr h)]
  split <;> simp_all

/-- When the next turn is not allowed, a block ends the rendering, after its own text
or without any. -/
theorem renderFrom_found_halts (whole : List Char) (offset : Nat) (out : String) (turns : Nat)
    (state : σ) (h : turns + 1 = r.maxIterations) (hd : depth + 1 ≤ r.maxDepth)
    (hb : blockAt depth cs = .found before inner after) :
    ∃ front turns' state', r.renderFrom depth whole offset out turns state cs =
      ⟨front, turns', state', some (.tooMany r.maxIterations)⟩ := by
  have hlast : r.maxIterations < turns + 1 + 1 := by omega
  have hdepth : ¬ r.maxDepth < depth + 1 := by omega
  rw [renderFrom]
  simp only [if_neg (show ¬ r.maxIterations < turns + 1 by omega)]
  split
  · simp_all
  · simp_all
  · rename_i before' inner' after' _
    cases hn : hasNested inner' with
    | true =>
      simp only [if_neg hdepth, renderFrom_halts r hlast, ↓reduceIte, Option.isSome_some]
      exact ⟨_, _, _, rfl⟩
    | false =>
      simp only [Bool.false_eq_true, Option.isSome_none, renderFrom_halts r hlast, ↓reduceIte]
      exact ⟨_, _, _, rfl⟩

/-- **A plain text is rendered to itself**, in one turn that evaluates nothing. -/
theorem render_plain {text : String} (h : IsPlain text) (hr : 1 ≤ r.maxIterations) :
    r.render state text = (text, state) := by
  have hb : breakOn? opening text.toList = none := h
  simp only [render]
  rw [renderFrom_none r hr (by simp [blockAt, nextBlock, hb])]
  simp

/-- The marker with which the rendering of a text that is not plain ends when one turn
is allowed: that of a block without an end, or else that of the limit. -/
def lastMarker (text : String) : String :=
  match nextBlock text.toList with
  | .unclosed before _ => unclosedMarker r.debug text.toList (0 + byteLength before)
  | _ => (Diagnosis.tooMany r.maxIterations).marker r.debug

/-- **When one turn is allowed, a text that is not plain is rendered to something that
ends with a marker.** -/
theorem marker_ends_render (state : σ) {text : String} (h : ¬ IsPlain text)
    (hr : r.maxIterations = 1) (hd : 1 ≤ r.maxDepth) :
    ∃ front, (r.render state text).1 = front ++ r.lastMarker text := by
  obtain ⟨⟨before, body⟩, hb⟩ := Option.ne_none_iff_exists'.mp h
  have hnext : nextBlock text.toList = enclose before body := by simp [nextBlock, hb]
  have hat : blockAt 0 text.toList = enclose before body := by simp [blockAt, hnext]
  simp only [render, lastMarker, hnext]
  cases he : enclose before body with
  | none =>
    unfold enclose at he
    split at he <;> cases he
  | unclosed before body =>
    rw [renderFrom_unclosed r (Nat.le_of_eq hr.symm) (hat.trans he)]
    exact ⟨_, rfl⟩
  | found before inner after =>
    obtain ⟨front, turns, state', hf⟩ :=
      r.renderFrom_found_halts text.toList 0 "" 0 state hr.symm hd (hat.trans he)
    rw [hf]
    exact ⟨front, rfl⟩

end Renderer

/-! ## Markers -/

/-- The character before the braces that end a marker. -/
theorem getElem?_reverse_closing (front : String) {body : String} {c : Char}
    (h : body.toList.getLast? = some c) :
    (front ++ (body ++ "\x7d\x7d")).toList.reverse[2]? = some c := by
  obtain ⟨l, hl⟩ := List.getLast?_eq_some_iff.mp h
  simp [String.toList_append, hl]

theorem getLast?_toList_append (a : String) {b : String} {c : Char}
    (h : b.toList.getLast? = some c) : (a ++ b).toList.getLast? = some c := by
  rw [String.toList_append, List.getLast?_append, h]
  rfl

/-- A short marker ends with its message. -/
theorem getElem?_terseMarker (front : String) {d : Diagnosis} {c : Char}
    (h : d.message.toList.getLast? = some c) :
    (front ++ d.marker false).toList.reverse[2]? = some c :=
  getElem?_reverse_closing front (getLast?_toList_append _ h)

/-- A long marker ends with its advice, or with its example if there is one. -/
theorem getElem?_fullMarker (front : String) {d : Diagnosis} {c : Char}
    (h : (d.suggestion ++ (d.kind.example?.map Diagnosis.exampleText).getD "").toList.getLast?
      = some c) :
    (front ++ d.marker true).toList.reverse[2]? = some c := by
  have hb := getLast?_toList_append
    ("\x7b\x7bError: " ++ d.display ++ (d.near.map Diagnosis.nearText).getD "" ++ "\nSuggestion: ")
    h
  rw [← String.append_assoc] at hb
  exact getElem?_reverse_closing front hb

/-- Long and short markers of a block without an end do not end alike. -/
theorem unclosed_marker_ne (near : Option Excerpt) (front front' : String) :
    front ++ Diagnosis.marker { Diagnosis.unclosed with near } false ≠
      front' ++ Diagnosis.marker { Diagnosis.unclosed with near } true := by
  intro h
  have hshort : Diagnosis.unclosed.message.toList.getLast? = some '\'' := by decide +kernel
  have hlong : (Diagnosis.unclosed.suggestion
      ++ (Diagnosis.unclosed.kind.example?.map Diagnosis.exampleText).getD "").toList.getLast?
        = some '\x7d' := by decide +kernel
  have hlast := congrArg (fun t : String => t.toList.reverse[2]?) h
  have hsame := (getElem?_terseMarker (d := { Diagnosis.unclosed with near }) front
    hshort).symm.trans (hlast.trans (getElem?_fullMarker front' hlong))
  exact absurd hsame (by decide)

/-- Long and short markers of the limit of one turn do not end alike. -/
theorem tooMany_marker_ne (front front' : String) :
    front ++ (Diagnosis.tooMany 1).marker false ≠ front' ++ (Diagnosis.tooMany 1).marker true := by
  intro h
  have hshort : (Diagnosis.tooMany 1).message.toList.getLast? = some 'd' := by decide +kernel
  have hlong : ((Diagnosis.tooMany 1).suggestion
      ++ ((Diagnosis.tooMany 1).kind.example?.map Diagnosis.exampleText).getD "").toList.getLast?
        = some '.' := by decide +kernel
  have hlast := congrArg (fun t : String => t.toList.reverse[2]?) h
  have hsame := (getElem?_terseMarker front hshort).symm.trans
    (hlast.trans (getElem?_fullMarker front' hlong))
  exact absurd hsame (by decide)

/-- Two renderers that allow one turn, of which one writes short markers and the other long ones, do
not end alike. -/
theorem lastMarker_ne {σ : Type} {r s : Renderer σ} (hr : r.maxIterations = 1)
    (hs : s.maxIterations = 1) (hrd : r.debug = false) (hsd : s.debug = true)
    (text front front' : String) : front ++ r.lastMarker text ≠ front' ++ s.lastMarker text := by
  intro h
  simp only [Renderer.lastMarker, unclosedMarker, Diagnosis.pointing, hr, hs, hrd, hsd] at h
  split at h
  · exact unclosed_marker_ne _ front front' h
  · exact tooMany_marker_ne front front' h

end Stencil.Template

namespace Stencil.Engine
open Stencil.Template

variable (e : Engine) (helpers : HelperTable)

/-- The engine with which a render starts. -/
def startOf (options : RenderOptions) : Engine :=
  if options.clearCache then e.clearCaches else e

/-- The renderer of the template that consists of one placeholder. -/
def placeholderRenderer (k : String) (v : Json) (options : RenderOptions) : Renderer Engine :=
  let settings := RenderSettings.resolve e.config options (placeholder k).utf8ByteSize
  { maxDepth := settings.maxDepth
    maxIterations := settings.maxIterations
    debug := settings.debug
    evaluate := expressionText ((e.startOf options).renderScope [(k, v)] helpers) settings }

/-- **What is rendered for a placeholder is the text of its variable**, as if that text
were the template. -/
theorem render_placeholder_eq {k : String} (hk : isName k.toList = true) (v : Json)
    (options : RenderOptions)
    (hsize : (placeholder k).utf8ByteSize ≤ e.config.render.maxTemplateBytes) :
    e.render (placeholder k) [(k, v)] helpers options =
      let out := (e.placeholderRenderer helpers k v options).render (e.startOf options) (jsonText v)
      (.ok out.1, out.2) := by
  have hconfig : (e.startOf options).config = e.config := by
    unfold startOf
    split <;> rfl
  simp only [render, if_neg (Nat.not_lt.mpr hsize)]
  rw [show (if options.clearCache = true then e.clearCaches else e) = e.startOf options from rfl,
    hconfig, substitute_placeholder hk]
  rfl

/-- Options that allow one turn, with long or short markers. -/
def oneTurn (debug : Bool) : RenderOptions :=
  { maxDepth := some 1, maxIterations := some 1, debug := some debug }

/-- **A placeholder stands for the value of its variable exactly if the text of the value is
plain.**  A plain text comes out unchanged and nothing is evaluated for it, whatever the options, as
long as they allow a turn; any other text is looked into for blocks, and under some options comes
out changed. -/
theorem render_placeholder {k : String} (hk : isName k.toList = true) (v : Json)
    (hsize : (placeholder k).utf8ByteSize ≤ e.config.render.maxTemplateBytes) :
    (IsPlain (jsonText v) → ∀ options,
      1 ≤ (RenderSettings.resolve e.config options (placeholder k).utf8ByteSize).maxIterations →
      e.render (placeholder k) [(k, v)] helpers options = (.ok (jsonText v), e.startOf options)) ∧
    ((∀ options,
      1 ≤ (RenderSettings.resolve e.config options (placeholder k).utf8ByteSize).maxIterations →
      (e.render (placeholder k) [(k, v)] helpers options).1 = .ok (jsonText v)) →
        IsPlain (jsonText v)) := by
  constructor
  · intro hplain options hturn
    rw [render_placeholder_eq e helpers hk v options hsize, Renderer.render_plain _ hplain hturn]
  · intro hall
    by_contra hplain
    have hout : ∀ debug, ∃ front, jsonText v =
        front ++ (e.placeholderRenderer helpers k v (oneTurn debug)).lastMarker (jsonText v) := by
      intro debug
      have hrender := hall (oneTurn debug) (Nat.le_refl 1)
      rw [render_placeholder_eq e helpers hk v _ hsize] at hrender
      obtain ⟨front, hfront⟩ := Renderer.marker_ends_render
        (e.placeholderRenderer helpers k v (oneTurn debug)) (e.startOf (oneTurn debug)) hplain
        rfl (Nat.le_refl 1)
      exact ⟨front, (Except.ok.inj hrender).symm.trans hfront⟩
    obtain ⟨front, hfront⟩ := hout false
    obtain ⟨front', hfront'⟩ := hout true
    exact lastMarker_ne (r := e.placeholderRenderer helpers k v (oneTurn false))
      (s := e.placeholderRenderer helpers k v (oneTurn true)) rfl rfl rfl rfl (jsonText v) front
      front' (hfront.symm.trans hfront')

/-- The text of a block is no plain text, and a placeholder does not stand for it. -/
theorem render_placeholder_block :
    isName "k".toList = true ∧
    (placeholder "k").utf8ByteSize ≤ (Engine.ofConfig {}).config.render.maxTemplateBytes ∧
    ¬ IsPlain (jsonText (.string "\x7b\x7b 1 + 1 \x7d\x7d")) ∧
    ¬ ∀ options, 1 ≤ (RenderSettings.resolve (Engine.ofConfig {}).config options
        (placeholder "k").utf8ByteSize).maxIterations →
      ((Engine.ofConfig {}).render (placeholder "k")
          [("k", .string "\x7b\x7b 1 + 1 \x7d\x7d")] [] options).1 =
        .ok (jsonText (.string "\x7b\x7b 1 + 1 \x7d\x7d")) := by
  have hname : isName "k".toList = true := by decide
  have hsize : (placeholder "k").utf8ByteSize ≤
      (Engine.ofConfig {}).config.render.maxTemplateBytes := by decide +kernel
  have hblock : ¬ IsPlain (jsonText (.string "\x7b\x7b 1 + 1 \x7d\x7d")) := by decide +kernel
  exact ⟨hname, hsize, hblock, fun h =>
    hblock ((render_placeholder (Engine.ofConfig {}) [] hname _ hsize).2 h)⟩

end Stencil.Engine
