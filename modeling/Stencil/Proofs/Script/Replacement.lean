import Stencil.Proofs.Script.Allocation
import Stencil.Proofs.Script.StringLength
import Stencil.Proofs.Text.Occurrences

/-! # Replacing, splitting and joining

To replace all occurrences of a text that is not empty is to split at it and to join the pieces with
the replacement, which may as well be what a function answers for each of the matches; and to join
the pieces with the text itself gives the whole back (`Eval.replaceAll_eq_join_split`).

This holds up to the ceilings of the evaluation.  A step **settles** on a result if it gives it, or
else stops with an error of given kinds (`Eval.Settles`); here these are the errors for a ceiling under
which the result does not fit, and for a budget that is over (`Eval.AtCeiling`).
-/
namespace Stencil.Script.Eval
open Method

section Settling
variable {α β : Type} {c : Context} {m : Machine} {stops stops' : Machine → ScriptError → Prop}
  {x : Eval α} {a : α}

/-- The step gives the result, unless it stops with one of the errors. -/
def Settles (c : Context) (m : Machine) (stops : Machine → ScriptError → Prop) (x : Eval α) (a : α) :
    Prop :=
  (∃ m', outcome c m x = (.ok a, m')) ∨ ∃ e m', outcome c m x = (.error e, m') ∧ stops m' e

theorem settles_pure (a : α) : Settles c m stops (pure a) a :=
  .inl ⟨m, rfl⟩

theorem Settles.bind {f : α → Eval β} {b : β} (h : Settles c m stops x a)
    (hf : ∀ m', Settles c m' stops (f a) b) : Settles c m stops (x >>= f) b := by
  rcases h with ⟨m₁, h⟩ | ⟨e, m₁, h, hstops⟩
  · have hrun : outcome c m (x >>= f) = outcome c m₁ (f a) := by
      rw [outcome_bind, h]
    unfold Settles
    rw [hrun]
    exact hf m₁
  · refine .inr ⟨e, m₁, ?_, hstops⟩
    rw [outcome_bind, h]

theorem Settles.imp (h : Settles c m stops x a) (hstops : ∀ m e, stops m e → stops' m e) :
    Settles c m stops' x a :=
  h.imp_right fun ⟨e, m', hrun, he⟩ => ⟨e, m', hrun, hstops m' e he⟩

end Settling

/-! ## Ceilings -/

/-- The budget is over. -/
def OverBudget (c : Context) (m : Machine) (e : ScriptError) : Prop :=
  poll c.budget m.ticks = .error e

/-- The budget is over, or a string of that many bytes or an array of that many slots does not fit
under a ceiling. -/
inductive AtCeiling (c : Context) (bytes slots : Nat) (m : Machine) : ScriptError → Prop
  | stringLength (h : c.limits.stringLength < bytes) : AtCeiling c bytes slots m invalidStringLength
  | arrayLength (h : c.limits.arrayLength < slots) : AtCeiling c bytes slots m invalidLength
  | allocation (h : c.limits.allocation < m.allocated + max bytes (slots * slotBytes)) :
    AtCeiling c bytes slots m (allocationExceeded c.limits)
  | budget {e : ScriptError} (h : OverBudget c m e) : AtCeiling c bytes slots m e

variable {c : Context} {m : Machine} {call : Call}

theorem settles_tick : Settles c m (OverBudget c) tick () := by
  unfold Settles OverBudget
  rw [outcome_tick]
  split
  · cases hpoll : poll c.budget (m.ticks + 1) with
    | ok u => exact .inl ⟨_, rfl⟩
    | error e => exact .inr ⟨e, _, rfl, hpoll⟩
  · exact .inl ⟨_, rfl⟩

theorem settles_newString (s : String) (slots : Nat) :
    Settles c m (AtCeiling c s.utf8ByteSize slots) (newString s) (.string s) := by
  by_cases hlength : c.limits.stringLength < s.utf8ByteSize
  · refine .inr ⟨_, m, ?_, .stringLength hlength⟩
    unfold newString
    simp [outcome_bind, hlength]
  · by_cases hcharge : c.limits.allocation < m.allocated + s.utf8ByteSize
    · refine .inr ⟨_, m, outcome_newString_exceeded (Nat.not_lt.mp hlength) hcharge, .allocation ?_⟩
      omega
    · refine .inl ⟨{ m with allocated := m.allocated + s.utf8ByteSize }, ?_⟩
      unfold newString
      simp only [outcome_bind, outcome_limits, outcome_charge, if_neg hlength, if_neg hcharge]
      rfl

theorem checkHeights_strings (limit level : Nat) (texts : List (List Char)) :
    Value.checkHeights limit level (texts.map ofChars) = .ok () := by
  have hmeasure : ∀ seen : Value.Heights,
      Value.measureItems limit level 0 seen (texts.map ofChars) = .ok (0, seen) := by
    induction texts with
    | nil => exact fun _ => by simp [Value.measureItems]
    | cons text texts ih =>
      intro seen
      rw [List.map_cons, Value.measureItems, ofChars]
      simpa [Value.measure] using ih seen
  rw [Value.checkHeights, hmeasure]
  rfl

/-- An array of strings is made unless a ceiling is in the way. -/
theorem settles_newList_strings (texts : List (List Char)) (bytes : Nat) :
    Settles c m (AtCeiling c bytes texts.length) (newList (texts.map ofChars))
      (.array m.next (texts.map ofChars).toArray) := by
  have hsize : (texts.map ofChars).toArray.size = texts.length := by simp
  unfold newList
  by_cases hlength : c.limits.arrayLength < texts.length
  · refine .inr ⟨_, m, ?_, .arrayLength hlength⟩
    unfold newArray
    simp [outcome_bind, hlength]
  · by_cases hcharge : c.limits.allocation < m.allocated + texts.length * slotBytes
    · refine .inr ⟨_, m, outcome_newArray_exceeded ?_ ?_, .allocation ?_⟩
      · rw [hsize]
        exact Nat.not_lt.mp hlength
      · rwa [hsize]
      · omega
    · refine .inl ⟨{ m with
        allocated := m.allocated + texts.length * slotBytes, next := m.next + 1 }, ?_⟩
      unfold newArray
      simp only [outcome_bind, outcome_limits, outcome_charge, hsize, if_neg hlength,
        if_neg hcharge, checkHeights_strings, outcome_ofExcept]
      rfl

/-! ## Replacing -/

/-- The step answers each of the next matches with a value of that text. -/
def AnswersMatches (c : Context) (x : Eval Value) (text : String) : Nat → Machine → Prop
  | 0, _ => True
  | n + 1, m => ∃ v m', outcome c m x = (.ok v, m') ∧ v.text = text ∧
      ∀ m'', outcome c m' tick = (.ok (), m'') → AnswersMatches c x text n m''

theorem answersMatches_pure (c : Context) (text : String) (n : Nat) (m : Machine) :
    AnswersMatches c (pure (.string text)) text n m := by
  induction n generalizing m with
  | zero => trivial
  | succ n ih => exact ⟨_, m, rfl, rfl, fun m'' _ => ih m''⟩

section Replacing
variable {search cs : List Char} {pieces : List (List Char)} {replacement : Value} {text : String}
  {x : Eval Value}

/-- What stands for the matches comes between the pieces. -/
theorem settles_replaceFrom (hcut : Text.Cut search cs pieces)
    (hx : replacementText call (ofChars search) replacement = Value.text <$> x)
    (hanswers : AnswersMatches c x text (pieces.length - 1) m) {fuel : Nat}
    (hfuel : pieces.length ≤ fuel) (out : String) :
    Settles c m (OverBudget c) (replaceFrom call search replacement true out cs fuel)
      (out ++ String.ofList (text.toList.intercalate pieces)) := by
  induction hcut generalizing m fuel out with
  | rest hbreak =>
    obtain ⟨fuel, rfl⟩ := Nat.exists_eq_add_of_lt (Nat.lt_of_succ_le hfuel)
    unfold replaceFrom
    rw [hbreak]
    simpa [List.intercalate] using settles_pure _
  | @piece cs before after pieces hbreak hrest ih =>
    obtain ⟨fuel, rfl⟩ := Nat.exists_eq_add_of_lt (Nat.zero_lt_of_lt hfuel)
    obtain ⟨next, rest, hpieces⟩ := hrest.exists_cons
    have hcount : (before :: pieces).length - 1 = (pieces.length - 1) + 1 := by
      simp [hpieces]
    rw [hcount] at hanswers
    obtain ⟨v, m₁, hrun, htext, hlater⟩ := hanswers
    have hwhole : out ++ String.ofList before ++ text
        ++ String.ofList (text.toList.intercalate pieces) =
        out ++ String.ofList (text.toList.intercalate (before :: pieces)) := by
      rw [hrest.intercalate_cons]
      simp [String.ofList_append, String.append_assoc]
    rw [← hwhole]
    unfold replaceFrom
    rw [hbreak]
    unfold Settles
    simp only [hx, outcome_bind, outcome_map, hrun, Except.map, htext, if_true]
    rcases settles_tick (c := c) (m := m₁) with ⟨m₂, htick⟩ | ⟨e, m₂, htick, hover⟩
    · rw [htick]
      have hlength : pieces.length ≤ 0 + fuel := by
        rw [List.length_cons] at hfuel
        omega
      exact ih (hlater m₂ htick) hlength _
    · rw [htick]
      exact .inr ⟨e, m₂, rfl, hover⟩

/-- Only the first occurrence is replaced. -/
theorem settles_replaceFirst {before after : List Char}
    (hbreak : Text.breakOn? search cs = some (before, after)) (fuel : Nat) :
    Settles c m (OverBudget c) (replaceFrom call search (.string text) false "" cs (fuel + 1))
      (String.ofList before ++ text ++ String.ofList after) := by
  unfold replaceFrom
  rw [hbreak]
  refine Settles.bind (a := text) (settles_pure text) fun m₁ => ?_
  refine settles_tick.bind fun m₂ => ?_
  simpa using settles_pure _

end Replacing

/-! ## Methods -/

/-- A method of strings is called. -/
theorem callMethod_string {receiver : Expr} {target : Eval Target} {s key : String}
    {args : List Value} {x : Eval Value} (h : ofString call s key args = some <$> x) :
    callMethod call receiver target (.string s) key args false = x := by
  have hinvoke : Method.invoke call (.string s) key args = some <$> x := h
  unfold callMethod inPlace? reorders
  simp [Value.isNullish, Value.members?, Value.isArray, hinvoke]

/-- The items of an array are joined. -/
theorem callMethod_join {receiver : Expr} {target : Eval Target} {id : Identity}
    {items : Array Value} {separator : String} :
    callMethod call receiver target (.array id items) "join" [.string separator] false =
      newString (joined separator items.toList) := by
  have hinvoke : Method.invoke call (.array id items) "join" [.string separator] =
      some <$> newString (joined separator items.toList) := rfl
  unfold callMethod inPlace? reorders
  simp [Value.isNullish, Value.members?, InPlace.ofName?, hinvoke]

/-- The text with each occurrence of `t`, which is not empty, replaced. -/
def rejoined (s t r : String) : String :=
  String.ofList (r.toList.intercalate (Text.splitOn t.toList s.toList))

/-- The text is split at `t`, and the pieces are joined with `r`. -/
def splitAndJoin (call : Call) (receiver receiver' : Expr) (target target' : Eval Target)
    (s t r : String) : Eval Value := do
  let pieces ← callMethod call receiver target (.string s) "split" [.string t] false
  callMethod call receiver' target' pieces "join" [.string r] false

variable {receiver receiver' : Expr} {target target' : Eval Target} {s t r : String}

theorem joined_strings (r : String) (texts : List (List Char)) :
    joined r (texts.map ofChars) = String.ofList (r.toList.intercalate texts) := by
  have htexts : (texts.map ofChars).map (fun v => if v.isNullish then "" else v.text) =
      texts.map String.ofList := by
    rw [List.map_map]
    refine List.map_congr_left fun text _ => ?_
    simp [ofChars, Value.isNullish, Value.text_string]
  rw [joined, htexts, ← String.toList_inj, String.toList_intercalate, String.toList_ofList,
    List.map_map]
  congr 1
  simp [Function.comp_def]

/-- All occurrences are replaced by what the step answers for them. -/
theorem settles_replaceAll (ht : t ≠ "") {replacement : Value} {x : Eval Value}
    (hx : replacementText call (.string t) replacement = Value.text <$> x)
    (hanswers : AnswersMatches c x r ((Text.splitOn t.toList s.toList).length - 1) m) :
    Settles c m (AtCeiling c (rejoined s t r).utf8ByteSize 0)
      (callMethod call receiver target (.string s) "replaceAll" [.string t, replacement] false)
      (.string (rejoined s t r)) := by
  have hsearch : t.toList ≠ [] := mt String.toList_eq_nil_iff.mp ht
  have hcut := Text.cut_splitOn hsearch s.toList
  have hreplaced : replaced call s t replacement true =
      replaceFrom call t.toList replacement true "" s.toList (s.length + 1) := by
    unfold replaced
    split
    · exact absurd ‹_› hsearch
    · rfl
  have hmethod : ofString call s "replaceAll" [.string t, replacement] =
      some <$> (replaced call s t replacement true >>= newString) := by
    show (do let out ← replaced call s t replacement true; some <$> newString out) = _
    rw [map_bind]
  have hlength : (Text.splitOn t.toList s.toList).length ≤ s.length + 1 := by
    rw [← String.length_toList]
    exact hcut.length_le hsearch
  rw [callMethod_string hmethod, hreplaced]
  refine Settles.bind (a := rejoined s t r) ?_ fun m' => settles_newString _ 0
  refine Settles.imp ?_ fun _ _ => AtCeiling.budget
  have hchars : ofChars t.toList = .string t := by rw [ofChars, String.ofList_toList]
  have hfrom := settles_replaceFrom hcut (hchars ▸ hx) hanswers hlength ""
  rwa [String.empty_append] at hfrom

/-- The pieces are made, and joined. -/
theorem settles_splitAndJoin (ht : t ≠ "") :
    Settles c m
      (AtCeiling c (rejoined s t r).utf8ByteSize (Text.splitOn t.toList s.toList).length)
      (splitAndJoin call receiver receiver' target target' s t r) (.string (rejoined s t r)) := by
  have hsearch : t.toList ≠ [] := mt String.toList_eq_nil_iff.mp ht
  have hpieces : pieces s (.string t) = (Text.splitOn t.toList s.toList).map ofChars := by
    unfold pieces
    rw [if_neg (by simp [Value.isUndefined]), Value.text]
    split
    · exact absurd ‹_› hsearch
    · rfl
  have hmethod : ofString call s "split" [.string t] =
      some <$> newList ((Text.splitOn t.toList s.toList).map ofChars) := by
    rw [← hpieces]
    rfl
  unfold splitAndJoin
  rw [callMethod_string hmethod]
  refine (settles_newList_strings _ _).bind fun m' => ?_
  rw [callMethod_join, joined_strings]
  exact settles_newString _ _

/-- The first occurrence is replaced, or nothing where there is none. -/
theorem settles_replace (ht : t ≠ "") {out : String}
    (hout : ∀ m', Settles c m' (OverBudget c)
      (replaceFrom call t.toList (.string r) false "" s.toList (s.length + 1)) out) :
    Settles c m (AtCeiling c out.utf8ByteSize 0)
      (callMethod call receiver target (.string s) "replace" [.string t, .string r] false)
      (.string out) := by
  have hreplaced : replaced call s t (.string r) false =
      replaceFrom call t.toList (.string r) false "" s.toList (s.length + 1) := by
    unfold replaced
    split
    · exact absurd ‹_› (mt String.toList_eq_nil_iff.mp ht)
    · rfl
  have hmethod : ofString call s "replace" [.string t, .string r] =
      some <$> (replaced call s t (.string r) false >>= newString) := by
    show (do let out ← replaced call s t (.string r) false; some <$> newString out) = _
    rw [map_bind]
  rw [callMethod_string hmethod, hreplaced]
  exact ((hout m).imp fun _ _ => AtCeiling.budget).bind fun m' => settles_newString _ 0

/-- To replace all occurrences of a text is to split at it and to join the pieces with the
replacement, and so it is if a function answers with the replacement for each of the matches.  Pieces
that are joined with the text itself are the whole again.  Only the first occurrence is replaced
otherwise, and what stands before and behind it is kept. -/
theorem replaceAll_eq_join_split (c : Context) (m : Machine) (call : Call)
    (receiver receiver' : Expr) (target target' : Eval Target) (s t r : String) (ht : t ≠ "") :
    Settles c m (AtCeiling c (rejoined s t r).utf8ByteSize 0)
      (callMethod call receiver target (.string s) "replaceAll" [.string t, .string r] false)
      (.string (rejoined s t r)) ∧
    Settles c m (AtCeiling c (rejoined s t r).utf8ByteSize (Text.splitOn t.toList s.toList).length)
      (splitAndJoin call receiver receiver' target target' s t r) (.string (rejoined s t r)) ∧
    Settles c m (AtCeiling c s.utf8ByteSize (Text.splitOn t.toList s.toList).length)
      (splitAndJoin call receiver receiver' target target' s t t) (.string s) ∧
    (∀ f : Value, f.isCallable →
      AnswersMatches c (call f [.string t]) r ((Text.splitOn t.toList s.toList).length - 1) m →
      Settles c m (AtCeiling c (rejoined s t r).utf8ByteSize 0)
        (callMethod call receiver target (.string s) "replaceAll" [.string t, f] false)
        (.string (rejoined s t r))) ∧
    (∀ before after, Text.FirstOccurrence t.toList s.toList before after →
      Settles c m
        (AtCeiling c (String.ofList before ++ r ++ String.ofList after).utf8ByteSize 0)
        (callMethod call receiver target (.string s) "replace" [.string t, .string r] false)
        (.string (String.ofList before ++ r ++ String.ofList after))) ∧
    (¬ t.toList <:+: s.toList →
      Settles c m (AtCeiling c s.utf8ByteSize 0)
        (callMethod call receiver target (.string s) "replace" [.string t, .string r] false)
        (.string s)) := by
  have hsearch : t.toList ≠ [] := mt String.toList_eq_nil_iff.mp ht
  have hwhole : rejoined s t t = s := by
    rw [rejoined, (Text.cut_splitOn hsearch s.toList).intercalate, String.ofList_toList]
  refine ⟨?replaceAll, settles_splitAndJoin ht, ?whole, ?answers, ?first, ?absent⟩
  case replaceAll =>
    refine settles_replaceAll ht (x := pure (.string r)) ?_ (answersMatches_pure c r _ m)
    rfl
  case whole =>
    have h : Settles c m
        (AtCeiling c (rejoined s t t).utf8ByteSize (Text.splitOn t.toList s.toList).length)
        (splitAndJoin call receiver receiver' target target' s t t) (.string (rejoined s t t)) :=
      settles_splitAndJoin ht
    rwa [hwhole] at h
  case answers =>
    intro f hf hanswers
    refine settles_replaceAll ht ?_ hanswers
    unfold replacementText
    rw [if_pos hf]
    rfl
  case first =>
    intro before after hfirst
    exact settles_replace ht fun m' =>
      settles_replaceFirst (Text.breakOn?_eq_some_iff.mpr hfirst) s.length
  case absent =>
    intro habsent
    refine settles_replace ht fun m' => ?_
    unfold replaceFrom
    rw [Text.breakOn?_eq_none_iff.mpr habsent]
    simpa using settles_pure _

/-- The function `() => "+"`. -/
def givesPlus : Value :=
  .closure 0 (.mk none [] (.expr (.string "+")) true) [] []

/-- In the text `-a-é` both dashes are replaced, also if a function of the script is asked; `replace`
leaves the second one. -/
theorem replaceAll_eq_join_split_dashes :
    let c : Context := { budget := { limit := 5000 } }
    let m : Machine := { next := 1 }
    let call := callVia (enter 1)
    let text := Value.string "-a-é"
    "-" ≠ "" ∧ rejoined "-a-é" "-" "+" = "+a+é" ∧
      AnswersMatches c (call givesPlus [.string "-"]) "+" 2 m ∧
      Text.FirstOccurrence "-".toList "-a-é".toList [] "a-é".toList ∧
      Settles c m (AtCeiling c 5 0)
        (callMethod call (.name "s") (pure ⟨"s", []⟩) text "replaceAll" [.string "-", .string "+"]
          false) (.string "+a+é") ∧
      Settles c m (AtCeiling c 5 3)
        (splitAndJoin call (.name "s") .null (pure ⟨"s", []⟩) (pure ⟨"", []⟩) "-a-é" "-" "+")
        (.string "+a+é") ∧
      Settles c m (AtCeiling c 5 3)
        (splitAndJoin call (.name "s") .null (pure ⟨"s", []⟩) (pure ⟨"", []⟩) "-a-é" "-" "-")
        text ∧
      Settles c m (AtCeiling c 5 0)
        (callMethod call (.name "s") (pure ⟨"s", []⟩) text "replaceAll" [.string "-", givesPlus]
          false) (.string "+a+é") ∧
      Settles c m (AtCeiling c 5 0)
        (callMethod call (.name "s") (pure ⟨"s", []⟩) text "replace" [.string "-", .string "+"]
          false) (.string "+a-é") := by
  intro c m call text
  have hdash : "-" ≠ "" := by decide
  have hrejoined : rejoined "-a-é" "-" "+" = "+a+é" := by decide
  have hanswers : AnswersMatches c (call givesPlus [.string "-"]) "+" 2 m := by
    refine ⟨.string "+", { m with ticks := 1, peak := 2 }, rfl, Value.text_string _, ?_⟩
    intro m₁ htick
    cases htick
    refine ⟨.string "+", { m with ticks := 3, peak := 2 }, rfl, Value.text_string _, ?_⟩
    intro m₂ _
    trivial
  have hfirst : Text.FirstOccurrence "-".toList "-a-é".toList [] "a-é".toList :=
    Text.breakOn?_eq_some_iff.mp (by decide)
  obtain ⟨hall, hsplit, hwhole, hfunction, hreplace, -⟩ :=
    replaceAll_eq_join_split c m call (.name "s") .null (pure ⟨"s", []⟩) (pure ⟨"", []⟩)
      "-a-é" "-" "+" hdash
  exact ⟨hdash, hrejoined, hanswers, hfirst, hrejoined ▸ hall, hrejoined ▸ hsplit, hwhole,
    hrejoined ▸ hfunction givesPlus rfl hanswers, hreplace _ _ hfirst⟩

end Stencil.Script.Eval
