import Stencil.Proofs.Script.MatchLogic

/-! # Methods under a logic of steps that match

A method of values that belong together, with arguments that do, does the same on both sides and
answers with values that belong together, provided that the calls which it makes do
(`MatchLogic.Calls`).
-/
namespace Stencil.Script
open Value (argument)

/-! ## Methods whose answers are plain -/

namespace Method

theorem isPlain_pieces (s : String) (separator : Value) :
    ∀ v ∈ pieces s separator, v.isPlain := by
  intro v hv
  unfold pieces at hv
  split at hv
  · rw [List.mem_singleton.mp hv]
    rfl
  · split at hv <;>
      (obtain ⟨cs, -, rfl⟩ := List.mem_map.mp hv; rfl)

theorem isPlain_ofChar? (c : Option Char) : (ofChar? c).isPlain := by
  cases c <;> rfl

theorem isPlain_count_getD (place : Option Nat) (x : Float) :
    ((place.map count).getD (.number x)).isPlain := by
  cases place <;> rfl

theorem isPlain_placeOrMinusOne (place : Option Nat) : (placeOrMinusOne place).isPlain :=
  isPlain_count_getD place _

theorem isPlain_ofNumber (x : Float) (name : String) (args : List Value) :
    ∀ v ∈ ofNumber x name args, v.isPlain := by
  unfold ofNumber
  split <;> (try split) <;> simp [Value.isPlain]

theorem isPlain_ofDate (i : Calendar.Instant) (name : String) :
    ∀ v ∈ ofDate i name, v.isPlain := by
  unfold ofDate
  split <;> simp [Value.isPlain, count]

theorem isPlain_ofBool (b : Bool) (name : String) : ∀ v ∈ ofBool b name, v.isPlain := by
  unfold ofBool
  split <;> simp [Value.isPlain]

theorem isPlain_ofObject (members : List (String × Value)) (name : String) (args : List Value) :
    ∀ v ∈ ofObject members name args, v.isPlain := by
  unfold ofObject
  split <;> simp [Value.isPlain]

end Method

namespace MatchLogic
variable {L : MatchLogic} {A : L.Mode} {w : L.World} {n : Nat} {r : Reach}
  {call call' : Call} {v v' : Value} {args args' items items' : List Value}

/-- In every world the calls of functions that belong together, with arguments that do, match.  They
read and assign names of their own. -/
def Calls (L : MatchLogic) (n : Nat) (call call' : Call) : Prop :=
  ∀ A w f f' args args', L.Match w f f' → L.MatchAll w args args' →
    L.Holds A w n .call (call f args) (call' f' args') L.Match

theorem Calls.apply (hcall : L.Calls n call call') (hv : L.Match w v v')
    (hargs : L.MatchAll w args args') :
    L.Holds A w n r (call v args) (call' v' args') L.Match :=
  L.ofCall (hcall A w v v' args args' hv hargs)

theorem callback (hargs : L.MatchAll w args args') :
    L.Holds A w n r (Method.callback args) (Method.callback args') L.Match := by
  have hfirst := (L.resembles w).argument hargs 0
  unfold Method.callback
  dsimp only
  rw [((L.resembles w).looks hfirst).isCallable, (L.resembles w).text hfirst]
  split
  · exact L.result hfirst
  · exact L.fail _ rfl

/-- A new array of values that are plain. -/
theorem newPlainList {vs : List Value} (h : ∀ v ∈ vs, v.isPlain) :
    L.Holds A w n r (Eval.newList vs) (Eval.newList vs) L.Match :=
  newList ((L.resembles w).forall₂_plain h)

/-- A method that answers at once. -/
theorem answer (h : L.Match w v v') :
    L.Holds A w n r (pure (some v)) (pure (some v')) L.MatchAnswer :=
  L.result (.some h)

/-- A method that answers at once with a plain value. -/
theorem answerPlain (h : v.isPlain) :
    L.Holds A w n r (pure (some v)) (pure (some v)) L.MatchAnswer :=
  answer (plain h)

/-- There is no method of the name. -/
theorem noMethod : L.Holds A w n r (pure none : Eval (Option Value)) (pure none) L.MatchAnswer :=
  L.result .none

/-- A plain answer, or none. -/
theorem answersPlain {o : Option Value} (h : ∀ v ∈ o, v.isPlain) :
    L.Holds A w n r (pure o) (pure o) L.MatchAnswer := by
  cases o with
  | none => exact noMethod
  | some v => exact answerPlain (h v rfl)

/-! ## Strings -/

section Strings
variable (hcall : L.Calls n call call')
include hcall

theorem replacementText {search : Value} (hs : search.isPlain) (hv : L.Match w v v') :
    L.Holds A w n r (Method.replacementText call search v)
      (Method.replacementText call' search v') L.Same := by
  unfold Method.replacementText
  rw [((L.resembles w).looks hv).isCallable, (L.resembles w).text hv]
  split
  · refine L.bind (hcall.apply hv (.cons (plain hs) .nil)) fun w₁ u u' _ hu => ?_
    rw [(L.resembles w₁).text hu]
    exact same _
  · exact same _

theorem replaceEmpty (hv : L.Match w v v') (all : Bool) (out : String) (cs : List Char) :
    L.Holds A w n r (Method.replaceEmpty call v all out cs)
      (Method.replaceEmpty call' v' all out cs) L.Same := by
  induction cs generalizing out w with
  | nil => exact seq (replacementText hcall rfl hv) fun _ _ _ => same _
  | cons c cs ih =>
    unfold Method.replaceEmpty
    refine seq (replacementText hcall rfl hv) fun w₁ piece hw₁ => ?_
    dsimp only
    split
    · exact seq (L.ofCall L.tick) fun w₂ _ hw₂ => ih (L.mono hw₂ (L.mono hw₁ hv)) _
    · exact same _

theorem replaceFrom (hv : L.Match w v v') (search : List Char) (all : Bool) (out : String)
    (cs : List Char) (fuel : Nat) :
    L.Holds A w n r (Method.replaceFrom call search v all out cs fuel)
      (Method.replaceFrom call' search v' all out cs fuel) L.Same := by
  induction fuel generalizing out cs w with
  | zero => exact same _
  | succ fuel ih =>
    unfold Method.replaceFrom
    split
    · exact same _
    · refine seq (replacementText hcall rfl hv) fun w₁ piece hw₁ => ?_
      refine seq (L.ofCall L.tick) fun w₂ _ hw₂ => ?_
      split
      · exact ih (L.mono hw₂ (L.mono hw₁ hv)) _ _
      · exact same _

theorem replaced (hv : L.Match w v v') (s search : String) (all : Bool) :
    L.Holds A w n r (Method.replaced call s search v all)
      (Method.replaced call' s search v' all) L.Same := by
  unfold Method.replaced
  split
  · exact replaceEmpty hcall hv all _ _
  · exact replaceFrom hcall hv _ all _ _ _

omit hcall in
theorem padded (hargs : L.MatchAll w args args') (s : String) (atStart : Bool) :
    L.Holds A w n r (Method.padded s args atStart) (Method.padded s args' atStart) L.Match := by
  have hR := L.resembles w
  unfold Method.padded
  rw [hR.toNumber (hR.argument hargs 0), hR.textOr (hR.argument hargs 1)]
  refine seq (L.ofCall L.limits) fun _ _ _ => guard rfl fun _ => ?_
  dsimp only
  split
  · exact resultPlain rfl
  · exact newString _

omit hcall in
/-- The texts of related values, one behind the other. -/
theorem foldl_text (hargs : L.MatchAll w args args') (s : String) :
    args'.foldl (fun out v => out ++ v.text) s = args.foldl (fun out v => out ++ v.text) s := by
  induction hargs generalizing s with
  | nil => rfl
  | cons hv _ ih => rw [List.foldl_cons, List.foldl_cons, (L.resembles w).text hv, ih]

theorem ofString (hargs : L.MatchAll w args args') (s name : String) :
    L.Holds A w n r (Method.ofString call s name args) (Method.ofString call' s name args')
      L.MatchAnswer := by
  have hR := L.resembles w
  have hfirst := hR.argument hargs 0
  have hsecond := hR.argument hargs 1
  unfold Method.ofString
  simp only [hR.toNumber hfirst, hR.toNumber hsecond, (hR.looks hsecond).isUndefined,
    hR.textArgument hargs, hR.relativePlace? hfirst, hR.relativeIndex hfirst,
    hR.relativeIndex hsecond, hR.clampedIndex hfirst, hR.clampedIndex hsecond, hR.pieces hfirst,
    foldl_text hargs]
  split
  -- The methods stand in the order of the definition: first those that change letters and blanks.
  iterate 4 exact present (newString _)
  iterate 8 exact answerPlain rfl
  iterate 2 exact answerPlain (Method.isPlain_placeOrMinusOne _)
  · exact answerPlain rfl
  · exact answerPlain (Method.isPlain_ofChar? _)
  iterate 2 exact answerPlain rfl
  · refine present (newPlainList fun v hv => Method.isPlain_pieces s (argument args 0) v ?_)
    split at hv
    · exact hv
    · exact List.mem_of_mem_take hv
  iterate 2
    refine seq (replaced hcall hsecond s _ _) fun _ _ _ => ?_
    exact present (newString _)
  · refine guard rfl fun _ => seq (L.ofCall L.limits) fun _ _ _ => guard rfl fun _ => ?_
    exact present (newString _)
  iterate 2 exact present (padded hargs s _)
  · exact present (newString _)
  · exact answerPlain rfl
  · exact answerPlain (Method.isPlain_count_getD _ _)
  · exact noMethod

end Strings

/-! ## Arrays -/

/-- From a world on, the comparisons match. -/
def Compares (L : MatchLogic) (A : L.Mode) (w : L.World) (n : Nat) (r : Reach)
    (before before' : Value → Value → Eval Bool) : Prop :=
  ∀ w', L.Le w w' → ∀ v v' u u', L.Match w' v v' → L.Match w' u u' →
    L.Holds A w' n r (before v u) (before' v' u') L.Same

section Sorting
variable {before before' : Value → Value → Eval Bool}

theorem Compares.mono {w' : L.World} (hb : L.Compares A w n r before before') (hw : L.Le w w') :
    L.Compares A w' n r before before' :=
  fun w₁ hw₁ => hb w₁ (L.trans hw hw₁)

theorem mergeBy (hb : L.Compares A w n r before before') {done done' xs xs' ys ys' : List Value}
    (hdone : L.MatchAll w done done') (hxs : L.MatchAll w xs xs') (hys : L.MatchAll w ys ys')
    (fuel : Nat) :
    L.Holds A w n r (Method.mergeBy before done xs ys fuel)
      (Method.mergeBy before' done' xs' ys' fuel) L.MatchAll := by
  have hend : L.MatchAll w (done.reverse ++ xs ++ ys) (done'.reverse ++ xs' ++ ys') :=
    List.rel_append (List.rel_append (List.rel_reverse hdone) hxs) hys
  induction fuel generalizing done done' xs xs' ys ys' w with
  | zero => exact L.result hend
  | succ fuel ih =>
    unfold Method.mergeBy
    cases hxs with
    | nil => exact L.result hend
    | cons hx hxs =>
      cases hys with
      | nil => exact L.result hend
      | cons hy hys =>
        refine seq (hb w (L.refl w) _ _ _ _ hy hx) fun w₁ first hw₁ => ?_
        have hdone := MatchAll.mono hdone hw₁
        have hx := L.mono hw₁ hx
        have hy := L.mono hw₁ hy
        have hxs := MatchAll.mono hxs hw₁
        have hys := MatchAll.mono hys hw₁
        split
        · exact ih (hb.mono hw₁) (.cons hy hdone) (.cons hx hxs) hys
            (List.rel_append (List.rel_append (List.rel_reverse (.cons hy hdone)) (.cons hx hxs))
              hys)
        · exact ih (hb.mono hw₁) (.cons hx hdone) hxs (.cons hy hys)
            (List.rel_append (List.rel_append (List.rel_reverse (.cons hx hdone)) hxs)
              (.cons hy hys))

theorem sortHalves (hb : L.Compares A w n r before before') (fuel : Nat) {xs xs' : List Value}
    (hxs : L.MatchAll w xs xs') :
    L.Holds A w n r (Method.sortHalves before fuel xs) (Method.sortHalves before' fuel xs')
      L.MatchAll := by
  induction fuel generalizing xs xs' w with
  | zero => exact L.result hxs
  | succ fuel ih =>
    unfold Method.sortHalves
    rw [← hxs.length_eq]
    split
    · exact L.result hxs
    · refine L.bind (ih hb (List.forall₂_take _ hxs)) fun w₁ left left' hw₁ hleft => ?_
      refine L.bind (ih (hb.mono hw₁) (MatchAll.mono (List.forall₂_drop _ hxs) hw₁))
        fun w₂ right right' hw₂ hright => ?_
      exact mergeBy (hb.mono (L.trans hw₁ hw₂)) .nil (MatchAll.mono hleft hw₂) hright _

end Sorting

/-- Items at the same place that belong together. -/
abbrev MatchItem (L : MatchLogic) (w : L.World) (item item' : Value × Nat) : Prop :=
  item'.2 = item.2 ∧ L.Match w item.1 item'.1

section Items
variable (hcall : L.Calls n call call')
include hcall

theorem sorted {compare compare' : Value} (hc : L.Match w compare compare')
    (hitems : L.MatchAll w items items') :
    L.Holds A w n r (Method.sorted call compare items) (Method.sorted call' compare' items')
      L.MatchAll := by
  unfold Method.sorted Method.sortBy
  rw [((L.resembles w).looks hc).isCallable, ← hitems.length_eq]
  split
  · refine sortHalves (fun w₁ hw₁ v v' u u' hv hu => ?_) _ hitems
    refine L.bind (hcall.apply (L.mono hw₁ hc) (.cons hv (.cons hu .nil))) fun w₂ out _ _ hout => ?_
    rw [(L.resembles w₂).toNumber hout]
    exact same _
  · refine sortHalves (fun w₁ hw₁ v v' u u' hv hu => ?_) _ hitems
    rw [(L.resembles w₁).defaultBefore hv hu]
    exact same _

theorem callItem (hv : L.Match w v v') {item item' : Value × Nat} (hi : L.MatchItem w item item') :
    L.Holds A w n r (Method.callItem call v item) (Method.callItem call' v' item') L.Match := by
  unfold Method.callItem
  rw [hi.1]
  exact hcall.apply hv (.cons hi.2 (.cons (plain rfl) .nil))

/-- A function is called with every item and its place. -/
theorem callItems (hv : L.Match w v v') :
    ∀ w', L.Le w w' → ∀ item item', L.MatchItem w item item' →
      L.Holds A w' n r (Method.callItem call v item) (Method.callItem call' v' item') L.Match :=
  fun _ hw _ _ hi => callItem hcall (L.mono hw hv) ⟨hi.1, L.mono hw hi.2⟩

theorem mapItems (hv : L.Match w v v') (hitems : L.MatchAll w items items') :
    L.Holds A w n r (items.zipIdx.mapM (Method.callItem call v))
      (items'.zipIdx.mapM (Method.callItem call' v')) L.MatchAll :=
  mapM (forall₂_zipIdx hitems 0) (callItems hcall hv)

/-- A test of every item. -/
theorem testItem (hv : L.Match w v v') (test : Bool → Bool) :
    ∀ w', L.Le w w' → ∀ item item', L.MatchItem w item item' →
      L.Holds A w' n r (do return test (← Method.callItem call v item).truthy)
        (do return test (← Method.callItem call' v' item').truthy) L.Same := by
  intro w' hw' item item' hi
  refine L.bind (callItems hcall hv w' hw' item item' hi) fun w₁ out _ _ hout => ?_
  rw [((L.resembles w₁).looks hout).truthy]
  exact same _

theorem findItem (hv : L.Match w v v') (wanted : Bool) (hitems : L.MatchAll w items items') :
    L.Holds A w n r (Method.findItem call v wanted items) (Method.findItem call' v' wanted items')
      (fun w' => Option.Rel (L.MatchItem w')) := by
  unfold Method.findItem
  refine weaken (findM? (forall₂_zipIdx hitems 0) (testItem hcall hv (· == wanted))) ?_
  rintro w₁ _ _ hw₁ (⟨hsame, hitem⟩ | _)
  · exact .some ⟨hsame, L.mono hw₁ hitem⟩
  · exact .none

theorem reduced (hv : L.Match w v v') (hargs : L.MatchAll w args args')
    (hitems : L.MatchAll w items items') :
    L.Holds A w n r (Method.reduced call v args items) (Method.reduced call' v' args' items')
      L.Match := by
  have hfold : ∀ {rest rest' : List (Value × Nat)} {start start' : Value},
      L.Match w start start' → List.Forall₂ (L.MatchItem w) rest rest' →
      L.Holds A w n r
        (rest.foldlM (fun acc item => call v [acc, item.1, Method.count item.2]) start)
        (rest'.foldlM (fun acc item => call' v' [acc, item.1, Method.count item.2]) start')
        L.Match := by
    refine fun hs hrest => foldlM hrest hs fun w' hw' acc acc' hacc item item' hi => ?_
    rw [hi.1]
    exact hcall.apply (L.mono hw' hv)
      (.cons hacc (.cons (L.mono hw' hi.2) (.cons (plain rfl) .nil)))
  have hzip := forall₂_zipIdx hitems 0
  unfold Method.reduced
  generalize items.zipIdx = rest at hzip
  generalize items'.zipIdx = rest' at hzip
  cases hargs with
  | nil =>
    cases hzip with
    | nil => exact L.fail _ rfl
    | cons hfirst hrest => exact hfold hfirst.2 hrest
  | cons _ hargs =>
    cases hargs with
    | nil =>
      cases hzip with
      | nil => exact L.fail _ rfl
      | cons hfirst hrest => exact hfold hfirst.2 hrest
    | cons hstart _ => exact hfold hstart hzip

theorem ofArray (hargs : L.MatchAll w args args') (hitems : L.MatchAll w items items')
    {self self' : Value} (hself : L.Match w self self') (name : String) :
    L.Holds A w n r (Method.ofArray call self items name args)
      (Method.ofArray call' self' items' name args') L.MatchAnswer := by
  have hR := L.resembles w
  have hfirst := hR.argument hargs 0
  have hsecond := hR.argument hargs 1
  have hcallback := callback (A := A) (n := n) (r := r) hargs
  unfold Method.ofArray
  simp only [hR.textOr hfirst, hR.joined hitems, hR.relativeIndex hfirst,
    hR.relativeIndex hsecond, hR.relativePlace? hfirst, hR.flatDepth hfirst, hR.text hself,
    hR.any_isItem hitems hfirst, hR.findIdx?_strictEquals hitems hfirst,
    hR.findIdx?_strictEquals (List.rel_reverse hitems) hfirst, ← hitems.length_eq]
  split
  · refine L.bind hcallback fun w₁ f f' hw₁ hf => ?_
    exact L.bind (mapItems hcall hf (MatchAll.mono hitems hw₁)) fun w₂ out _ _ hout =>
      present (newList hout)
  · refine L.bind hcallback fun w₁ f f' hw₁ hf => ?_
    have hzip := forall₂_zipIdx (MatchAll.mono hitems hw₁) 0
    refine L.bind (filterM hzip (testItem hcall hf id)) fun w₂ out _ hw₂ hout => ?_
    exact present (newList (List.rel_map (fun _ _ hi => L.mono hw₂ hi.2) hout))
  · refine L.bind hcallback fun w₁ f f' hw₁ hf => ?_
    refine seq (forM (forall₂_zipIdx (MatchAll.mono hitems hw₁) 0) fun w' hw' item item' hi => ?_)
      fun _ _ _ => answerPlain rfl
    exact L.bind (callItems hcall hf w' hw' item item' hi) fun _ _ _ _ _ => same ()
  · refine L.bind hcallback fun w₁ f f' hw₁ hf => ?_
    refine L.bind (findItem hcall hf true (MatchAll.mono hitems hw₁)) ?_
    rintro w₂ _ _ - (⟨-, hitem⟩ | _)
    · exact answer hitem
    · exact answerPlain rfl
  · refine L.bind hcallback fun w₁ f f' hw₁ hf => ?_
    refine L.bind (findItem hcall hf true (MatchAll.mono hitems hw₁)) ?_
    rintro w₂ _ _ - (⟨hsame, -⟩ | _)
    · rw [Option.map_some, Option.map_some, hsame]
      exact answerPlain rfl
    · exact answerPlain rfl
  iterate 2
    refine L.bind hcallback fun w₁ f f' hw₁ hf => ?_
    refine L.bind (findItem hcall hf _ (MatchAll.mono hitems hw₁)) fun w₂ o o' _ ho => ?_
    have hsome := isSome_eq_of_rel ho
    simp only [← Option.not_isSome, hsome]
    exact answerPlain rfl
  · refine L.bind hcallback fun w₁ f f' hw₁ hf => ?_
    exact present (reduced hcall hf (MatchAll.mono hargs hw₁) (MatchAll.mono hitems hw₁))
  · refine L.bind hcallback fun w₁ f f' hw₁ hf => ?_
    refine L.bind (mapItems hcall hf (MatchAll.mono hitems hw₁)) fun w₂ out _ _ hout => ?_
    exact present (newList (List.rel_flatMap hout fun _ _ hv => (L.resembles w₂).spread hv))
  · exact present (newString _)
  · exact answerPlain rfl
  · exact answerPlain (Method.isPlain_placeOrMinusOne _)
  · exact answerPlain (Method.isPlain_placeOrMinusOne _)
  · exact present (newList (List.forall₂_take _ (List.forall₂_drop _ hitems)))
  · exact present (newList (List.rel_append hitems
      (List.rel_flatMap hargs fun _ _ hv => hR.spread hv)))
  · exact present (newList (List.rel_reverse hitems))
  · exact present (L.bind (sorted hcall hfirst hitems) fun w₁ out _ _ hout => newList hout)
  · exact present (newList (hR.flatten _ hitems))
  · refine answer (hR.getD ?_)
    cases Method.relativePlace? (argument args 0) items.length with
    | none => exact .none
    | some i => exact rel_getElem? hitems i
  · rw [hitems.length_eq]
    exact present (L.ofCall (L.plainArray _ (.places _)))
  · exact present (newString _)
  · exact noMethod

end Items

/-! ## Other values -/

theorem ofFunction (hcall : L.Calls n call call') (hv : L.Match w v v')
    (hargs : L.MatchAll w args args') (name : String) :
    L.Holds A w n r (Method.ofFunction call v name args) (Method.ofFunction call' v' name args')
      L.MatchAnswer := by
  have hR := L.resembles w
  unfold Method.ofFunction
  rw [hR.text hv]
  split
  · refine present (hcall.apply hv ?_)
    cases hargs with
    | nil => exact .nil
    | cons _ hrest => exact hrest
  · exact present (hcall.apply hv (hR.looks (hR.argument hargs 1)).items)
  · exact answerPlain rfl
  · exact noMethod

/-- **A built-in method of values that belong together, with arguments that do, does the same on both
sides.** -/
theorem invoke (hcall : L.Calls n call call') (hv : L.Match w v v')
    (hargs : L.MatchAll w args args') (name : String) :
    L.Holds A w n r (Method.invoke call v name args) (Method.invoke call' v' name args')
      L.MatchAnswer := by
  have hR := L.resembles w
  have hlooks := hR.looks hv
  have hitems := hlooks.items
  cases hlooks with
  | plain hplain =>
    cases v with
    | string s => exact ofString hcall hargs s name
    | number x =>
      unfold Method.invoke
      dsimp only
      rw [hR.ofNumber hargs]
      exact answersPlain (Method.isPlain_ofNumber x name args)
    | date i => exact answersPlain (Method.isPlain_ofDate i name)
    | bool b => exact answersPlain (Method.isPlain_ofBool b name)
    | undefined | null => exact noMethod
    | array | object | closure | native => cases hplain
  | array => exact ofArray hcall hargs hitems hv name
  | object hmembers =>
    unfold Method.invoke
    dsimp only
    rw [hR.ofObject hmembers hargs]
    exact answersPlain (Method.isPlain_ofObject _ name args)
  | native | closure => exact ofFunction hcall hv hargs name

end MatchLogic
end Stencil.Script
