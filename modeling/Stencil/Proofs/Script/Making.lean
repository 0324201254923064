import Stencil.Proofs.Script.Charges

/-! # What operators, methods and built-in functions make

The strings and arrays that operators, literals and methods make anew are **paid** for: their bytes
have been charged, and their length is within the limit (`Value.IsPaid`).  This holds of binary
operators (`Eval.pays_binary`), of template literals and array literals, of the methods of arrays
that make one (`Eval.pays_ofArray`) and of the built-in functions, apart from those whose answers
nothing checks (`Eval.pays_runBuiltin`).

What a method of strings answers with need not be paid for; but if it is not, it is a **piece** of
the receiver (`Value.IsPieceOf`), and so no longer than that.  So are the items of the array that
`split` makes (`Eval.pays_ofString`).
-/
namespace Stencil.Script
open Value (argument)

/-! ## Pieces of texts -/

section Pieces
variable {s t : String} {cs : List Char}

theorem utf8ByteSize_le_of_isInfix (h : t.toList <:+: s.toList) :
    t.utf8ByteSize ≤ s.utf8ByteSize := by
  obtain ⟨before, after, happend⟩ := h
  have hs : s = String.ofList before ++ t ++ String.ofList after := by
    rw [← String.toList_inj, ← happend, String.toList_append, String.toList_append,
      String.toList_ofList, String.toList_ofList]
  rw [hs, String.utf8ByteSize_append, String.utf8ByteSize_append]
  omega

theorem isInfix_singleton {c : Char} (h : c ∈ cs) : [c] <:+: cs := by
  obtain ⟨before, after, rfl⟩ := List.append_of_mem h
  exact ⟨before, after, by simp⟩

theorem isInfix_trimBlanks (cs : List Char) : Number.trimBlanks cs <:+: cs := by
  have hback := List.dropWhile_suffix (Text.isBlank ·)
    (l := (cs.dropWhile Text.isBlank).reverse)
  have hprefix : Number.trimBlanks cs <+: cs.dropWhile Text.isBlank := by
    rw [← List.reverse_suffix, Number.trimBlanks, List.reverse_reverse]
    exact hback
  exact hprefix.isInfix.trans (List.dropWhile_suffix _).isInfix

theorem isInfix_take_drop (cs : List Char) (start length : Nat) :
    (cs.drop start).take length <:+: cs :=
  (List.take_prefix _ _).isInfix.trans (List.drop_suffix _ _).isInfix

/-- The pieces into which a separator cuts a text. -/
theorem isInfix_of_mem_splitOn {separator piece : List Char}
    (h : piece ∈ Text.splitOn separator cs) : piece <:+: cs := by
  have hgo : ∀ (fuel : Nat) (found : List (List Char)) (rest : List Char),
      (∀ p ∈ found, p <:+: cs) → rest <:+: cs →
      ∀ p ∈ Text.splitOn.go separator found rest fuel, p <:+: cs := by
    intro fuel
    induction fuel with
    | zero =>
      intro found rest hfound hrest p hp
      rcases List.mem_cons.mp (List.mem_reverse.mp hp) with rfl | hp
      · exact hrest
      · exact hfound p hp
    | succ fuel ih =>
      intro found rest hfound hrest
      unfold Text.splitOn.go
      split
      · rename_i before after hbreak
        have happend := Text.breakOn?_append hbreak
        have hbefore : before <:+: rest := ⟨[], separator ++ after, by simp [happend]⟩
        have hafter : after <:+: rest := ⟨before ++ separator, [], by simp [happend]⟩
        exact ih _ _ (List.forall_mem_cons.mpr ⟨hbefore.trans hrest, hfound⟩) (hafter.trans hrest)
      · intro p hp
        rcases List.mem_cons.mp (List.mem_reverse.mp hp) with rfl | hp
        · exact hrest
        · exact hfound p hp
  exact hgo _ _ _ (List.forall_mem_nil _) (List.infix_refl cs) piece h

end Pieces

/-! ## Values that are made -/

namespace Value
variable {limits : Limits} {s : String} {bytes : Nat} {v : Value}

/-- `bytes` are enough for a string, or for the slots of an array, which is within the limit on its
length. -/
def IsPaid (limits : Limits) (bytes : Nat) : Value → Prop
  | .string s => s.utf8ByteSize ≤ bytes ∧ s.utf8ByteSize ≤ limits.stringLength
  | .array _ items => items.size * Eval.slotBytes ≤ bytes ∧ items.size ≤ limits.arrayLength
  | _ => True

/-- A string that stands somewhere in another one. -/
def IsPieceOf (s : String) : Value → Prop
  | .string t => t.toList <:+: s.toList
  | _ => False

/-- A string that stands somewhere in another one, or `undefined` where there is none. -/
def IsCutFrom (s : String) (v : Value) : Prop :=
  v.IsPieceOf s ∨ v = .undefined

/-- What a method of a string `s` may make if `bytes` were charged: a string is paid for or a piece
of `s`, and an array is paid for and holds pieces of `s`. -/
def IsMadeOf (limits : Limits) (s : String) (bytes : Nat) (v : Value) : Prop :=
  match v with
  | .string _ => v.IsPaid limits bytes ∨ v.IsPieceOf s
  | .array _ items => v.IsPaid limits bytes ∧ ∀ w ∈ items, w.IsPieceOf s
  | _ => True

/-- Whether the value is neither a string nor an array. -/
def isAtom : Value → Bool
  | .string _ | .array .. => false
  | _ => true

theorem isPaid_of_isAtom (h : v.isAtom) : v.IsPaid limits bytes := by
  cases v <;> trivial

theorem isMadeOf_of_isAtom (h : v.isAtom) : v.IsMadeOf limits s bytes := by
  cases v <;> trivial

theorem isPieceOf_ofChars {cs : List Char} :
    (Method.ofChars cs).IsPieceOf s ↔ cs <:+: s.toList := by
  rw [Method.ofChars, IsPieceOf, String.toList_ofList]

theorem isCutFrom_ofChars {cs : List Char} (h : cs <:+: s.toList) :
    (Method.ofChars cs).IsCutFrom s :=
  .inl (isPieceOf_ofChars.mpr h)

theorem isCutFrom_ofChar? {c : Option Char} (h : ∀ x ∈ c, x ∈ s.toList) :
    (Method.ofChar? c).IsCutFrom s := by
  cases c with
  | none => exact .inr rfl
  | some c => exact isCutFrom_ofChars (isInfix_singleton (h c rfl))

/-- What is cut from a text is made of it, whatever was charged. -/
theorem IsCutFrom.isMadeOf (h : v.IsCutFrom s) : v.IsMadeOf limits s bytes := by
  rcases h with h | rfl
  · cases v with
    | string t => exact .inr h
    | _ => exact h.elim
  · trivial

theorem isAtom_placeOrMinusOne (place : Option Nat) : (Method.placeOrMinusOne place).isAtom := by
  cases place <;> rfl

/-- What `split` cuts a text into. -/
theorem isPieceOf_pieces {separator w : Value} (h : w ∈ Method.pieces s separator) :
    w.IsPieceOf s := by
  unfold Method.pieces at h
  split at h
  · rw [List.mem_singleton.mp h]
    exact List.infix_refl _
  · split at h <;> obtain ⟨x, hx, rfl⟩ := List.mem_map.mp h
    · exact isPieceOf_ofChars.mpr (isInfix_singleton hx)
    · exact isPieceOf_ofChars.mpr (isInfix_of_mem_splitOn hx)

/-- The value is the string, or an array with it as an item. -/
def HasText (t : String) : Value → Prop
  | .string s => s = t
  | .array _ items => .string t ∈ items
  | _ => False

/-- Strings that are made of one within the limit are within it. -/
theorem IsMadeOf.stringLength (hs : s.utf8ByteSize ≤ limits.stringLength)
    (h : v.IsMadeOf limits s bytes) {t : String} (ht : v.HasText t) :
    t.utf8ByteSize ≤ limits.stringLength := by
  have hpiece : (Value.string t).IsPieceOf s → t.utf8ByteSize ≤ limits.stringLength :=
    fun h => Nat.le_trans (utf8ByteSize_le_of_isInfix h) hs
  cases v with
  | string t' =>
    obtain rfl := ht
    exact h.elim And.right hpiece
  | array id items => exact hpiece (h.2 _ ht)
  | _ => exact ht.elim

end Value

namespace Method

/-- The methods of strings that answer with a piece of their receiver. -/
def cutters : List String :=
  ["trim", "trimStart", "trimEnd", "toString", "valueOf", "charAt", "at", "slice", "substring"]

/-- A method that cuts a piece out of a string does nothing but answer. -/
theorem exists_cut (s : String) {key : String} (hkey : key ∈ cutters) (args : List Value) :
    ∃ v : Value, v.IsCutFrom s ∧ ∀ call, ofString call s key args = pure (some v) := by
  simp only [cutters, List.mem_cons, List.not_mem_nil, or_false] at hkey
  rcases hkey with rfl | rfl | rfl | rfl | rfl | rfl | rfl | rfl | rfl
  · exact ⟨_, Value.isCutFrom_ofChars (isInfix_trimBlanks _), fun _ => rfl⟩
  · exact ⟨_, Value.isCutFrom_ofChars (List.dropWhile_suffix _).isInfix, fun _ => rfl⟩
  · refine ⟨_, Value.isCutFrom_ofChars (List.reverse_suffix.mp ?_).isInfix, fun _ => rfl⟩
    rw [List.reverse_reverse]
    exact List.dropWhile_suffix _
  iterate 2 exact ⟨.string s, .inl (List.infix_refl _), fun _ => rfl⟩
  · refine ⟨_, Value.isCutFrom_ofChars ?_, fun _ => rfl⟩
    cases hi : s.toList[Number.toCount (argument args 0).toNumber]? with
    | none => exact ⟨[], s.toList, rfl⟩
    | some x => exact isInfix_singleton (List.mem_of_getElem? hi)
  · refine ⟨_, Value.isCutFrom_ofChar? fun x hx => ?_, fun _ => rfl⟩
    obtain ⟨i, -, hi⟩ := Option.bind_eq_some_iff.mp hx
    exact List.mem_of_getElem? hi
  iterate 2 exact ⟨_, Value.isCutFrom_ofChars (isInfix_take_drop _ _ _), fun _ => rfl⟩

/-- The methods of arrays that make a new array or a string, apart from `keys`. -/
def makers : List String :=
  ["map", "filter", "flatMap", "slice", "concat", "reverse", "sort", "flat", "join", "toString"]

end Method

/-- The built-in functions whose answers no limit checks. -/
def Builtin.unchecked : List Builtin :=
  [.parseJson, .error, .encodeUriComponent, .decodeUriComponent, .capitalize, .titleCase,
    .truncate, .slugify, .words]

namespace Eval
variable {c : Context} {α : Type}

/-- A new string is paid for. -/
theorem pays_newString (s : String) : Pays c (newString s) fun v bytes => v.IsPaid c.limits bytes :=
  (Pays.newString s).weaken fun _ _ ⟨hv, hpaid⟩ => hv ▸ hpaid

/-- A new array is paid for. -/
theorem pays_newList (items : List Value) :
    Pays c (newList items) fun v bytes => v.IsPaid c.limits bytes :=
  (Pays.newArray items.toArray).weaken fun _ _ ⟨_, hv, hpaid⟩ => hv ▸ hpaid

/-- An object is no string and no array. -/
theorem pays_newObject (members : List (String × Value)) :
    Pays c (newObject members) fun v bytes => v.IsPaid c.limits bytes := by
  unfold newObject
  refine Pays.after (Charging.charge _) fun _ _ => ?_
  refine Pays.after (Charging.counter fun _ => rfl) fun limits _ => ?_
  refine Pays.after (Charging.ofExcept fun _ _ => trivial) fun _ _ => ?_
  exact Pays.after (Charging.counter fun _ => rfl) fun _ _ => Pays.result _ trivial

/-! ## Operators and literals -/

/-- **What a binary operator makes is paid for.** -/
theorem pays_binary (op : BinaryOp) (v w : Value) :
    Pays c (binary op v w) fun v bytes => v.IsPaid c.limits bytes := by
  cases op with
  | add =>
    unfold binary add
    dsimp only
    split
    · exact pays_newString _
    · exact Pays.result _ trivial
  | mem =>
    exact Pays.after (Charging.ofExcept fun _ _ => trivial) fun _ _ => Pays.result _ trivial
  | _ => exact Pays.result _ trivial

/-- A padded text is the text itself or a new one. -/
theorem pays_padded (s : String) (args : List Value) (atStart : Bool) :
    Pays c (Method.padded s args atStart) fun v bytes => v.IsMadeOf c.limits s bytes := by
  unfold Method.padded
  refine Pays.bind Pays.limits fun _ bytes hlimits => ?_
  rw [hlimits.2]
  refine Pays.guard fun _ => ?_
  dsimp only
  split
  · exact Pays.result _ (.inr (List.infix_refl _))
  · refine (Pays.newString _).weaken fun v bytes hv => ?_
    rw [Nat.zero_add, hv.1]
    exact .inl hv.2

section Calls
variable {n : Nat} {call : Call} (hcall : (StepLogic.charging c).Calls n call)
include hcall

/-- A template literal is paid for. -/
theorem pays_template (parts : List TemplatePart) :
    Pays c (expr call (.template parts)) fun v bytes => v.IsPaid c.limits bytes := by
  unfold expr
  have hparts : Charging c (template call "" parts) fun _ => True :=
    .ofPairs (MatchLogic.template (StepLogic.matching_calls.mpr hcall) () "" parts
      (TemplatePart.allLike_self parts (fun _ _ => trivial) fun d _ =>
        d.writesAmong_of_forall fun _ => trivial))
  exact Pays.after hparts fun _ _ => pays_newString _

/-- An array literal is paid for. -/
theorem pays_array (items : List Expr) :
    Pays c (expr call (.array items)) fun v bytes => v.IsPaid c.limits bytes := by
  unfold expr
  exact Pays.after (StepLogic.exprs hcall items fun _ _ => trivial) fun _ _ => pays_newList _

/-! ## Methods of strings -/

/-- **What a method of a string answers with is paid for, or a piece of the string.** -/
theorem pays_ofString (s name : String) (args : List Value) :
    Pays c (Method.ofString call s name args) fun answer bytes =>
      ∀ v ∈ answer, v.IsMadeOf c.limits s bytes := by
  have hnew : ∀ t, Pays c (some <$> newString t) fun answer bytes =>
      ∀ v ∈ answer, v.IsMadeOf c.limits s bytes := fun t =>
    (Pays.newString t).map fun v bytes hv w hw => by
      rw [← Option.some.inj hw, hv.1]
      exact .inl hv.2
  have hfree : ∀ v : Value, (∀ bytes, v.IsMadeOf c.limits s bytes) →
      Pays c (pure (some v)) fun answer bytes => ∀ v ∈ answer, v.IsMadeOf c.limits s bytes :=
    fun v hv => Pays.result _ fun w hw => Option.some.inj hw ▸ hv 0
  have hatom : ∀ v : Value, v.isAtom → ∀ bytes, v.IsMadeOf c.limits s bytes :=
    fun v hv bytes => Value.isMadeOf_of_isAtom hv
  have hreplaced : ∀ search (v : Value) all,
      Charging c (Method.replaced call s search v all) fun _ => True := fun search v all =>
    .ofPairs (r := .call) (MatchLogic.replaced (StepLogic.matching_calls.mpr hcall)
      (Charging.matches c v) s search all)
  by_cases hcut : name ∈ Method.cutters
  · obtain ⟨v, hv, hanswer⟩ := Method.exists_cut s hcut args
    rw [hanswer]
    exact hfree v fun bytes => hv.isMadeOf
  unfold Method.ofString
  split
  -- The methods stand in the order of the definition: first those that change letters and blanks.
  iterate 4 exact hnew _
  iterate 5 exact absurd (by decide) hcut
  iterate 3 exact hfree _ (hatom _ rfl)
  iterate 2 exact hfree _ (hatom _ (Value.isAtom_placeOrMinusOne _))
  iterate 4 exact absurd (by decide) hcut
  · refine (Pays.newArray _).map fun v bytes ⟨id, hv, hpaid⟩ w hw => ?_
    rw [← Option.some.inj hw, hv]
    refine ⟨hpaid, fun u hu => ?_⟩
    have hmem : u ∈ Method.pieces s (argument args 0) := by
      have hu := List.mem_toArray.mp hu
      split at hu
      · exact hu
      · exact List.mem_of_mem_take hu
    exact Value.isPieceOf_pieces hmem
  iterate 2 exact Pays.after (hreplaced _ _ _) fun out _ => hnew out
  · refine Pays.guard fun _ => Pays.after (Charging.counter fun _ => rfl) fun _ _ => ?_
    exact Pays.guard fun _ => hnew _
  iterate 2
    exact (pays_padded s args _).map fun v bytes hv w hw => Option.some.inj hw ▸ hv
  · exact hnew _
  · exact hfree _ (hatom _ rfl)
  · refine hfree _ (hatom _ ?_)
    cases Method.codeUnit? s.toList (Number.toCount (argument args 0).toNumber) <;> rfl
  · exact Pays.result _ fun w hw => nomatch hw

/-! ## Methods of arrays -/

/-- **What the methods of arrays make is paid for.** -/
theorem pays_ofArray (self : Value) (items : List Value) {name : String}
    (hname : name ∈ Method.makers) (args : List Value) :
    Pays c (Method.ofArray call self items name args) fun answer bytes =>
      ∀ v ∈ answer, v.IsPaid c.limits bytes := by
  have hcalls := StepLogic.matching_calls.mpr hcall
  have hitems := Charging.matchAll c items
  have hcallback : Charging c (Method.callback args) fun _ => True :=
    .ofPairs (n := n) (r := .call) (MatchLogic.callback (Charging.matchAll c args))
  have hmapped : ∀ f : Value,
      Charging c (items.zipIdx.mapM (Method.callItem call f)) fun _ => True :=
    fun f => .ofPairs (r := .call) (MatchLogic.mapItems hcalls (Charging.matches c f) hitems)
  have hkept : ∀ f : Value, Charging c (items.zipIdx.filterM fun item => do
      return (← Method.callItem call f item).truthy) fun _ => True := fun f => by
    have htest := MatchLogic.testItem (A := ()) (r := .call) hcalls (Charging.matches c f) id
    exact .ofPairs (MatchLogic.filterM (forall₂_zipIdx hitems 0) htest)
  have hsorted : ∀ f : Value, Charging c (Method.sorted call f items) fun _ => True :=
    fun f => .ofPairs (r := .call) (MatchLogic.sorted hcalls (Charging.matches c f) hitems)
  have hsome : ∀ {x : Eval Value}, Pays c x (fun v bytes => v.IsPaid c.limits bytes) →
      Pays c (some <$> x) fun answer bytes => ∀ v ∈ answer, v.IsPaid c.limits bytes :=
    fun hx => hx.map fun v bytes hv w hw => Option.some.inj hw ▸ hv
  unfold Method.ofArray
  split
  -- `map` and `filter`
  · refine Pays.after hcallback fun f _ => ?_
    exact Pays.after (hmapped f) fun out _ => hsome (pays_newList out)
  · refine Pays.after hcallback fun f _ => ?_
    exact Pays.after (hkept f) fun out _ => hsome (pays_newList _)
  iterate 6 exact absurd hname (by decide)
  -- `flatMap` and `join`
  · refine Pays.after hcallback fun f _ => ?_
    exact Pays.after (hmapped f) fun out _ => hsome (pays_newList _)
  · exact hsome (pays_newString _)
  iterate 3 exact absurd hname (by decide)
  -- `slice`, `concat`, `reverse`, `sort` and `flat`
  iterate 3 exact hsome (pays_newList _)
  · exact hsome (Pays.after (hsorted _) fun out _ => pays_newList out)
  · exact hsome (pays_newList _)
  iterate 2 exact absurd hname (by decide)
  · exact hsome (pays_newString _)
  · exact Pays.result _ fun w hw => nomatch hw

/-! ## Built-in functions -/

/-- **What built-in functions make is paid for**, apart from those of whose answers nothing is
checked. -/
theorem pays_runBuiltin {b : Builtin} (hb : b ∉ Builtin.fetch :: Builtin.unchecked)
    (args : List Value) :
    Pays c (Native.runBuiltin call b args) fun v bytes => v.IsPaid c.limits bytes := by
  have hcalls := StepLogic.matching_calls.mpr hcall
  unfold Native.runBuiltin
  cases b with
  | random =>
    exact Pays.after ((StepLogic.charging c).random (n := n)) fun _ _ => Pays.result _ trivial
  | now => exact Pays.after (Charging.counter fun _ => rfl) fun _ _ => Pays.result _ trivial
  | stringify =>
    unfold Native.stringify
    dsimp only
    split
    · exact Pays.result _ trivial
    · exact Pays.after (Charging.ofExcept fun _ _ => trivial) fun _ _ => pays_newString _
  | string => exact pays_newString _
  | arrayFrom =>
    unfold Native.arrayFrom
    have hsource : Charging c (Native.sourceItems (argument args 0)) fun _ => True :=
      .ofPairs (n := n) (r := .call) (MatchLogic.sourceItems (Charging.matches c _))
    refine Pays.after hsource fun items _ => ?_
    have hmapped : Charging c (items.zipIdx.mapM (Method.callItem call (argument args 1)))
        fun _ => True :=
      .ofPairs (r := .call) (MatchLogic.mapItems hcalls (Charging.matches c _)
        (Charging.matchAll c items))
    dsimp only
    split
    · exact Pays.after hmapped fun out _ => pays_newList out
    · exact pays_newList items
  | arrayOf | keys | values => exact pays_newList _
  | entries =>
    have hpairs : Charging c ((Native.membersOf (argument args 0)).mapM fun p =>
        plainArray #[.string p.1, p.2]) fun out => ∀ v ∈ out, True :=
      StepLogic.mapM (L := StepLogic.charging c) (n := n) (r := .call) fun _ _ =>
        Charging.counter fun _ => rfl
    exact Pays.after hpairs fun out _ => pays_newList out
  | fromEntries =>
    exact Pays.after (Charging.ofExcept fun _ _ => trivial) fun _ _ => pays_newObject _
  | assign => exact pays_newObject _
  | require =>
    dsimp only
    split
    · rename_i v hv
      have hmodules : ∀ p ∈ Globals.modules, p.2.isAtom := by decide
      exact Pays.result _ (Value.isPaid_of_isAtom (hmodules _ (mem_of_lookup hv)))
    · exact Pays.fail _
  | parseJson | error | encodeUriComponent | decodeUriComponent | capitalize | titleCase | truncate
  | slugify | words | fetch => exact absurd (by decide) hb
  | _ => exact Pays.result _ trivial

end Calls

/-- **A method that changes an array in place pays for a slot for each of its arguments.** -/
theorem pays_changeInPlace (op : Method.InPlace) (args : List Value) {target : Eval Target}
    (htarget : Charging c target fun _ => True) :
    Pays c (changeInPlace op args target) fun _ bytes => args.length * slotBytes ≤ bytes := by
  unfold changeInPlace
  refine Pays.bind (Pays.charge _) fun _ bytes hbytes => ?_
  refine Pays.after (Charging.counter fun _ => rfl) fun limits _ => Pays.after htarget fun t _ => ?_
  refine Pays.after (Charging.counter fun _ => rfl) fun id _ => ?_
  refine (Pays.unpaid (Charging.counter fun m => allocated_onPlace c m t _)).weaken ?_
  intro _ more _
  omega

end Eval

end Stencil.Script
