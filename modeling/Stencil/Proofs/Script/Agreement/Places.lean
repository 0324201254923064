import Stencil.Proofs.Script.Agreement
import Stencil.Proofs.Script.Slots

/-! # Places that agree

Blocks agree if they bind the same names to values that agree, in whatever order (`Frame.Agrees`).
What is done on both sides to a place then has answers that **correspond** (`Corresponds`) and leaves
places that agree.  Answers correspond if they agree or are the same error; but since what functions
took with them may be nested to other depths, either side may also fail because a value is nested too
deep.
-/
namespace Stencil.Script

/-! ## Answers that correspond -/

namespace Value
variable {limit level highest : Nat} {seen : Heights} {e : ScriptError}

theorem eq_tooDeep_of_known {id : Identity} (h : known limit level seen id = some (.error e)) :
    e = tooDeep limit := by
  unfold known at h
  split at h
  · exact (Except.error.inj (Option.some.inj h)).symm
  · obtain ⟨n, -, hn⟩ := Option.map_eq_some_iff.mp h
    split at hn
    · exact (Except.error.inj hn).symm
    · cases hn

mutual

/-- Heights are not measured only where a value is nested too deep. -/
theorem eq_tooDeep_of_measure {level : Nat} {seen : Heights} :
    ∀ v : Value, measure limit level seen v = .error e → e = tooDeep limit
  | .array id ⟨items⟩, h => by
    unfold measure at h
    split at h
    · rename_i hknown
      exact eq_tooDeep_of_known (hknown.trans (congrArg some h))
    · cases hitems : measureItems limit (level + 1) 0 seen items with
      | ok r =>
        rw [hitems] at h
        cases h
      | error e' =>
        rw [hitems] at h
        exact eq_tooDeep_of_measureItems items (hitems.trans h)
  | .object id members, h => by
    unfold measure at h
    split at h
    · rename_i hknown
      exact eq_tooDeep_of_known (hknown.trans (congrArg some h))
    · cases hmembers : measureMembers limit (level + 1) 0 seen members with
      | ok r =>
        rw [hmembers] at h
        cases h
      | error e' =>
        rw [hmembers] at h
        exact eq_tooDeep_of_measureMembers members (hmembers.trans h)
  | .closure id _ captured _, h => by
    unfold measure at h
    split at h
    · rename_i hknown
      exact eq_tooDeep_of_known (hknown.trans (congrArg some h))
    · cases hcaptured : measureMembers limit (level + 1) 0 seen captured with
      | ok r =>
        rw [hcaptured] at h
        cases h
      | error e' =>
        rw [hcaptured] at h
        exact eq_tooDeep_of_measureMembers captured (hcaptured.trans h)
  | .undefined, h | .null, h | .bool _, h | .number _, h | .string _, h | .date _, h
  | .native _, h => nomatch h

theorem eq_tooDeep_of_measureItems {level highest : Nat} {seen : Heights} :
    ∀ items : List Value, measureItems limit level highest seen items = .error e →
      e = tooDeep limit
  | [], h => nomatch h
  | v :: rest, h => by
    unfold measureItems at h
    split at h
    · exact eq_tooDeep_of_measureItems rest h
    · rename_i e' hv
      exact eq_tooDeep_of_measure v (hv.trans h)

theorem eq_tooDeep_of_measureMembers {level highest : Nat} {seen : Heights} :
    ∀ members : List (String × Value), measureMembers limit level highest seen members = .error e →
      e = tooDeep limit
  | [], h => nomatch h
  | (key, v) :: rest, h => by
    unfold measureMembers at h
    split at h
    · exact eq_tooDeep_of_measureMembers rest h
    · rename_i e' hv
      exact eq_tooDeep_of_measure v (hv.trans h)

end

/-- Values do not pass the check only if one is nested too deep. -/
theorem checkHeights_eq (limit level : Nat) (vs : List Value) :
    checkHeights limit level vs = .ok () ∨
      checkHeights limit level vs = .error (tooDeep limit) := by
  unfold checkHeights
  cases h : measureItems limit level 0 ∅ vs with
  | ok r => exact .inl rfl
  | error e => exact .inr (congrArg Except.error (eq_tooDeep_of_measureItems vs h))

end Value

/-- Answers that are related, or the same error, which is not that a bound name is not bound; or a
value is nested too deep on one of the sides. -/
inductive Corresponds (limit : Nat) (bound : String → Prop) {α : Type} (Q : α → α → Prop) :
    Except ScriptError α → Except ScriptError α → Prop
  | ok {a a' : α} (h : Q a a') : Corresponds limit bound Q (.ok a) (.ok a')
  | error (e : ScriptError) (h : ∀ x, bound x → e ≠ .unbound x) :
    Corresponds limit bound Q (.error e) (.error e)
  | deep (r : Except ScriptError α) : Corresponds limit bound Q (.error (Value.tooDeep limit)) r
  | deep' (r : Except ScriptError α) : Corresponds limit bound Q r (.error (Value.tooDeep limit))

namespace Corresponds
variable {limit : Nat} {bound : String → Prop} {α : Type} {P Q : α → α → Prop}
  {r r' : Except ScriptError α}

theorem imp (h : Corresponds limit bound P r r') (hPQ : ∀ a a', P a a' → Q a a') :
    Corresponds limit bound Q r r' := by
  cases h with
  | ok h => exact .ok (hPQ _ _ h)
  | error e h => exact .error e h
  | deep => exact .deep _
  | deep' => exact .deep' _

theorem ofError {e : ScriptError} (h : e.isUnbound = false) :
    Corresponds limit bound Q (.error e) (.error e) :=
  .error e fun x _ he => by
    rw [he] at h
    cases h

/-- Answers are compared by whether they correspond. -/
def comparison (limit : Nat) (bound : String → Prop) : Comparison where
  Holds := Corresponds limit bound
  ok := .ok
  fail := ofError
  imp := imp

end Corresponds

/-- Containers agree if their identities are joined and their contents agree. -/
theorem Encloses.agrees {bound : String → Prop} {I : Identity → Identity → Prop} {id id' : Identity}
    (h : I id id') : Encloses (Value.Agrees bound I) id id' where
  array := .ofItems h
  object := .ofMembers h

/-! ## Blocks -/

/-- Both bindings may be assigned, or neither, and their values agree. -/
def Binding.Agrees (bound : String → Prop) (I : Identity → Identity → Prop) (b b' : Binding) :
    Prop :=
  b'.constant = b.constant ∧ b.value.Agrees bound I b'.value

/-- The blocks bind the same names, to values that agree. -/
def Frame.Agrees (bound : String → Prop) (I : Identity → Identity → Prop) (frame frame' : Frame) :
    Prop :=
  ∀ x, Option.Rel (Binding.Agrees bound I) (frame.lookup x) (frame'.lookup x)

/-- The second block binds whatever the first one does. -/
def Frame.Grows (frame frame' : Frame) : Prop :=
  ∀ x, (frame.lookup x).isSome → (frame'.lookup x).isSome

section Frames
variable {limit : Nat} {bound : String → Prop} {I J : Identity → Identity → Prop} {α : Type}
  {Q : α → α → Prop} {step step' : SlotStep α} {frame frame' : Frame} {frames frames' : List Frame}

theorem rel_imp {β γ : Type} {P R : β → γ → Prop} (hPR : ∀ b c, P b c → R b c) {o : Option β}
    {o' : Option γ} (h : Option.Rel P o o') : Option.Rel R o o' := by
  cases h with
  | none => exact .none
  | some h => exact .some (hPR _ _ h)

theorem Frame.Agrees.mono (hIJ : ∀ a a', I a a' → J a a') (h : frame.Agrees bound I frame') :
    frame.Agrees bound J frame' :=
  fun x => rel_imp (fun _ _ hb => ⟨hb.1, hb.2.mono hIJ⟩) (h x)

theorem Frame.Agrees.insertMember (h : frame.Agrees bound I frame') (name : String)
    {b b' : Binding} (hb : b.Agrees bound I b') :
    Frame.Agrees bound I (Json.insertMember name b frame) (Json.insertMember name b' frame') := by
  intro x
  rw [lookup_insertMember, lookup_insertMember]
  split
  · exact .some hb
  · exact h x

theorem Frame.grows_insertMember (name : String) (b : Binding) (frame : Frame) :
    Frame.Grows frame (Json.insertMember name b frame) := by
  intro x hx
  rw [lookup_insertMember]
  split
  · rfl
  · exact hx

theorem Frame.grows_onInnermost (name : String) (b : Binding) (frames : List Frame) :
    List.Forall₂ Frame.Grows frames (Eval.onInnermost (Json.insertMember name b) frames) := by
  cases frames with
  | nil => exact .nil
  | cons frame outer =>
    exact .cons (grows_insertMember name b frame) (List.forall₂_same.mpr fun _ _ _ => id)

theorem findBinding?_cons (x : String) (frame : Frame) (outer : List Frame) :
    findBinding? x (frame :: outer) = (frame.lookup x).or (findBinding? x outer) := by
  unfold findBinding?
  rw [List.findSome?_cons]
  cases frame.lookup x <;> rfl

theorem findBinding?_agrees (h : List.Forall₂ (Frame.Agrees bound I) frames frames') (x : String) :
    Option.Rel (Binding.Agrees bound I) (findBinding? x frames) (findBinding? x frames') := by
  induction h with
  | nil => exact .none
  | @cons frame frame' outer outer' hframe _ ih =>
    have hx := hframe x
    rw [findBinding?_cons, findBinding?_cons]
    generalize frame.lookup x = o at hx
    generalize frame'.lookup x = o' at hx
    cases hx with
    | none => exact ih
    | some hb => exact .some hb

theorem isSome_findBinding?_of_grows (h : List.Forall₂ Frame.Grows frames frames') {x : String}
    (hx : (findBinding? x frames).isSome) : (findBinding? x frames').isSome := by
  induction h with
  | nil => exact hx
  | @cons frame frame' outer outer' hframe _ ih =>
    rw [findBinding?_cons, Option.isSome_or, Bool.or_eq_true] at hx ⊢
    exact hx.imp (hframe x) ih

/-- Within a block that binds the name the step acts on its value, and on nothing else. -/
theorem lookup_inFrame (name : String) (step : SlotStep α) (frame : Frame) :
    (frame.lookup name = none → onBinding.inFrame name step frame = (none, frame)) ∧
      ∀ b, frame.lookup name = some b →
        (onBinding.inFrame name step frame).1 = some (step b.value).1 ∧
          ∀ x, (onBinding.inFrame name step frame).2.lookup x =
            if x = name then some { b with value := (step b.value).2 } else frame.lookup x := by
  induction frame with
  | nil => exact ⟨fun _ => rfl, fun b hb => (Option.some_ne_none b hb.symm).elim⟩
  | cons p rest ih =>
    obtain ⟨key, b₀⟩ := p
    rw [lookup_cons_ite]
    unfold onBinding.inFrame
    by_cases hkey : key = name
    · subst hkey
      rw [if_pos rfl, if_pos rfl]
      refine ⟨fun hnone => (Option.some_ne_none _ hnone).elim, fun b hb => ?_⟩
      obtain rfl := Option.some.inj hb
      refine ⟨rfl, fun x => ?_⟩
      rw [lookup_cons_ite, lookup_cons_ite]
      split <;> rfl
    · rw [if_neg hkey, if_neg (Ne.symm hkey)]
      obtain ⟨hnone, hsome⟩ := ih
      refine ⟨fun hrest => by rw [hnone hrest], fun b hb => ?_⟩
      obtain ⟨hr, hlookup⟩ := hsome b hb
      refine ⟨hr, fun x => ?_⟩
      rw [lookup_cons_ite, lookup_cons_ite, hlookup]
      by_cases hx : x = key
      · rw [if_pos hx, if_pos hx, if_neg (fun h => hkey (hx.symm.trans h))]
      · rw [if_neg hx, if_neg hx]

/-- A step on a name acts on both sides, if the name is bound. -/
theorem onBinding_agree
    (h : SlotStep.Alike (Corresponds.comparison limit bound) (Value.Agrees bound I) Q step step')
    (name : String) (hframes : List.Forall₂ (Frame.Agrees bound I) frames frames')
    (hname : (findBinding? name frames).isSome) :
    ∃ r r', (onBinding name step frames).1 = some r ∧ (onBinding name step' frames').1 = some r' ∧
      Corresponds limit bound
        (fun a a' => Q a a' ∧ List.Forall₂ (Frame.Agrees bound I) (onBinding name step frames).2
          (onBinding name step' frames').2) r r' := by
  induction hframes with
  | nil => cases hname
  | @cons frame frame' outer outer' hframe houter ih =>
    obtain ⟨hnone, hsome⟩ := lookup_inFrame name step frame
    obtain ⟨hnone', hsome'⟩ := lookup_inFrame name step' frame'
    have hx := hframe name
    unfold findBinding? at ih hname
    rw [List.findSome?_cons] at hname
    unfold onBinding
    rcases hlookup : frame.lookup name with _ | b <;> rcases hlookup' : frame'.lookup name with _ | b' <;>
      rw [hlookup, hlookup'] at hx <;> cases hx
    · rw [hlookup] at hname
      obtain ⟨r, r', hr, hr', hcorresponds⟩ := ih hname
      rw [hnone hlookup, hnone' hlookup']
      exact ⟨r, r', hr, hr', hcorresponds.imp fun _ _ ha => ⟨ha.1, .cons hframe ha.2⟩⟩
    · rename_i hb
      obtain ⟨hr, hframes⟩ := hsome b hlookup
      obtain ⟨hr', hframes'⟩ := hsome' b' hlookup'
      rcases hrun : onBinding.inFrame name step frame with ⟨o, inner⟩
      rcases hrun' : onBinding.inFrame name step' frame' with ⟨o', inner'⟩
      rw [hrun] at hr hframes
      rw [hrun'] at hr' hframes'
      obtain rfl : o = _ := hr
      obtain rfl : o' = _ := hr'
      refine ⟨_, _, rfl, rfl, Corresponds.imp (h _ _ hb.2) fun _ _ ha => ⟨ha.1, .cons ?_ houter⟩⟩
      intro x
      rw [hframes, hframes']
      split
      · exact .some ⟨hb.1, ha.2⟩
      · exact hframe x

/-- A step on a name binds no names and leaves none out. -/
theorem grows_onBinding (name : String) (step : SlotStep α) (frames : List Frame) :
    List.Forall₂ Frame.Grows frames (onBinding name step frames).2 := by
  have hrefl : ∀ frame, Frame.Grows frame frame := fun _ _ => id
  induction frames with
  | nil => exact .nil
  | cons frame outer ih =>
    obtain ⟨hnone, hsome⟩ := lookup_inFrame name step frame
    unfold onBinding
    cases hlookup : frame.lookup name with
    | none =>
      rw [hnone hlookup]
      exact .cons (hrefl frame) ih
    | some b =>
      obtain ⟨hr, hframes⟩ := hsome b hlookup
      rcases hrun : onBinding.inFrame name step frame with ⟨o, inner⟩
      rw [hrun] at hr hframes
      obtain rfl : o = _ := hr
      refine .cons (fun x hx => ?_) (List.forall₂_same.mpr fun frame _ => hrefl frame)
      rw [hframes]
      split
      · rfl
      · exact hx

end Frames

end Stencil.Script
