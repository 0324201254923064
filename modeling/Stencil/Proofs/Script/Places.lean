import Stencil.Proofs.Script.Content

/-! # Updates of places

A step on the value in a slot **keeps** given sets of functions if it leaves a value within them in
a slot that held one, and answers as wanted (`SlotStep.Keeps`).  The step on a member, on an item,
on the end of a path and on a name then keep them too, and the blocks that are searched for the name
stay as many as they were.
-/
namespace Stencil.Script
variable {α : Type} {D : FunctionDef → Prop} {N : Native → Prop} {Q : α → Prop}
  {step : SlotStep α}

/-- A slot within the sets stays within them, and the answer of the step, if it has one,
satisfies `Q`. -/
def SlotStep.Keeps (D : FunctionDef → Prop) (N : Native → Prop) (step : SlotStep α)
    (Q : α → Prop) : Prop :=
  ∀ v, v.Within D N → (step v).2.Within D N ∧ ∀ a, (step v).1 = .ok a → Q a

/-- A step acts on one of the contents of a container, or on one that is missing: besides what it
leaves there, the container holds what it held before, and perhaps more that is missing. -/
def SlotStep.ActsOn (step : SlotStep α) (content content' : List Value)
    (r : Except ScriptError α) : Prop :=
  ∃ u, (u ∈ content ∨ u = .undefined) ∧ r = (step u).1 ∧
    ∀ x ∈ content', x ∈ content ∨ x = .undefined ∨ x = (step u).2

theorem onMember_actsOn (step : SlotStep α) (key : String) (members : List (String × Value)) :
    step.ActsOn (members.map (·.2)) ((onMember key step members).2.map (·.2))
      (onMember key step members).1 := by
  induction members with
  | nil => exact ⟨.undefined, .inr rfl, rfl, by simp [onMember]⟩
  | cons p rest ih =>
    unfold onMember
    split
    · refine ⟨p.2, .inl List.mem_cons_self, rfl, List.forall_mem_cons.mpr ⟨.inr (.inr rfl), ?_⟩⟩
      exact fun x hx => .inl (List.mem_cons_of_mem _ hx)
    · obtain ⟨u, hu, hr, hrest⟩ := ih
      refine ⟨u, hu.imp (List.mem_cons_of_mem _) id, hr, ?_⟩
      refine List.forall_mem_cons.mpr ⟨.inl List.mem_cons_self, fun x hx => ?_⟩
      exact (hrest x hx).imp (List.mem_cons_of_mem _) id

theorem onItem_actsOn (step : SlotStep α) (i : Nat) (items : Array Value) :
    step.ActsOn items.toList (onItem i step items).2.toList (onItem i step items).1 := by
  have hfilled : ∀ v ∈ items ++ Array.replicate (i + 1 - items.size) .undefined,
      v ∈ items ∨ v = .undefined := fun v hv =>
    (Array.mem_append.mp hv).imp id fun h => (Array.mem_replicate.mp h).2
  unfold onItem
  dsimp only
  split
  · rename_i hi
    refine ⟨_, (hfilled _ (Array.getElem_mem hi)).imp Array.mem_toList_iff.mpr id, rfl,
      fun x hx => ?_⟩
    rcases Array.mem_or_eq_of_mem_setIfInBounds (Array.mem_toList_iff.mp hx) with hx | rfl
    · rcases Array.mem_or_eq_of_mem_set hx with hx | rfl
      · exact (hfilled x hx).imp Array.mem_toList_iff.mpr .inl
      · exact .inr (.inl rfl)
    · exact .inr (.inr rfl)
  · rename_i hi
    simp only [Array.size_append, Array.size_replicate] at hi
    omega

theorem SlotStep.ActsOn.within {content content' : List Value} {r : Except ScriptError α}
    (h : step.ActsOn content content' r) (hstep : step.Keeps D N Q)
    (hcontent : ∀ v ∈ content, v.Within D N) :
    (∀ v ∈ content', v.Within D N) ∧ ∀ a, r = .ok a → Q a := by
  obtain ⟨u, hu, hr, hcontent'⟩ := h
  have hu' : u.Within D N := by
    rcases hu with hu | rfl
    · exact hcontent u hu
    · exact Value.within_undefined
  obtain ⟨hv, ha⟩ := hstep u hu'
  refine ⟨fun x hx => ?_, fun a h => ha a (hr ▸ h)⟩
  rcases hcontent' x hx with hx | rfl | rfl
  · exact hcontent x hx
  · exact Value.within_undefined
  · exact hv

theorem onMember_within (hstep : step.Keeps D N Q) (key : String) {members : List (String × Value)}
    (h : ∀ p ∈ members, p.2.Within D N) :
    (∀ p ∈ (onMember key step members).2, p.2.Within D N) ∧
      ∀ a, (onMember key step members).1 = .ok a → Q a := by
  rw [← List.forall_mem_map] at h ⊢
  exact (onMember_actsOn step key members).within hstep h

theorem onItem_within (hstep : step.Keeps D N Q) (i : Nat) {items : Array Value}
    (h : ∀ v ∈ items, v.Within D N) :
    (∀ v ∈ (onItem i step items).2, v.Within D N) ∧
      ∀ a, (onItem i step items).1 = .ok a → Q a := by
  simp only [← Array.mem_toList_iff] at h ⊢
  exact (onItem_actsOn step i items).within hstep h

theorem onPath_keeps (hstep : step.Keeps D N Q) (id : Identity) (keys : List String) :
    (onPath step id keys).Keeps D N Q := by
  induction keys generalizing id with
  | nil => exact hstep
  | cons key keys ih =>
    intro v hv
    cases v with
    | object old members =>
      obtain ⟨hms, ha⟩ := onMember_within (ih (id + 1)) key (Value.within_object.mp hv)
      exact ⟨Value.within_object.mpr hms, ha⟩
    | array old items =>
      unfold onPath
      split
      · exact ⟨hv, by simp⟩
      · split
        · exact ⟨hv, by simp⟩
        · rename_i i _ _
          obtain ⟨hitems, ha⟩ := onItem_within (ih (id + 1)) i (Value.within_array.mp hv)
          exact ⟨Value.within_array.mpr hitems, ha⟩
    | _ =>
      unfold onPath
      split <;> exact ⟨hv, by simp⟩

theorem onBinding_length (name : String) (step : SlotStep α) (frames : List Frame) :
    (onBinding name step frames).2.length = frames.length := by
  induction frames with
  | nil => rfl
  | cons frame outer ih =>
    unfold onBinding
    split
    · rfl
    · simp [ih]

theorem inFrame_names (name : String) (step : SlotStep α) (frame : Frame) :
    (onBinding.inFrame name step frame).2.map Prod.fst = frame.map Prod.fst := by
  induction frame with
  | nil => rfl
  | cons p rest ih =>
    unfold onBinding.inFrame
    split
    · rfl
    · simp [ih]

/-- An update binds no names. -/
theorem onBinding_names (name : String) (step : SlotStep α) (frames : List Frame) :
    (onBinding name step frames).2.map (List.map Prod.fst) = frames.map (List.map Prod.fst) := by
  induction frames with
  | nil => rfl
  | cons frame outer ih =>
    have hframe := inFrame_names name step frame
    unfold onBinding
    split
    · rename_i heq
      rw [heq] at hframe
      simp [hframe]
    · rename_i heq
      rw [heq] at hframe
      simp [hframe, ih]

/-- Within a frame that has the name the step acts on its value. -/
theorem inFrame_cases (name : String) (step : SlotStep α) (frame : Frame) :
    onBinding.inFrame name step frame = (none, frame) ∨
      ∃ q ∈ frame, (onBinding.inFrame name step frame).1 = some (step q.2.value).1 ∧
        ∀ p ∈ (onBinding.inFrame name step frame).2, p ∈ frame ∨
          p.2.value = (step q.2.value).2 := by
  induction frame with
  | nil => exact .inl rfl
  | cons q rest ih =>
    unfold onBinding.inFrame
    split
    · refine .inr ⟨q, List.mem_cons_self, rfl, List.forall_mem_cons.mpr ⟨.inr rfl, ?_⟩⟩
      exact fun p hp => .inl (List.mem_cons_of_mem _ hp)
    · rcases ih with h | ⟨q', hq', hr, hrest⟩
      · rw [h]
        exact .inl rfl
      · refine .inr ⟨q', List.mem_cons_of_mem _ hq', hr, ?_⟩
        refine List.forall_mem_cons.mpr ⟨.inl List.mem_cons_self, fun p hp => ?_⟩
        exact (hrest p hp).imp (List.mem_cons_of_mem _) id

/-- An update acts on one value of the frames, if one of them has the name. -/
theorem onBinding_cases (name : String) (step : SlotStep α) (frames : List Frame) :
    onBinding name step frames = (none, frames) ∨
      ∃ frame ∈ frames, ∃ q ∈ frame, (onBinding name step frames).1 = some (step q.2.value).1 ∧
        ∀ frame' ∈ (onBinding name step frames).2, ∀ p ∈ frame',
          (∃ frame ∈ frames, p ∈ frame) ∨ p.2.value = (step q.2.value).2 := by
  induction frames with
  | nil => exact .inl rfl
  | cons frame outer ih =>
    have hkeep : ∀ frame' ∈ outer, ∀ p ∈ frame', ∃ frame' ∈ frame :: outer, p ∈ frame' :=
      fun frame' h p hp => ⟨frame', List.mem_cons_of_mem _ h, hp⟩
    unfold onBinding
    rcases inFrame_cases name step frame with h | ⟨q, hq, hr, hframe⟩
    · rw [h]
      rcases ih with h' | ⟨frame', hframe', q, hq, hr, houter⟩
      · rw [h']
        exact .inl rfl
      · refine .inr ⟨frame', List.mem_cons_of_mem _ hframe', q, hq, hr, ?_⟩
        refine List.forall_mem_cons.mpr ⟨fun p hp => .inl ⟨frame, List.mem_cons_self, hp⟩, ?_⟩
        intro frame₁ h₁ p hp
        exact (houter frame₁ h₁ p hp).imp (fun ⟨frame₂, h₂, hp⟩ => hkeep frame₂ h₂ p hp) id
    · rcases hframe' : onBinding.inFrame name step frame with ⟨r, frame'⟩
      rw [hframe'] at hr hframe
      cases hr
      refine .inr ⟨frame, List.mem_cons_self, q, hq, rfl, ?_⟩
      refine List.forall_mem_cons.mpr ⟨fun p hp => ?_, fun frame₁ h₁ p hp => .inl (hkeep _ h₁ p hp)⟩
      exact (hframe p hp).imp (fun hp => ⟨frame, List.mem_cons_self, hp⟩) id

theorem onBinding_within (hstep : step.Keeps D N Q) (name : String) {frames : List Frame}
    (h : ∀ frame ∈ frames, ∀ p ∈ frame, p.2.value.Within D N) :
    (∀ frame ∈ (onBinding name step frames).2, ∀ p ∈ frame, p.2.value.Within D N) ∧
      ∀ a, (onBinding name step frames).1 = some (.ok a) → Q a := by
  rcases onBinding_cases name step frames with hnone | ⟨frame, hframe, q, hq, hr, hframes⟩
  · rw [hnone]
    exact ⟨h, fun a ha => nomatch ha⟩
  · obtain ⟨hv, ha⟩ := hstep q.2.value (h frame hframe q hq)
    refine ⟨fun frame' hframe' p hp => ?_, fun a h => ha a (Option.some.inj (hr.symm.trans h))⟩
    rcases hframes frame' hframe' p hp with ⟨frame₁, h₁, hp⟩ | hp
    · exact h frame₁ h₁ p hp
    · exact hp ▸ hv

/-! ## Methods that change arrays in place -/

/-- The answer of the method is a number, an item or nothing, and the items afterwards were items or
arguments. -/
theorem Method.InPlace.apply_cases (op : InPlace) (args : List Value) (items : Array Value) :
    ((∃ n, (op.apply args items).1 = count n) ∨ (op.apply args items).1 = .undefined ∨
        (op.apply args items).1 ∈ items) ∧
      ∀ x ∈ (op.apply args items).2, x ∈ items ∨ x ∈ args := by
  have hgetD : ∀ v : Option Value, (∀ x ∈ v, x ∈ items) →
      v.getD .undefined = .undefined ∨ v.getD .undefined ∈ items := by
    rintro (_ | v) hv
    · exact .inl rfl
    · exact .inr (hv v rfl)
  cases op with
  | push =>
    refine ⟨.inl ⟨_, rfl⟩, fun x hx => ?_⟩
    have hx : x ∈ items.toList ++ args := by
      simpa [InPlace.apply] using Array.mem_toList_iff.mpr hx
    exact (List.mem_append.mp hx).imp Array.mem_toList_iff.mp id
  | pop =>
    refine ⟨.inr (hgetD _ fun x hx => Array.mem_of_back? hx), fun x hx => .inl ?_⟩
    have hx : x ∈ items.toList.dropLast := by
      simpa [InPlace.apply] using Array.mem_toList_iff.mpr hx
    exact Array.mem_toList_iff.mp (List.dropLast_subset _ hx)
  | shift =>
    refine ⟨.inr (hgetD _ fun x hx => Array.mem_of_getElem? hx), fun x hx => .inl ?_⟩
    obtain ⟨i, hi, rfl⟩ := Array.mem_extract_iff_getElem.mp hx
    exact Array.getElem_mem _
  | unshift =>
    refine ⟨.inl ⟨_, rfl⟩, fun x hx => ?_⟩
    exact (Array.mem_append.mp hx).symm.imp id List.mem_toArray.mp

end Stencil.Script
