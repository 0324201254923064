import Stencil.Proofs.Script.Resemblance

/-! # Slots side by side

What is done on two sides to a slot below a path depends on the values that stand there and on the
identities that the containers on the way get, and on nothing else.  If the values are related, then
so are the answers, however answers are compared (`Comparison`), and what is left in the slots,
whatever relation it is that keeps scripts from telling values apart: through members and items
(`onMember_alike`, `onItem_alike`), along a path (`onPath_alike`), and for the methods that change
arrays in place (`onSlot_alike`).
-/
namespace Stencil.Script

/-- How the answers of two runs are compared. -/
structure Comparison where
  Holds : {α : Type} → (α → α → Prop) → Except ScriptError α → Except ScriptError α → Prop
  ok : ∀ {α} {Q : α → α → Prop} {a a'}, Q a a' → Holds Q (.ok a) (.ok a')
  /-- The same error is there on both sides. -/
  fail : ∀ {α} {Q : α → α → Prop} {e : ScriptError}, e.isUnbound = false →
    Holds Q (.error e) (.error e)
  imp : ∀ {α} {P Q : α → α → Prop} {r r'}, Holds P r r' → (∀ a a', P a a' → Q a a') → Holds Q r r'

/-- Containers with these identities are related if their contents are. -/
structure Encloses (R : Value → Value → Prop) (id id' : Identity) : Prop where
  array : ∀ {items items' : Array Value}, List.Forall₂ R items.toList items'.toList →
    R (.array id items) (.array id' items')
  object : ∀ {members members'}, SameMembers R members members' →
    R (.object id members) (.object id' members')

/-- Steps on related slots have answers that are related, and leave slots that are. -/
def SlotStep.Alike {α : Type} (K : Comparison) (R : Value → Value → Prop) (Q : α → α → Prop)
    (step step' : SlotStep α) : Prop :=
  ∀ v v', R v v' → K.Holds (fun a a' => Q a a' ∧ R (step v).2 (step' v').2) (step v).1 (step' v').1

section
variable {K : Comparison} {R : Value → Value → Prop} {α : Type} {Q : α → α → Prop}
  {step step' : SlotStep α}

theorem forall₂_set {vs vs' : List Value} (h : List.Forall₂ R vs vs') (i : Nat) {v v' : Value}
    (hv : R v v') : List.Forall₂ R (vs.set i v) (vs'.set i v') := by
  induction h generalizing i with
  | nil => exact .nil
  | cons hx hrest ih =>
    cases i with
    | zero => exact .cons hv hrest
    | succ i => exact .cons hx (ih i)

variable (hR : Resemblance R)
include hR

theorem onMember_alike (h : SlotStep.Alike K R Q step step') (key : String)
    {members members' : List (String × Value)} (hm : SameMembers R members members') :
    K.Holds
      (fun a a' => Q a a' ∧ SameMembers R (onMember key step members).2
        (onMember key step' members').2)
      (onMember key step members).1 (onMember key step' members').1 := by
  induction hm with
  | nil =>
    exact K.imp (h .undefined .undefined (hR.plain rfl)) fun _ _ ha =>
      ⟨ha.1, .cons ⟨rfl, ha.2⟩ .nil⟩
  | @cons p p' rest rest' hp hrest ih =>
    unfold onMember
    rw [hp.1]
    split
    · exact K.imp (h _ _ hp.2) fun _ _ ha => ⟨ha.1, .cons ⟨rfl, ha.2⟩ hrest⟩
    · exact K.imp ih fun _ _ ha => ⟨ha.1, .cons ⟨rfl, hp.2⟩ ha.2⟩

theorem onItem_alike (h : SlotStep.Alike K R Q step step') (i : Nat) {items items' : Array Value}
    (hitems : List.Forall₂ R items.toList items'.toList) :
    K.Holds
      (fun a a' => Q a a' ∧ List.Forall₂ R (onItem i step items).2.toList
        (onItem i step' items').2.toList)
      (onItem i step items).1 (onItem i step' items').1 := by
  have hsize : items'.size = items.size := hitems.length_eq.symm
  have hfilled : List.Forall₂ R
      (items ++ Array.replicate (i + 1 - items.size) Value.undefined).toList
      (items' ++ Array.replicate (i + 1 - items'.size) Value.undefined).toList := by
    rw [Array.toList_append, Array.toList_append, hsize]
    refine List.rel_append hitems (List.forall₂_same.mpr fun v hv => ?_)
    rw [Array.toList_replicate, List.mem_replicate] at hv
    exact hv.2 ▸ hR.plain rfl
  unfold onItem
  dsimp only
  generalize items ++ Array.replicate (i + 1 - items.size) Value.undefined = filled at hfilled
  generalize items' ++ Array.replicate (i + 1 - items'.size) Value.undefined = filled' at hfilled
  have hfilledSize : filled'.size = filled.size := hfilled.length_eq.symm
  by_cases hi : i < filled.size
  · have hi' : i < filled'.size := hfilledSize ▸ hi
    rw [dif_pos hi, dif_pos hi']
    have hitem : R filled[i] filled'[i] := by
      have hrel := rel_getElem? hfilled i
      rw [Array.getElem?_toList, Array.getElem?_toList, Array.getElem?_eq_getElem hi,
        Array.getElem?_eq_getElem hi'] at hrel
      cases hrel with
      | some h => exact h
    refine K.imp (h _ _ hitem) fun _ _ ha => ⟨ha.1, ?_⟩
    simp only [Array.toList_setIfInBounds, Array.toList_set]
    exact forall₂_set (forall₂_set hfilled i (hR.plain rfl)) i ha.2
  · have hi' : ¬ i < filled'.size := hfilledSize ▸ hi
    rw [dif_neg hi, dif_neg hi']
    exact K.fail rfl

/-- The step at the end of a path, if the containers on the way get identities under which related
contents make related containers. -/
theorem onPath_alike (h : SlotStep.Alike K R Q step step') (keys : List String) (id : Identity)
    (hid : ∀ k < keys.length, Encloses R (id + k) (id + k)) :
    SlotStep.Alike K R Q (onPath step id keys) (onPath step' id keys) := by
  induction keys generalizing id with
  | nil => exact h
  | cons key keys ih =>
    have hhead : Encloses R id id := hid 0 (Nat.zero_lt_succ _)
    have htail : ∀ k < keys.length, Encloses R (id + 1 + k) (id + 1 + k) := by
      intro k hk
      rw [Nat.add_assoc, Nat.add_comm 1 k]
      exact hid (k + 1) (Nat.succ_lt_succ hk)
    have hinner := ih (id + 1) htail
    intro v v' hv
    cases hR.looks hv with
    | plain hplain =>
      cases v with
      | array | object | closure | native => cases hplain
      | undefined | null => exact K.fail rfl
      | bool | number | string | date => exact K.fail rfl
    | native f => exact K.fail rfl
    | closure => exact K.fail rfl
    | object hmembers =>
      unfold onPath
      exact K.imp (onMember_alike hR hinner key hmembers) fun _ _ ha => ⟨ha.1, hhead.object ha.2⟩
    | @array _ _ items items' hitems =>
      have hsize : items'.size = items.size := hitems.length_eq.symm
      unfold onPath
      cases Number.index? key with
      | none => exact K.fail rfl
      | some i =>
        dsimp only
        rw [hsize]
        split
        · exact K.fail rfl
        · exact K.imp (onItem_alike hR hinner i hitems) fun _ _ ha => ⟨ha.1, hhead.array ha.2⟩

/-! ## Methods that change arrays in place -/

theorem Method.InPlace.apply_alike (op : InPlace) {args args' : List Value}
    (hargs : List.Forall₂ R args args') {items items' : Array Value}
    (hitems : List.Forall₂ R items.toList items'.toList) :
    R (op.apply args items).1 (op.apply args' items').1 ∧
      List.Forall₂ R (op.apply args items).2.toList (op.apply args' items').2.toList := by
  have hcount : ∀ {vs vs' : Array Value}, List.Forall₂ R vs.toList vs'.toList →
      R (count vs.size) (count vs'.size) := by
    intro vs vs' h
    have hsize := h.length_eq
    rw [Array.length_toList, Array.length_toList] at hsize
    rw [hsize]
    exact hR.plain rfl
  have hget : ∀ i : Nat, R (items[i]?.getD .undefined) (items'[i]?.getD .undefined) := by
    intro i
    have hi := rel_getElem? hitems i
    rw [Array.getElem?_toList, Array.getElem?_toList] at hi
    exact hR.getD hi
  have hlength := hitems.length_eq
  rw [Array.length_toList, Array.length_toList] at hlength
  cases op with
  | push =>
    have hall : List.Forall₂ R (items ++ args).toList (items' ++ args').toList := by
      rw [Array.toList_appendList, Array.toList_appendList]
      exact List.rel_append hitems hargs
    exact ⟨hcount hall, hall⟩
  | unshift =>
    have hall : List.Forall₂ R (args.toArray ++ items).toList (args'.toArray ++ items').toList := by
      rw [Array.toList_append, Array.toList_append]
      exact List.rel_append hargs hitems
    exact ⟨hcount hall, hall⟩
  | pop =>
    refine ⟨?_, ?_⟩
    · show R (items.back?.getD .undefined) (items'.back?.getD .undefined)
      rw [Array.back?, Array.back?, ← hlength]
      exact hget _
    · show List.Forall₂ _ items.pop.toList items'.pop.toList
      rw [Array.toList_pop, Array.toList_pop, List.dropLast_eq_take, List.dropLast_eq_take,
        hitems.length_eq]
      exact List.forall₂_take _ hitems
  | shift =>
    refine ⟨hget 0, ?_⟩
    show List.Forall₂ _ (items.extract 1 items.size).toList (items'.extract 1 items'.size).toList
    rw [Array.toList_extract, Array.toList_extract, hlength]
    exact List.forall₂_take _ (List.forall₂_drop _ hitems)

theorem Method.InPlace.onSlot_alike (op : InPlace) {args args' : List Value}
    (hargs : List.Forall₂ R args args') {id id' : Identity} (hid : Encloses R id id')
    (maxLength : Nat) :
    SlotStep.Alike K R R (op.onSlot args id maxLength) (op.onSlot args' id' maxLength) := by
  intro v v' hv
  cases hR.looks hv with
  | plain hplain => cases v <;> first | exact K.fail rfl | cases hplain
  | native | object | closure => exact K.fail rfl
  | array hitems =>
    obtain ⟨hanswer, hitems⟩ := op.apply_alike hR hargs hitems
    have hsize := hitems.length_eq
    rw [Array.length_toList, Array.length_toList] at hsize
    unfold Method.InPlace.onSlot
    dsimp only
    rw [← hsize]
    split
    · exact K.fail rfl
    · exact K.ok ⟨hanswer, hid.array hitems⟩

end

end Stencil.Script
