import Stencil.Proofs.Script.Learning
import Stencil.Proofs.Script.PairLogic

/-! # What evaluations hold

A **holding** says of values what their parts say: an array is held if arrays of such items may be
there and the items are held, an object if its members may have their keys and have values that are
held, and a function if it may have its definition and what it captured and what the names of its
module stand for is held (`Holding`).  What has been received from outside so far may change what may
be there, but takes nothing back.

A holding **suits** a context if all that evaluations read, receive and make may be held
(`Holding.Suits`).  Then whatever is run on a machine that holds such values only leaves a machine
that does, and so does its result: that is a logic of pairs that says nothing about the second side
(`PairLogic.holding`).
-/
namespace Stencil.Script

/-- **What may be held**, when the given values have been received from outside. -/
structure Holding where
  /-- The values that may be held. -/
  Fits : List Value → Value → Prop
  /-- What the names of modules may stand for. -/
  Binds : List Value → ModuleBinding → Prop
  /-- The items that arrays may have. -/
  Arrays : List Value → Array Value → Prop
  /-- The keys that members may have. -/
  Keys : List Value → String → Prop
  /-- The definitions that functions may have. -/
  definitions : FunctionDef → Prop
  /-- The keys under which members may be written. -/
  writable : String → Prop
  mono : ∀ {w w' v}, w ⊆ w' → Fits w v → Fits w' v
  bindsMono : ∀ {w w' b}, w ⊆ w' → Binds w b → Binds w' b
  keysMono : ∀ {w w' key}, w ⊆ w' → Keys w key → Keys w' key
  plain : ∀ {w v}, v.isPlain → Fits w v
  native : ∀ {w f}, Fits w (.native f)
  array : ∀ {w id items}, Fits w (.array id items) ↔ Arrays w items ∧ ∀ v ∈ items, Fits w v
  object : ∀ {w id members},
    Fits w (.object id members) ↔ ∀ p ∈ members, Keys w p.1 ∧ Fits w p.2
  closure : ∀ {w id f captured siblings}, Fits w (.closure id f captured siblings) ↔
    definitions f ∧ (∀ p ∈ captured, Fits w p.2) ∧ ∀ p ∈ siblings, Binds w p.2
  constant : ∀ {w v}, Binds w (.constant v) ↔ Fits w v
  function : ∀ {w f captured},
    Binds w (.function f captured) ↔ definitions f ∧ ∀ p ∈ captured, Fits w p.2

/-- All that evaluations in the context read, receive and make may be held. -/
structure Holding.Suits (H : Holding) (c : Context) : Prop where
  scope : ∀ {w name v}, c.scope.lookup? name = some v → H.Fits w v
  modules : ∀ {w}, ∀ p ∈ Globals.modules, H.Fits w p.2
  parsed : ∀ {w s json id}, Json.parse s = .ok json →
    H.Fits ((Value.ofJson id json).1 :: w) (Value.ofJson id json).1
  answers : ∀ {w name args v}, c.host.natives name args = .ok v → (∀ a ∈ args, H.Fits w a) →
    H.Fits (v :: w) v
  made : ∀ {w items}, items.size ≤ c.limits.arrayLength → H.Arrays w items
  pair : ∀ {w} (u v), H.Arrays w #[u, v]
  listed : ∀ {w items}, Value.Listed items → H.Arrays w items
  /-- If items may be written, arrays may become as long as they like. -/
  grown : ∀ {w key i items}, H.writable key → Number.index? key = some i → H.Arrays w items
  allowed : ∀ {w key}, Security.isDenied key = false → H.Keys w key
  inner : ∀ f, H.definitions f → ∀ g ∈ f.body.functions, H.definitions g
  writes : ∀ f, H.definitions f → ∀ d ∈ f.body.parts, d.WritesAmong H.writable

variable {H : Holding} {w w' : List Value}

/-! ## Updates of places -/

section Places
variable {α : Type} {Q : α → Prop} {step : SlotStep α}

/-- A slot that may be held is left with a value that may, and the answer of the step, if it has
one, satisfies `Q`. -/
def SlotStep.Conforms (H : Holding) (w : List Value) (step : SlotStep α) (Q : α → Prop) : Prop :=
  ∀ v, H.Fits w v → H.Fits w (step v).2 ∧ ∀ a, (step v).1 = .ok a → Q a

theorem onMember_conforms (hstep : step.Conforms H w Q) {key : String} (hkey : H.Keys w key)
    {members : List (String × Value)} (h : ∀ p ∈ members, H.Keys w p.1 ∧ H.Fits w p.2) :
    (∀ p ∈ (onMember key step members).2, H.Keys w p.1 ∧ H.Fits w p.2) ∧
      ∀ a, (onMember key step members).1 = .ok a → Q a := by
  induction members with
  | nil =>
    -- A member that is missing is made, even if the step on it fails.
    obtain ⟨hv, ha⟩ := hstep .undefined (H.plain rfl)
    exact ⟨List.forall_mem_singleton.mpr ⟨hkey, hv⟩, ha⟩
  | cons p rest ih =>
    obtain ⟨hp, hrest⟩ := List.forall_mem_cons.mp h
    unfold onMember
    split
    · obtain ⟨hv, ha⟩ := hstep p.2 hp.2
      exact ⟨List.forall_mem_cons.mpr ⟨⟨hp.1, hv⟩, hrest⟩, ha⟩
    · obtain ⟨hrest', ha⟩ := ih hrest
      exact ⟨List.forall_mem_cons.mpr ⟨hp, hrest'⟩, ha⟩

theorem onItem_conforms (hstep : step.Conforms H w Q) (i : Nat) {items : Array Value}
    (h : ∀ v ∈ items, H.Fits w v) :
    (∀ v ∈ (onItem i step items).2, H.Fits w v) ∧
      ∀ a, (onItem i step items).1 = .ok a → Q a := by
  obtain ⟨u, hu, hr, hitems⟩ := onItem_actsOn step i items
  have hu' : H.Fits w u := by
    rcases hu with hu | rfl
    · exact h u (Array.mem_toList_iff.mp hu)
    · exact H.plain rfl
  obtain ⟨hv, ha⟩ := hstep u hu'
  refine ⟨fun x hx => ?_, fun a h => ha a (hr ▸ h)⟩
  rcases hitems x (Array.mem_toList_iff.mpr hx) with hx | rfl | rfl
  · exact h x (Array.mem_toList_iff.mp hx)
  · exact H.plain rfl
  · exact hv

/-- The keys on the way to the slot are the only new ones, and only arrays with an index on the way
become longer. -/
theorem onPath_conforms {c : Context} (hc : H.Suits c) (hstep : step.Conforms H w Q)
    (id : Identity) {keys : List String} (hkeys : ∀ key ∈ keys, H.Keys w key ∧ H.writable key) :
    (onPath step id keys).Conforms H w Q := by
  induction keys generalizing id with
  | nil => exact hstep
  | cons key keys ih =>
    obtain ⟨⟨hkey, hwritable⟩, hkeys⟩ := List.forall_mem_cons.mp hkeys
    intro v hv
    cases v with
    | object old members =>
      obtain ⟨hms, ha⟩ := onMember_conforms (ih (id + 1) hkeys) hkey (H.object.mp hv)
      exact ⟨H.object.mpr hms, ha⟩
    | array old items =>
      unfold onPath
      split
      · exact ⟨hv, by simp⟩
      · split
        · exact ⟨hv, by simp⟩
        · rename_i i hi _
          obtain ⟨hitems, ha⟩ := onItem_conforms (ih (id + 1) hkeys) i (H.array.mp hv).2
          exact ⟨H.array.mpr ⟨hc.grown hwritable hi, hitems⟩, ha⟩
    | _ =>
      unfold onPath
      split <;> exact ⟨hv, by simp⟩

/-- A method that changes an array in place leaves one within the limit, or none. -/
theorem onSlot_conforms {c : Context} (hc : H.Suits c) (op : Method.InPlace) {args : List Value}
    (hargs : ∀ v ∈ args, H.Fits w v) (id : Identity) :
    SlotStep.Conforms H w (op.onSlot args id c.limits.arrayLength) (H.Fits w) := by
  intro v hv
  unfold Method.InPlace.onSlot
  split
  case h_2 => exact ⟨H.plain rfl, fun _ h => nomatch h⟩
  rename_i items
  obtain ⟨-, hitems⟩ := H.array.mp hv
  obtain ⟨hanswer, hafter⟩ := op.apply_cases args items
  dsimp only
  split
  · exact ⟨H.plain rfl, fun _ h => nomatch h⟩
  · rename_i hlong
    refine ⟨H.array.mpr ⟨hc.made (Nat.le_of_not_lt hlong), fun x hx =>
      (hafter x hx).elim (hitems x) (hargs x)⟩, fun a ha => Except.ok.inj ha ▸ ?_⟩
    rcases hanswer with ⟨n, h⟩ | h | h
    · exact h ▸ H.plain rfl
    · exact h ▸ H.plain rfl
    · exact hitems _ h

end Places

/-! ## Machines -/

/-- An activation holds what may be held. -/
structure Activation.Conforms (H : Holding) (w : List Value) (a : Activation) : Prop where
  frames : ∀ frame ∈ a.frames, ∀ p ∈ frame, H.Fits w p.2.value
  captured : ∀ p ∈ a.captured, H.Fits w p.2
  siblings : ∀ p ∈ a.siblings, H.Binds w p.2

/-- A machine holds what may be held. -/
structure Machine.Conforms (H : Holding) (w : List Value) (m : Machine) : Prop where
  current : m.current.Conforms H w
  callers : ∀ a ∈ m.callers, a.Conforms H w
  completion : H.Fits w m.completion
  defaultExport : ∀ v ∈ m.defaultExport, H.Fits w v

theorem Activation.Conforms.mono {a : Activation} (h : a.Conforms H w) (hle : w ⊆ w') :
    a.Conforms H w' where
  frames frame hframe p hp := H.mono hle (h.frames frame hframe p hp)
  captured p hp := H.mono hle (h.captured p hp)
  siblings p hp := H.bindsMono hle (h.siblings p hp)

theorem Machine.Conforms.mono {m : Machine} (h : m.Conforms H w) (hle : w ⊆ w') :
    m.Conforms H w' where
  current := h.current.mono hle
  callers a ha := (h.callers a ha).mono hle
  completion := H.mono hle h.completion
  defaultExport v hv := H.mono hle (h.defaultExport v hv)

theorem Machine.Conforms.same {m m' : Machine} (h : m.Conforms H w) (hsame : m.Same m') :
    m'.Conforms H w where
  current := hsame.current ▸ h.current
  callers := hsame.callers ▸ h.callers
  completion := hsame.completion ▸ h.completion
  defaultExport := hsame.defaultExport ▸ h.defaultExport

theorem Activation.Conforms.values {a : Activation} (h : a.Conforms H w) :
    ∀ v ∈ a.values, H.Fits w v :=
  Activation.forall_values h.frames h.captured
    (fun _ _ hb => H.constant.mp (h.siblings _ hb))
    fun _ _ _ hb => (H.function.mp (h.siblings _ hb)).2

theorem Machine.Conforms.values {m : Machine} (h : m.Conforms H w) :
    ∀ v ∈ m.values, H.Fits w v :=
  Machine.forall_values h.current.values (fun a ha => (h.callers a ha).values) h.completion
    h.defaultExport

/-- A new machine holds nothing. -/
theorem Machine.conforms_new (next : Identity) : Machine.Conforms H w { next } where
  current := ⟨List.forall_mem_singleton.mpr (List.forall_mem_nil _), List.forall_mem_nil _,
    List.forall_mem_nil _⟩
  callers := List.forall_mem_nil _
  completion := H.plain rfl
  defaultExport := fun _ hv => nomatch hv

namespace Eval

theorem conforms_snapshot {a : Activation} (h : a.Conforms H w) :
    ∀ p ∈ snapshot a, H.Fits w p.2 := by
  intro p hp
  rcases mem_snapshot hp with ⟨frame, hframe, q, hq, hpq⟩ | hp
  · exact hpq ▸ h.frames frame hframe q hq
  · exact h.captured p hp

/-- The activation of a function that may be held, called with arguments that may. -/
theorem conforms_activationOf {id : Identity} {f : FunctionDef} {captured : List (String × Value)}
    {siblings : Siblings} {args : List Value} (hself : H.Fits w (.closure id f captured siblings))
    (hargs : ∀ v ∈ args, H.Fits w v) :
    (activationOf (.closure id f captured siblings) f captured siblings args).Conforms H w := by
  obtain ⟨-, hcaptured, hsiblings⟩ := H.closure.mp hself
  refine ⟨fun frame hframe p hp => ?_, hcaptured, hsiblings⟩
  rcases mem_activationOf hframe hp with h | ⟨i, h⟩
  · exact h ▸ hself
  · rw [h, Value.argument, List.getD_eq_getElem?_getD]
    cases hi : args[i]? with
    | none => exact H.plain rfl
    | some v => exact hargs v (List.mem_of_getElem? hi)

end Eval

/-! ## The logic -/

/-- The sides of the logic: what has been received is known, and identities stay as they are. -/
def Holding.sides (H : Holding) : Sides where
  World := List Value
  Le w w' := w ⊆ w'
  refl := List.Subset.refl
  trans := @List.Subset.trans Value
  rename := id
  Fits := H.Fits
  Keys := H.Keys
  writable := H.writable

/-- A machine that has received the given values holds what may be held. -/
def Holding.tracking (H : Holding) : Tracking where
  toSides := H.sides
  Tracks w m := m.received = w ∧ m.Conforms H w
  same hsame _ hreceived hm := ⟨hreceived.trans hm.1, hm.2.same hsame⟩

/-- From a machine that holds what may be held the step gets to one that does, and its results are
as `Q` says. -/
abbrev Retains (H : Holding) (c : Context) {α : Type} (w : List Value) (x : Eval α)
    (Q : List Value → α → Prop) : Prop :=
  Learns H.tracking c w x Q

namespace Retains
open Learns
variable {c : Context} {α : Type} {x : Eval α} {Q : List Value → α → Prop}

/-- A step that leaves all values as they are. -/
theorem keep (hx : ∀ m : Machine, m.Same (x.outcome c m).2 ∧
    (x.outcome c m).2.received = m.received)
    (hQ : ∀ m a, m.Conforms H w → (x.outcome c m).1 = .ok a → Q w a) : Retains H c w x Q := by
  rintro m ⟨hreceived, hm⟩
  obtain ⟨hsame, hsame'⟩ := hx m
  exact ⟨w, List.Subset.refl w, ⟨hsame'.trans hreceived, hm.same hsame⟩, fun a => hQ m a hm⟩

theorem fresh : Retains H c w Eval.fresh fun _ _ => True :=
  keep (fun _ => ⟨⟨rfl, rfl, rfl, rfl, rfl⟩, rfl⟩) fun _ _ _ _ => trivial

/-! ### New values -/

theorem plainArray {items : Array Value} (hitems : H.Arrays w items)
    (h : ∀ v ∈ items, H.Fits w v) : Retains H c w (Eval.plainArray items) H.Fits := by
  unfold Eval.plainArray
  have hmade : ∀ id, H.Fits w (.array id items) := fun id => H.array.mpr ⟨hitems, h⟩
  exact bind fresh fun w' id hle _ => result (H.mono hle (hmade id))

theorem plainObject {members : List (String × Value)} (h : H.sides.FitsMembers w members) :
    Retains H c w (Eval.plainObject members) H.Fits := by
  unfold Eval.plainObject
  have hmade : ∀ id, H.Fits w (.object id members) := fun id => H.object.mpr h
  exact bind fresh fun w' id hle _ => result (H.mono hle (hmade id))

theorem newObject {members : List (String × Value)} (h : H.sides.FitsMembers w members) :
    Retains H c w (Eval.newObject members) H.Fits := by
  unfold Eval.newObject
  refine bind (charge _) fun w₁ _ hle₁ _ => bind limits fun w₂ _ hle₂ _ => ?_
  refine bind (ofExcept _) fun w₃ _ hle₃ _ => plainObject fun p hp => ?_
  have hle : w ⊆ w₃ := fun u hu => hle₃ (hle₂ (hle₁ hu))
  exact ⟨H.keysMono hle (h p hp).1, H.mono hle (h p hp).2⟩

section Made
variable (hc : H.Suits c)
include hc

theorem newArray {items : Array Value} (h : ∀ v ∈ items, H.Fits w v) :
    Retains H c w (Eval.newArray items) H.Fits := by
  unfold Eval.newArray
  refine bind limits fun w₁ _ hle₁ hlimits => ?_
  rw [hlimits]
  refine guard fun hlong => bind (charge _) fun w₂ _ hle₂ _ => ?_
  refine bind (ofExcept _) fun w₃ _ hle₃ _ => ?_
  exact plainArray (hc.made (Nat.le_of_not_lt hlong)) fun v hv =>
    H.mono (fun u hu => hle₃ (hle₂ (hle₁ hu))) (h v hv)

theorem entries {members : List (String × Value)} (h : H.sides.FitsMembers w members) :
    Retains H c w
      (do Eval.newList (← members.mapM fun (key, v) => Eval.plainArray #[.string key, v]))
      H.Fits := by
  have hpairs : ∀ (members : List (String × Value)) (w : List Value),
      H.sides.FitsMembers w members →
      Retains H c w (members.mapM fun (key, v) => Eval.plainArray #[.string key, v])
        fun w' pairs => ∀ v ∈ pairs, H.Fits w' v := by
    intro members
    induction members with
    | nil =>
      intro w _
      rw [List.mapM_nil]
      exact result (List.forall_mem_nil _)
    | cons p rest ih =>
      intro w h
      obtain ⟨⟨-, hp⟩, hrest⟩ := List.forall_mem_cons.mp h
      rw [List.mapM_cons]
      have hitems : ∀ v ∈ #[Value.string p.1, p.2], H.Fits w v := by
        intro v hv
        rcases List.mem_cons.mp (Array.mem_toList_iff.mpr hv) with rfl | hv
        · exact H.plain rfl
        · exact List.mem_singleton.mp hv ▸ hp
      refine bind (plainArray (hc.pair _ _) hitems) fun w₁ pair hle₁ hpair => ?_
      have hrest₁ : H.sides.FitsMembers w₁ rest := fun q hq =>
        ⟨H.keysMono hle₁ (hrest q hq).1, H.mono hle₁ (hrest q hq).2⟩
      refine bind (ih w₁ hrest₁) fun w₂ pairs hle₂ hpairs => ?_
      exact result (List.forall_mem_cons.mpr ⟨H.mono hle₂ hpair, hpairs⟩)
  refine bind (hpairs members w h) fun w₁ pairs _ hpairs => ?_
  exact newArray hc fun v hv => hpairs v (List.mem_toArray.mp hv)

end Made

theorem newClosure {f : FunctionDef} (hf : H.definitions f) :
    Retains H c w (Eval.newClosure f) H.Fits := by
  unfold Eval.newClosure
  refine bind get fun w₁ m _ ⟨_, hm⟩ => bind limits fun w₂ _ hle₂ _ => ?_
  refine bind (ofExcept _) fun w₃ _ hle₃ _ => bind fresh fun w₄ _ hle₄ _ => ?_
  have ha := hm.current.mono fun u hu => hle₄ (hle₃ (hle₂ hu))
  exact result (H.closure.mpr ⟨hf, Eval.conforms_snapshot ha, ha.siblings⟩)

/-! ### Names -/

theorem lookup? (hc : H.Suits c) (name : String) :
    Retains H c w (Eval.lookup? name) H.sides.FitsAnswer := by
  refine keep (fun m => ?_) fun m found hm hfound v hv => ?_
  · rw [Eval.outcome_lookup?]
    repeat' split
    all_goals exact ⟨⟨rfl, rfl, rfl, rfl, rfl⟩, rfl⟩
  · rw [Eval.outcome_lookup?] at hfound
    cases hv
    split at hfound
    · rename_i b hb
      cases hfound
      obtain ⟨frame, hframe, hlookup⟩ := List.exists_of_findSome?_eq_some hb
      exact hm.current.frames frame hframe (name, b) (mem_of_lookup hlookup)
    split at hfound
    · rename_i u hu
      cases hfound
      exact hm.current.captured _ (mem_of_lookup hu)
    split at hfound
    · rename_i u hu
      cases hfound
      exact H.constant.mp (hm.current.siblings _ (mem_of_lookup hu))
    · rename_i f captured hf
      cases hfound
      obtain ⟨hdefinition, hcaptured⟩ := H.function.mp (hm.current.siblings _ (mem_of_lookup hf))
      exact H.closure.mpr ⟨hdefinition, hcaptured, hm.current.siblings⟩
    · exact hc.scope (Except.ok.inj hfound)

/-! ### Values from outside -/

/-- A value is received, and may be held from then on. -/
theorem receive {m : Machine} {v : Value} (hm : H.tracking.Tracks w m)
    (m' : Machine) (hsame : m.Same m') (hreceived : m'.received = v :: m.received)
    (hv : H.Fits (v :: w) v) : ∃ w', w ⊆ w' ∧ H.tracking.Tracks w' m' ∧ H.Fits w' v := by
  obtain ⟨rfl, hm⟩ := hm
  have hle := List.subset_cons_self v m.received
  exact ⟨v :: m.received, hle, ⟨hreceived, (hm.mono hle).same hsame⟩, hv⟩

theorem parseJson (hc : H.Suits c) (s : String) :
    Retains H c w (Native.parseJson s) H.Fits := by
  intro m hm
  rw [Eval.outcome_parseJson]
  cases hjson : Json.parse s with
  | error e => exact ⟨w, List.Subset.refl w, hm, fun _ ha => nomatch ha⟩
  | ok json =>
    obtain ⟨w', hle, hm', hv⟩ := receive (v := (Value.ofJson m.next json).1) hm
      { m with
        next := (Value.ofJson m.next json).2
        received := (Value.ofJson m.next json).1 :: m.received }
      ⟨rfl, rfl, rfl, rfl, rfl⟩ rfl (hc.parsed hjson)
    exact ⟨w', hle, hm', fun _ ha => Except.ok.inj ha ▸ hv⟩

theorem runHost (hc : H.Suits c) {name : String} {args : List Value}
    (h : ∀ v ∈ args, H.Fits w v) : Retains H c w (Native.runHost name args) H.Fits := by
  intro m hm
  rw [Eval.outcome_runHost]
  cases hanswer : c.host.natives name args with
  | error message => exact ⟨w, List.Subset.refl w, hm, fun _ ha => nomatch ha⟩
  | ok v =>
    obtain ⟨w', hle, hm', hv⟩ := receive hm { m with received := v :: m.received }
      ⟨rfl, rfl, rfl, rfl, rfl⟩ rfl (hc.answers hanswer h)
    exact ⟨w', hle, hm', fun _ ha => Except.ok.inj ha ▸ hv⟩

theorem fetch (url : String) : Retains H c w (Native.fetch url) H.Fits := by
  refine keep (fun m => ?_) fun m v _ hv => ?_
  · rw [Eval.outcome_fetch]
    cases c.host.fetch <;> exact ⟨⟨rfl, rfl, rfl, rfl, rfl⟩, rfl⟩
  · rw [Eval.outcome_fetch] at hv
    cases hfetch : c.host.fetch with
    | none => simp [hfetch] at hv
    | some answer =>
      simp only [hfetch] at hv
      cases hpoll : Eval.poll c.budget m.ticks with
      | error e => simp [hpoll, Except.bind] at hv
      | ok u =>
        simp only [hpoll, Except.bind] at hv
        split at hv <;> cases hv
        exact H.plain rfl

/-! ### What is changed -/

theorem checkWritable (hc : H.Suits c) (target : Target) :
    Retains H c w (Eval.checkWritable target) fun _ _ => True := by
  unfold Eval.checkWritable
  refine bind (counter fun _ => ⟨⟨rfl, rfl, rfl, rfl, rfl⟩, rfl, rfl⟩) fun w₁ frames _ _ => ?_
  split
  · split
    · exact fail _
    · exact result trivial
  · refine bind (lookup? hc target.root) fun w₂ v _ _ => ?_
    split <;> exact fail _

theorem onPlace {P : α → Prop} (hc : H.Suits c) (target : Target) {step : SlotStep α}
    (hkeys : ∀ key ∈ target.keys, H.Keys w key ∧ H.writable key)
    (hstep : step.Conforms H w P) :
    Retains H c w (Eval.onPlace target step) fun _ a => P a := by
  intro m hm
  obtain ⟨w', hle, hm', -⟩ := checkWritable hc target m hm
  rw [Eval.outcome_onPlace]
  rcases hcheck : (Eval.checkWritable target).outcome c m with ⟨e | _, m'⟩
  · rw [hcheck] at hm'
    exact ⟨w', hle, hm', fun _ ha => nomatch ha⟩
  obtain ⟨hreceived, hm⟩ := hm
  have hpath := onPath_conforms hc hstep m.next hkeys
  dsimp only
  rcases onBinding_cases target.root (onPath step m.next target.keys) m.current.frames with
    hnone | ⟨frame, hframe, q, hq, hr, hframes⟩
  · rw [hnone]
    exact ⟨w, List.Subset.refl w, ⟨hreceived, { hm with current := { hm.current with } }⟩,
      fun _ ha => nomatch ha⟩
  · obtain ⟨hv, ha⟩ := hpath q.2.value (hm.current.frames frame hframe q hq)
    refine ⟨w, List.Subset.refl w, ⟨hreceived, { hm with current := { hm.current with
      frames := fun frame' hframe' p hp => ?_ } }⟩, fun a h => ha a ?_⟩
    · rcases hframes frame' hframe' p hp with ⟨frame₁, h₁, hp⟩ | hp
      · exact hm.current.frames frame₁ h₁ p hp
      · exact hp ▸ hv
    · rw [hr] at h
      exact h

theorem assign (hc : H.Suits c) (target : Target)
    (hkeys : ∀ key ∈ target.keys, H.Keys w key ∧ H.writable key) {v : Value} (hv : H.Fits w v) :
    Retains H c w (Eval.assign target v) fun _ _ => True := by
  unfold Eval.assign
  refine bind limits fun w₁ limits hle _ => ?_
  have hkeys₁ := fun key hkey => And.imp_left (H.keysMono hle) (hkeys key hkey)
  refine onPlace hc target hkeys₁ fun u _ => ⟨?_, by simp⟩
  split
  · exact H.mono hle hv
  · split
    · exact H.mono hle hv
    · exact H.plain rfl

theorem changeInPlace (hc : H.Suits c) (op : Method.InPlace) {args : List Value}
    (hargs : ∀ a ∈ args, H.Fits w a) {target : Eval Target}
    (htarget : ∀ w, Retains H c w target fun w' t =>
      ∀ key ∈ t.keys, H.Keys w' key ∧ H.writable key) :
    Retains H c w (Eval.changeInPlace op args target) H.Fits := by
  unfold Eval.changeInPlace
  refine bind (charge _) fun w₁ _ hle₁ _ => bind limits fun w₂ limits hle₂ hlimits => ?_
  rw [hlimits]
  refine bind (htarget w₂) fun w₃ place hle₃ hkeys => bind fresh fun w₄ id hle₄ _ => ?_
  have hle : w ⊆ w₄ := fun u hu => hle₄ (hle₃ (hle₂ (hle₁ hu)))
  have hkeys₄ := fun key hkey => And.imp_left (H.keysMono hle₄) (hkeys key hkey)
  refine weaken (P := fun _ => H.Fits w₄) (onPlace hc place hkeys₄ fun v hv => ?_)
    fun _ _ hle' ha => H.mono hle' ha
  split
  · exact onSlot_conforms hc op (fun a ha => H.mono hle (hargs a ha)) id v hv
  · refine ⟨H.plain rfl, fun _ h => ?_⟩
    cases h

theorem declare (name : String) {v : Value} (constant : Bool) (hv : H.Fits w v) :
    Retains H c w (Eval.declare name v constant) fun _ _ => True := by
  rintro m ⟨hreceived, hm⟩
  refine ⟨w, List.Subset.refl w, ⟨hreceived, { hm with current := { hm.current with
    frames := fun frame hframe p hp => ?_ } }⟩, fun _ _ => trivial⟩
  simp only [Eval.declare, Eval.outcome_modify] at hframe
  cases h : m.current.frames with
  | nil => simp [h, Eval.onInnermost] at hframe
  | cons inner outer =>
    obtain ⟨hinner, houter⟩ := List.forall_mem_cons.mp (h ▸ hm.current.frames)
    simp only [h, Eval.onInnermost] at hframe
    rcases List.mem_cons.mp hframe with rfl | hframe
    · rcases mem_insertMember hp with rfl | hp
      · exact hv
      · exact hinner p hp
    · exact houter frame hframe p hp

theorem complete {v : Value} (hv : H.Fits w v) :
    Retains H c w (Eval.complete v) fun _ _ => True := by
  rintro m ⟨hreceived, hm⟩
  simp only [Eval.complete, Eval.outcome_modify]
  split
  · exact ⟨w, List.Subset.refl w, ⟨hreceived, { hm with completion := hv }⟩, fun _ _ => trivial⟩
  · exact ⟨w, List.Subset.refl w, ⟨hreceived, hm⟩, fun _ _ => trivial⟩

theorem setDefault {v : Value} (hv : H.Fits w v) :
    Retains H c w (Eval.setDefault v) fun _ _ => True := by
  rintro m ⟨hreceived, hm⟩
  exact ⟨w, List.Subset.refl w,
    ⟨hreceived, { hm with defaultExport := fun _ hu => Option.some.inj hu ▸ hv }⟩,
    fun _ _ => trivial⟩

theorem takeCompletion : Retains H c w Eval.takeCompletion H.Fits := by
  rintro m ⟨hreceived, hm⟩
  exact ⟨w, List.Subset.refl w, ⟨hreceived, { hm with completion := H.plain rfl }⟩,
    fun _ hv => Except.ok.inj hv ▸ hm.completion⟩

/-! ### Blocks and calls -/

theorem withFrame (h : Retains H c w x Q) : Retains H c w (Eval.withFrame x) Q := by
  rintro m ⟨hreceived, hm⟩
  have hopen : H.tracking.Tracks w m.openFrame := ⟨hreceived, { hm with
    current := { hm.current with
      frames := List.forall_mem_cons.mpr ⟨List.forall_mem_nil _, hm.current.frames⟩ } }⟩
  obtain ⟨w', hle, ⟨hreceived', hm'⟩, hQ⟩ := h m.openFrame hopen
  rw [Eval.withFrame, Eval.outcome_between]
  refine ⟨w', hle, ⟨hreceived', { hm' with current := { hm'.current with frames := ?_ } }⟩, hQ⟩
  exact fun frame hframe => hm'.current.frames frame (List.mem_of_mem_tail hframe)

theorem withActivation {a : Activation} (ha : a.Conforms H w) (h : Retains H c w x Q) :
    Retains H c w (Eval.withActivation a x) Q := by
  rintro m ⟨hreceived, hm⟩
  have henter : H.tracking.Tracks w (m.enter a) := ⟨hreceived, { hm with
    current := ha, callers := List.forall_mem_cons.mpr ⟨hm.current, hm.callers⟩ }⟩
  obtain ⟨w', hle, ⟨hreceived', hm'⟩, hQ⟩ := h (m.enter a) henter
  rw [Eval.withActivation, Eval.outcome_between]
  refine ⟨w', hle, ?_, hQ⟩
  unfold Machine.leave
  split
  · rename_i caller callers hcallers
    obtain ⟨hcaller, hcallers'⟩ := List.forall_mem_cons.mp (hcallers ▸ hm'.callers)
    exact ⟨hreceived', { hm' with current := hcaller, callers := hcallers' }⟩
  · exact ⟨hreceived', hm'⟩

end Retains

/-- **That evaluations hold what may be held is a logic of pairs** that says nothing about the
second side. -/
def PairLogic.holding (H : Holding) (c : Context) (hc : H.Suits c) : PairLogic where
  toSides := H.sides
  definitions := H.definitions
  Holds w _ _ x _ Q := Retains H c w x fun w' a => ∃ a', Q w' a a'
  injective := Function.injective_id
  globals _ _ := rfl
  inner := hc.inner
  writes := hc.writes
  mono := H.mono
  plain := H.plain
  builtin _ := H.native
  modules := hc.modules
  items h := (H.array.mp h).2
  members h := H.object.mp h
  definition h := (H.closure.mp h).1
  keysMono := H.keysMono
  allowedKeys := hc.allowed
  result h := Learns.result ⟨_, h⟩
  bind h hf := Learns.bind h fun w' a hle ⟨a', ha⟩ => hf w' a a' hle ha
  fail e := Learns.fail e
  ofCall h := h
  ofPlaces h := h
  ofBlock h := h
  tick := Learns.same Learns.tick
  charge bytes := Learns.same (Learns.charge bytes)
  limits := Learns.same Learns.limits
  now := Learns.same (Learns.counter fun _ => ⟨⟨rfl, rfl, rfl, rfl, rfl⟩, rfl, rfl⟩)
  random := Learns.same Learns.random
  isHelper _ := Learns.same (Learns.counter fun _ => ⟨⟨rfl, rfl, rfl, rfl, rfl⟩, rfl, rfl⟩)
  isLocal _ := Learns.same (Learns.counter fun _ => ⟨⟨rfl, rfl, rfl, rfl, rfl⟩, rfl, rfl⟩)
  isDeclared name := Learns.same (Learns.isDeclared name)
  lookup? name := Learns.weaken (Retains.lookup? hc name) fun _ _ _ h => ⟨_, h, rfl⟩
  newArray _ h := Learns.paired (Retains.newArray hc h)
  newObject h := Learns.paired (Retains.newObject h)
  newClosure _ hf := Learns.paired (Retains.newClosure hf)
  plainArray _ h := Learns.paired (Retains.plainArray (hc.listed h) fun v hv =>
    H.plain (h.isPlain v hv))
  plainObject _ h := Learns.paired (Retains.plainObject fun p hp =>
    ⟨(h p hp).1, H.plain (h p hp).2⟩)
  entries h := Learns.paired (Retains.entries hc h)
  parseJson s := Learns.paired (Retains.parseJson hc s)
  fetch url := Learns.paired (Retains.fetch url)
  runHost _ h := Learns.paired (Retains.runHost hc h)
  assign target hkeys hv := Learns.same (Retains.assign hc target hkeys hv)
  changeInPlace op hargs htarget := Learns.paired (Retains.changeInPlace hc op hargs fun w =>
    Learns.weaken (htarget w) fun _ _ _ ⟨_, hkeys, _⟩ => hkeys)
  declare name constant hv := Learns.same (Retains.declare name constant hv)
  complete hv := Learns.same (Retains.complete hv)
  takeCompletion := Learns.paired Retains.takeCompletion
  noteExport _ := Learns.same (Learns.counter fun _ => ⟨⟨rfl, rfl, rfl, rfl, rfl⟩, rfl, rfl⟩)
  setDefault hv := Learns.same (Retains.setDefault hv)
  withFrame := Retains.withFrame
  loop hgo hturn := Learns.loop (fun w => Learns.weaken (hgo w) fun _ _ _ _ => trivial)
    fun w => Learns.weaken (hturn w) fun _ _ _ ⟨_, hend, _⟩ => hend
  withActivation hf hargs hx := Retains.withActivation (Eval.conforms_activationOf hf hargs) hx

/-! ## Programs and modules -/

namespace Retains
open Learns
variable {c : Context} (hc : H.Suits c) (body : List Stmt)
  (hbody : ∀ f ∈ Stmt.functionsOf body, H.definitions f)
  (hwrites : ∀ d ∈ Stmt.partsOf body, d.WritesAmong H.writable)
include hc hbody hwrites

theorem program : Retains H c w (Eval.program body) H.Fits := by
  refine bind limits fun w₁ limits _ _ => ?_
  have hcall := PairLogic.callVia
    (PairLogic.enter (L := .holding H c hc) (limits.callDepth - 1))
  exact ofPaired (PairLogic.programWith hcall w₁ hbody hwrites)

theorem module : Retains H c w (Eval.module body) fun w' out =>
    (∀ p ∈ out.bindings, H.Fits w' p.2) ∧ ∀ p ∈ out.exports, H.Fits w' p.2 := by
  have hexports : Security.isDenied "exports" = false := by decide
  unfold Eval.module
  refine bind (plainObject (List.forall_mem_nil _)) fun w₁ exports hle₁ hfits => ?_
  refine bind (plainObject (List.forall_mem_singleton.mpr ⟨hc.allowed hexports, hfits⟩))
    fun w₂ v hle₂ hv => ?_
  refine bind (declare "module" false hv) fun w₃ _ hle₃ _ => ?_
  refine bind (declare "exports" false (H.mono hle₃ (H.mono hle₂ hfits))) fun w₄ _ _ _ => ?_
  refine bind (program hc body hbody hwrites) fun w₅ _ _ _ => bind get fun w₆ m _ ⟨_, hm⟩ => ?_
  exact result (Eval.forall_collect (fun id members h p hp => (H.object.mp h p hp).2)
    hm.current.frames hm.defaultExport)

end Retains
end Stencil.Script
