import Stencil.Proofs.Script.Steps
import Stencil.Proofs.Script.Loosening
import Stencil.Proofs.Script.Loosening.Values

/-! # Machines with loosened constants

A machine is like another one with **loosened** constants if both are in the same state, but for the
definitions of functions and for names that are constant in the first one only
(`Machine.Loosened`).  A second run **follows** a first one (`Follows`) if it ends with the same
error or with a result that is related; and if that is excused, it may end in any way when the first
one fails because a constant would be assigned.
-/
namespace Stencil.Script

/-! ## Blocks and activations -/

section
variable (D : Redefinition) (X : List String)

/-- The bindings have the same value, and only the first one may be constant alone. -/
structure Binding.Loosened (x : String) (b b' : Binding) : Prop where
  value : b.value.Redefined D b'.value
  constant : Loosens X x b.constant b'.constant

/-- The blocks bind the same names in the same order. -/
def Frame.Loosened : Frame → Frame → Prop :=
  List.Forall₂ fun p p' => p'.1 = p.1 ∧ p.2.Loosened D X p.1 p'.2

/-- The activations have the same names with the same values. -/
structure Activation.Loosened (a a' : Activation) : Prop where
  frames : List.Forall₂ (Frame.Loosened D X) a.frames a'.frames
  captured : SameMembers (Value.Redefined D) a.captured a'.captured
  siblings : a'.siblings = a.siblings

/-- The machines are in the same state, as far as steps depend on it. -/
structure Machine.Loosened (m m' : Machine) : Prop where
  current : m.current.Loosened D X m'.current
  waiting : m'.callers.isEmpty = m.callers.isEmpty
  ticks : m'.ticks = m.ticks
  allocated : m'.allocated = m.allocated
  next : m'.next = m.next
  seed : m'.seed = m.seed
  completion : m.completion.Redefined D m'.completion

end

section
variable {D : Redefinition} {X : List String} {x : String} {b b' : Binding} {frame frame' : Frame}
  {frames frames' : List Frame} {a a' : Activation}

theorem Frame.Loosened.lookup (h : frame.Loosened D X frame') (x : String) :
    Option.Rel (Binding.Loosened D X x) (frame.lookup x) (frame'.lookup x) := by
  induction h with
  | nil => exact .none
  | @cons p p' rest rest' hp _ ih =>
    rw [List.lookup_cons, List.lookup_cons, hp.1]
    cases hx : x == p.1 with
    | true => exact .some (eq_of_beq hx ▸ hp.2)
    | false => exact ih

theorem Frame.Loosened.insertMember (h : frame.Loosened D X frame') (hb : b.Loosened D X x b') :
    Frame.Loosened D X (Json.insertMember x b frame) (Json.insertMember x b' frame') := by
  induction h with
  | nil => exact .cons ⟨rfl, hb⟩ .nil
  | @cons p p' rest rest' hp hrest ih =>
    rw [Json.insertMember, Json.insertMember, hp.1]
    split
    · rename_i hkey
      exact .cons ⟨rfl, hkey ▸ hb⟩ hrest
    · exact .cons ⟨rfl, hp.2⟩ ih

theorem findBinding?_loosened (h : List.Forall₂ (Frame.Loosened D X) frames frames') (x : String) :
    Option.Rel (Binding.Loosened D X x) (findBinding? x frames) (findBinding? x frames') := by
  induction h with
  | nil => exact .none
  | @cons frame frame' outer outer' hframe _ ih =>
    have hx := hframe.lookup x
    unfold findBinding? at ih ⊢
    rw [List.findSome?_cons, List.findSome?_cons]
    generalize frame.lookup x = o at hx
    generalize frame'.lookup x = o' at hx
    cases hx with
    | none => exact ih
    | some hb => exact .some hb

theorem Activation.Loosened.local? (h : a.Loosened D X a') (x : String) :
    Option.Rel (Value.Redefined D) (a.local? x) (a'.local? x) := by
  have hfound := findBinding?_loosened h.frames x
  have hcaptured := h.captured.lookup x
  unfold Activation.local?
  generalize findBinding? x a.frames = o at hfound
  generalize findBinding? x a'.frames = o' at hfound
  cases hfound with
  | none => simpa using hcaptured
  | some hb => exact .some hb.value

/-- Functions take the same locals with them. -/
theorem Activation.Loosened.snapshot (h : a.Loosened D X a') :
    SameMembers (Value.Redefined D) (Eval.snapshot a) (Eval.snapshot a') := by
  have hframe : ∀ {frame frame' : Frame}, frame.Loosened D X frame' →
      SameMembers (Value.Redefined D) (frame.map fun p => (p.1, p.2.value))
        (frame'.map fun p => (p.1, p.2.value)) := fun h =>
    List.rel_map (fun _ _ hp => ⟨hp.1, hp.2.value⟩) h
  have hlocals := List.rel_flatMap h.frames fun _ _ h => hframe h
  exact SameMembers.foldl_found (List.rel_append hlocals h.captured) .nil

/-! ### Steps on names -/

section
variable {K : Comparison} {α : Type} {Q : α → α → Prop} {step step' : SlotStep α}

/-- Within a block that binds the name the step acts on both sides. -/
theorem Frame.Loosened.inFrame (h : SlotStep.Alike K (Value.Redefined D) Q step step')
    (hframe : frame.Loosened D X frame') (x : String) :
    ((onBinding.inFrame x step frame).1 = none ∧ (onBinding.inFrame x step' frame').1 = none ∧
      Frame.Loosened D X (onBinding.inFrame x step frame).2 (onBinding.inFrame x step' frame').2) ∨
    ∃ r r', (onBinding.inFrame x step frame).1 = some r ∧
      (onBinding.inFrame x step' frame').1 = some r' ∧
      K.Holds (fun a a' => Q a a' ∧ Frame.Loosened D X (onBinding.inFrame x step frame).2
        (onBinding.inFrame x step' frame').2) r r' := by
  induction hframe with
  | nil => exact .inl ⟨rfl, rfl, .nil⟩
  | @cons p p' rest rest' hp hrest ih =>
    unfold onBinding.inFrame
    rw [hp.1]
    split
    · refine .inr ⟨_, _, rfl, rfl, K.imp (h _ _ hp.2.value) fun _ _ ha => ⟨ha.1, ?_⟩⟩
      exact .cons ⟨rfl, ha.2, hp.2.constant⟩ hrest
    · refine ih.imp (fun hnone => ⟨hnone.1, hnone.2.1, .cons ⟨rfl, hp.2⟩ hnone.2.2⟩) ?_
      rintro ⟨r, r', hr, hr', ha⟩
      exact ⟨r, r', hr, hr', K.imp ha fun _ _ ha => ⟨ha.1, .cons ⟨rfl, hp.2⟩ ha.2⟩⟩

/-- A step on a name acts on both sides, if the name is bound. -/
theorem onBinding_loosened (h : SlotStep.Alike K (Value.Redefined D) Q step step')
    (hframes : List.Forall₂ (Frame.Loosened D X) frames frames') (x : String) :
    ((onBinding x step frames).1 = none ∧ (onBinding x step' frames').1 = none) ∨
    ∃ r r', (onBinding x step frames).1 = some r ∧ (onBinding x step' frames').1 = some r' ∧
      K.Holds (fun a a' => Q a a' ∧ List.Forall₂ (Frame.Loosened D X) (onBinding x step frames).2
        (onBinding x step' frames').2) r r' := by
  induction hframes with
  | nil => exact .inl ⟨rfl, rfl⟩
  | @cons frame frame' outer outer' hframe houter ih =>
    have hinner := hframe.inFrame h x
    unfold onBinding
    generalize onBinding.inFrame x step frame = run at hinner
    generalize onBinding.inFrame x step' frame' = run' at hinner
    obtain ⟨o, inner⟩ := run
    obtain ⟨o', inner'⟩ := run'
    rcases hinner with ⟨ho, ho', hinner⟩ | ⟨r, r', ho, ho', ha⟩
    · obtain rfl : o = none := ho
      obtain rfl : o' = none := ho'
      refine ih.imp id ?_
      rintro ⟨r, r', hr, hr', ha⟩
      exact ⟨r, r', hr, hr', K.imp ha fun _ _ ha => ⟨ha.1, .cons hinner ha.2⟩⟩
    · obtain rfl : o = some r := ho
      obtain rfl : o' = some r' := ho'
      exact .inr ⟨r, r', rfl, rfl, K.imp ha fun _ _ ha => ⟨ha.1, .cons ha.2 houter⟩⟩

end

/-! ### Activations that are begun -/

theorem Activation.Loosened.activationOf {id : Identity} {f f' : FunctionDef}
    {captured captured' : List (String × Value)} {siblings : Siblings} (hf : D.Defines f f')
    (hcaptured : SameMembers (Value.Redefined D) captured captured') {args args' : List Value}
    (hargs : List.Forall₂ (Value.Redefined D) args args') :
    (Eval.activationOf (.closure id f captured siblings) f captured siblings args).Loosened D X
      (Eval.activationOf (.closure id f' captured' siblings) f' captured' siblings args') := by
  have hparams : ∀ (params : List (String × Nat)) {frame frame' : Frame},
      frame.Loosened D X frame' → Frame.Loosened D X
        (params.foldl (fun frame param =>
          Json.insertMember param.1 ⟨Value.argument args param.2, false⟩ frame) frame)
        (params.foldl (fun frame param =>
          Json.insertMember param.1 ⟨Value.argument args' param.2, false⟩ frame) frame') := by
    intro params
    induction params with
    | nil => exact fun hframe => hframe
    | cons param params ih =>
      exact fun hframe => ih (hframe.insertMember
        ⟨(Value.Redefined.resemblance D).argument hargs param.2, .inl rfl⟩)
  have hself : (Value.closure id f captured siblings).Redefined D
      (.closure id f' captured' siblings) := .ofClosure hf hcaptured
  unfold Eval.activationOf
  rw [D.name hf, D.params hf, D.isArrow hf]
  refine ⟨.cons (hparams _ ?_) .nil, hcaptured, rfl⟩
  rcases f.name with _ | name
  · exact .nil
  · cases f.isArrow with
    | true => exact .nil
    | false => exact .cons ⟨rfl, hself, .inl rfl⟩ .nil

end

/-! ## Runs that follow others -/

/-- What is thrown where a constant would be assigned. -/
def Eval.constantAssigned : ScriptError :=
  .wrongType "Assignment to constant variable."

/-- Answers that are related, or the same error; or any answer to the error that a constant would be
assigned, if that is excused. -/
inductive Follows (excused : Prop) {α : Type} (Q : α → α → Prop) :
    Except ScriptError α → Except ScriptError α → Prop
  | ok {a a' : α} (h : Q a a') : Follows excused Q (.ok a) (.ok a')
  | error (e : ScriptError) : Follows excused Q (.error e) (.error e)
  | constant (h : excused) (r : Except ScriptError α) :
    Follows excused Q (.error Eval.constantAssigned) r

section
variable {excused : Prop} {α : Type} {P Q : α → α → Prop} {r r' : Except ScriptError α}

theorem Follows.imp (h : Follows excused P r r') (hPQ : ∀ a a', P a a' → Q a a') :
    Follows excused Q r r' := by
  cases h with
  | ok h => exact .ok (hPQ _ _ h)
  | error e => exact .error e
  | constant h => exact .constant h _

/-- Answers are compared by whether they follow each other. -/
def Follows.comparison (excused : Prop) : Comparison where
  Holds := Follows excused
  ok := .ok
  fail _ := .error _
  imp := .imp

end

/-- What steps leave: machines with loosened constants, in the same activations. -/
structure Machine.Leaves (D : Redefinition) (X : List String) (m m' m₁ m₁' : Machine) : Prop where
  loosened : m₁.Loosened D X m₁'
  callers : m₁.callers = m.callers
  callers' : m₁'.callers = m'.callers

theorem Machine.Loosened.leaves {D : Redefinition} {X : List String} {m m' : Machine}
    (h : m.Loosened D X m') : m.Leaves D X m' m m' :=
  ⟨h, rfl, rfl⟩

/-- From machines with loosened constants the second step follows the first one, and leaves such
machines. -/
def RunFollows (c : Context) (D : Redefinition) (excused : Prop) (X : List String) {α : Type}
    (x x' : Eval α) (Q : α → α → Prop) : Prop :=
  ∀ m m' : Machine, m.Loosened D X m' →
    Follows excused (fun a a' => Q a a' ∧ m.Leaves D X m' (x.outcome c m).2 (x'.outcome c m').2)
      (x.outcome c m).1 (x'.outcome c m').1

namespace RunFollows
variable {c : Context} {D : Redefinition} {excused : Prop} {X : List String} {α β : Type}
  {P Q : α → α → Prop} {x x' : Eval α}

/-! ### Composition -/

theorem result {a a' : α} (h : Q a a') : RunFollows c D excused X (pure a) (pure a') Q :=
  fun _ _ hm => .ok ⟨h, hm.leaves⟩

theorem fail (e : ScriptError) : RunFollows c D excused X (throw e) (throw e) Q :=
  fun _ _ _ => .error e

theorem bind {R : β → β → Prop} {f f' : α → Eval β} (hx : RunFollows c D excused X x x' P)
    (hf : ∀ a a', P a a' → RunFollows c D excused X (f a) (f' a') R) :
    RunFollows c D excused X (x >>= f) (x' >>= f') R := by
  intro m m' hm
  have hfirst := hx m m' hm
  rw [Eval.outcome_bind, Eval.outcome_bind]
  generalize x.outcome c m = run at hfirst ⊢
  generalize x'.outcome c m' = run' at hfirst ⊢
  obtain ⟨r, m₁⟩ := run
  obtain ⟨r', m₁'⟩ := run'
  dsimp only at hfirst ⊢
  cases hfirst with
  | ok h =>
    obtain ⟨ha, hleaves⟩ := h
    refine (hf _ _ ha m₁ m₁' hleaves.loosened).imp fun b b' ⟨hb, hleaves'⟩ => ⟨hb, ?_⟩
    exact ⟨hleaves'.loosened, hleaves'.callers.trans hleaves.callers,
      hleaves'.callers'.trans hleaves.callers'⟩
  | error e => exact .error e
  | constant h => exact .constant h _

theorem weaken (h : RunFollows c D excused X x x' P) (hPQ : ∀ a a', P a a' → Q a a') :
    RunFollows c D excused X x x' Q :=
  fun m m' hm => (h m m' hm).imp fun a a' ⟨ha, hleaves⟩ => ⟨hPQ a a' ha, hleaves⟩

/-- A sequence whose first step gives the same on both sides. -/
theorem seq {R : β → β → Prop} {f f' : α → Eval β}
    (hx : RunFollows c D excused X x x' fun a a' => a' = a)
    (hf : ∀ a, RunFollows c D excused X (f a) (f' a) R) :
    RunFollows c D excused X (x >>= f) (x' >>= f') R :=
  bind hx fun a _ ha => ha ▸ hf a

/-- A step that reads what is the same on both sides, and changes nothing. -/
theorem reads (h : ∀ m m' : Machine, m.Loosened D X m' →
    ∃ a a', x.outcome c m = (.ok a, m) ∧ x'.outcome c m' = (.ok a', m') ∧ Q a a') :
    RunFollows c D excused X x x' Q := by
  intro m m' hm
  obtain ⟨a, a', hrun, hrun', ha⟩ := h m m' hm
  rw [hrun, hrun']
  exact .ok ⟨ha, hm.leaves⟩

/-- The same pure step on both sides. -/
theorem ofExcept (r : Except ScriptError α) (h : ∀ a, r = .ok a → Q a a) :
    RunFollows c D excused X (Eval.ofExcept r) (Eval.ofExcept r) Q := by
  cases r with
  | ok a => exact result (h a rfl)
  | error e => exact fail e

/-- A check in front of a step. -/
theorem guard {b : Prop} [Decidable b] {e : ScriptError} (h : RunFollows c D excused X x x' Q) :
    RunFollows c D excused X (if b then do let _ : Unit ← throw e; x else x)
      (if b then do let _ : Unit ← throw e; x' else x') Q := by
  split
  · exact bind (P := fun _ _ => False) (fail e) fun _ _ hf => hf.elim
  · exact h

/-! ### What is read and counted -/

theorem tick : RunFollows c D excused X Eval.tick Eval.tick fun a a' => a' = a := by
  intro m m' hm
  rw [Eval.outcome_tick, Eval.outcome_tick, hm.ticks]
  generalize (if (m.ticks + 1) % pollInterval = 0 then Eval.poll c.budget (m.ticks + 1) else .ok ())
    = r
  cases r with
  | ok a => exact .ok ⟨rfl, { hm with ticks := rfl }, rfl, rfl⟩
  | error e => exact .error e

theorem charge (bytes : Nat) :
    RunFollows c D excused X (Eval.charge bytes) (Eval.charge bytes) fun a a' => a' = a := by
  intro m m' hm
  rw [Eval.outcome_charge, Eval.outcome_charge, hm.allocated]
  split
  · exact .error _
  · exact .ok ⟨rfl, { hm with allocated := rfl }, rfl, rfl⟩

theorem limits : RunFollows c D excused X Eval.limits Eval.limits fun a a' => a' = a :=
  reads fun _ _ _ => ⟨_, _, rfl, rfl, rfl⟩

theorem bindLimits {f f' : Limits → Eval α}
    (h : RunFollows c D excused X (f c.limits) (f' c.limits) Q) :
    RunFollows c D excused X (Eval.limits >>= f) (Eval.limits >>= f') Q := by
  intro m m' hm
  rw [Eval.outcome_bind, Eval.outcome_bind, Eval.outcome_limits, Eval.outcome_limits]
  exact h m m' hm

theorem now : RunFollows c D excused X Eval.now Eval.now fun a a' => a' = a :=
  reads fun _ _ _ => ⟨_, _, rfl, rfl, rfl⟩

theorem isHelper (name : String) : RunFollows c D excused X (Eval.isHelper name)
    (Eval.isHelper name) fun a a' => a' = a :=
  reads fun _ _ _ => ⟨_, _, rfl, rfl, rfl⟩

theorem random : RunFollows c D excused X Native.random Native.random fun a a' => a' = a := by
  obtain ⟨x, next, h⟩ := Eval.exists_outcome_random
  intro m m' hm
  rw [h, h, hm.seed]
  exact .ok ⟨rfl, { hm with seed := rfl }, rfl, rfl⟩

theorem isLocal (name : String) : RunFollows c D excused X (Eval.isLocal name)
    (Eval.isLocal name) fun a a' => a' = a :=
  reads fun _ _ hm => ⟨_, _, rfl, rfl,
    isSome_eq_of_rel (findBinding?_loosened hm.current.frames name)⟩

theorem isDeclared (name : String) : RunFollows c D excused X (Eval.isDeclared name)
    (Eval.isDeclared name) fun a a' => a' = a := by
  have hframes : RunFollows c D excused X Eval.frames Eval.frames
      (List.Forall₂ (Frame.Loosened D X)) :=
    reads fun _ _ hm => ⟨_, _, rfl, rfl, hm.current.frames⟩
  refine bind hframes fun frames frames' h => ?_
  cases h with
  | nil => exact result rfl
  | cons hframe _ => exact result (isSome_eq_of_rel (hframe.lookup name))

theorem fetch (url : String) : RunFollows c D excused X (Native.fetch url) (Native.fetch url)
    (Value.Redefined D) := by
  intro m m' hm
  rw [Eval.outcome_fetch, Eval.outcome_fetch]
  cases c.host.fetch with
  | none => exact .error _
  | some answer =>
    dsimp only
    rw [hm.ticks]
    cases Eval.poll c.budget m.ticks with
    | error e => exact .error e
    | ok u =>
      dsimp only [Except.bind]
      cases answer url with
      | body text => exact .ok ⟨.refl D _, { hm with ticks := rfl }, rfl, rfl⟩
      | failure | pending => exact .error _

/-! ### Values that are made -/

theorem fresh : RunFollows c D excused X Eval.fresh Eval.fresh fun id id' => id' = id := by
  intro m m' hm
  rw [Eval.outcome_fresh, Eval.outcome_fresh, hm.next]
  exact .ok ⟨rfl, { hm with next := rfl }, rfl, rfl⟩

theorem checkHeights (level : Nat) {vs vs' : List Value}
    (h : List.Forall₂ (Value.Redefined D) vs vs') :
    RunFollows c D excused X (Eval.ofExcept (Value.checkHeights c.limits.valueDepth level vs))
      (Eval.ofExcept (Value.checkHeights c.limits.valueDepth level vs')) fun a a' => a' = a := by
  rw [Value.checkHeights_redefined h]
  exact ofExcept _ fun _ _ => rfl

theorem plainArray {items items' : Array Value}
    (h : List.Forall₂ (Value.Redefined D) items.toList items'.toList) :
    RunFollows c D excused X (Eval.plainArray items) (Eval.plainArray items')
      (Value.Redefined D) :=
  seq fresh fun _ => result (.ofItems h)

theorem plainObject {members members' : List (String × Value)}
    (h : SameMembers (Value.Redefined D) members members') :
    RunFollows c D excused X (Eval.plainObject members) (Eval.plainObject members')
      (Value.Redefined D) :=
  seq fresh fun _ => result (.ofMembers h)

theorem newArray {items items' : Array Value}
    (h : List.Forall₂ (Value.Redefined D) items.toList items'.toList) :
    RunFollows c D excused X (Eval.newArray items) (Eval.newArray items') (Value.Redefined D) := by
  have hsize : items'.size = items.size := h.length_eq.symm
  unfold Eval.newArray
  refine bindLimits ?_
  rw [hsize]
  refine guard (seq (charge _) fun _ => seq (checkHeights 1 h) fun _ => ?_)
  exact plainArray h

theorem newList {items items' : List Value} (h : List.Forall₂ (Value.Redefined D) items items') :
    RunFollows c D excused X (Eval.newList items) (Eval.newList items') (Value.Redefined D) :=
  newArray h

theorem newObject {members members' : List (String × Value)}
    (h : SameMembers (Value.Redefined D) members members') :
    RunFollows c D excused X (Eval.newObject members) (Eval.newObject members')
      (Value.Redefined D) := by
  unfold Eval.newObject
  rw [h.length_eq]
  refine seq (charge _) fun _ => bindLimits ?_
  exact seq (checkHeights 1 h.values) fun _ => plainObject h

/-- Pairs of keys and values, each an array of its own. -/
theorem entries {members members' : List (String × Value)}
    (h : SameMembers (Value.Redefined D) members members') :
    RunFollows c D excused X
      (do Eval.newList (← members.mapM fun (key, v) => Eval.plainArray #[.string key, v]))
      (do Eval.newList (← members'.mapM fun (key, v) => Eval.plainArray #[.string key, v]))
      (Value.Redefined D) := by
  refine bind (P := List.Forall₂ (Value.Redefined D)) ?_ fun _ _ hvs => newList hvs
  induction h with
  | nil => exact result .nil
  | @cons p p' rest rest' hp _ ih =>
    obtain ⟨key, v⟩ := p
    obtain ⟨key', v'⟩ := p'
    obtain ⟨rfl, hv⟩ : key' = key ∧ v.Redefined D v' := hp
    rw [List.mapM_cons, List.mapM_cons]
    refine bind (plainArray (.cons (.refl D _) (.cons hv .nil))) fun u u' hu => ?_
    exact bind ih fun vs vs' hvs => result (.cons hu hvs)

theorem parseJson (s : String) : RunFollows c D excused X (Native.parseJson s)
    (Native.parseJson s) (Value.Redefined D) := by
  intro m m' hm
  rw [Eval.outcome_parseJson, Eval.outcome_parseJson, hm.next]
  cases Json.parse s with
  | error e => exact .error _
  | ok json => exact .ok ⟨.refl D _, { hm with next := rfl }, rfl, rfl⟩

/-- A function takes the same locals with it. -/
theorem newClosure {f f' : FunctionDef} (hf : D.Defines f f') :
    RunFollows c D excused X (Eval.newClosure f) (Eval.newClosure f') (Value.Redefined D) := by
  intro m m' hm
  have hsnapshot := hm.current.snapshot
  rw [Eval.outcome_newClosure, Eval.outcome_newClosure,
    Value.checkHeights_redefined hsnapshot.values, hm.current.siblings, hm.next]
  split
  · exact .ok ⟨.ofClosure hf hsnapshot, { hm with next := rfl }, rfl, rfl⟩
  · exact .error _

/-! ### Names -/

theorem lookup? (name : String) : RunFollows c D excused X (Eval.lookup? name)
    (Eval.lookup? name) (Option.Rel (Value.Redefined D)) := by
  have hrefl : ∀ o : Option Value, Option.Rel (Value.Redefined D) o o := by
    rintro (_ | v)
    · exact .none
    · exact .some (.refl D v)
  intro m m' hm
  have hlocal := hm.current.local? name
  rw [Eval.outcome_lookup?_eq, Eval.outcome_lookup?_eq]
  generalize m.current.local? name = o at hlocal
  generalize m'.current.local? name = o' at hlocal
  cases hlocal with
  | some hv => exact .ok ⟨.some hv, hm.leaves⟩
  | none =>
    dsimp only
    rw [Eval.outcome_outer?, Eval.outcome_outer?, hm.current.siblings, hm.next]
    rcases m.current.siblings.lookup name with _ | v | ⟨f, captured⟩
    · exact .ok ⟨hrefl _, hm.leaves⟩
    · exact .ok ⟨hrefl _, hm.leaves⟩
    · exact .ok ⟨hrefl _, { hm with next := rfl }, rfl, rfl⟩

theorem lookup (name : String) : RunFollows c D excused X (Eval.lookup name) (Eval.lookup name)
    (Value.Redefined D) := by
  refine bind (lookup? name) ?_
  rintro _ _ (hv | _)
  · exact result hv
  · exact fail _

/-- A name that is not constant any more may be written unless it is written itself, which is
excused then. -/
theorem checkWritable (target : Target) (h : target.keys = [] → target.root ∈ X → excused) :
    RunFollows c D excused X (Eval.checkWritable target) (Eval.checkWritable target)
      fun a a' => a' = a := by
  have hframes : RunFollows c D excused X Eval.frames Eval.frames
      (List.Forall₂ (Frame.Loosened D X)) :=
    reads fun _ _ hm => ⟨_, _, rfl, rfl, hm.current.frames⟩
  refine bind hframes fun frames frames' hrel => ?_
  have hbinding := findBinding?_loosened hrel target.root
  generalize findBinding? target.root frames = o at hbinding
  generalize findBinding? target.root frames' = o' at hbinding
  cases hbinding with
  | none =>
    refine bind (lookup? target.root) ?_
    rintro _ _ (hv | _)
    · exact fail _
    · exact fail _
  | @some b b' hb =>
    dsimp only
    rcases hb.constant with hsame | ⟨hroot, hconstant, hconstant'⟩
    · rw [hsame]
      split
      · exact fail _
      · exact result rfl
    · rw [hconstant, hconstant', Bool.and_true, Bool.and_false]
      cases hkeys : target.keys with
      | nil => exact fun _ _ _ => .constant (h hkeys hroot) _
      | cons key keys => exact result rfl

theorem onPlace {step step' : SlotStep α} (target : Target)
    (h : target.keys = [] → target.root ∈ X → excused)
    (hstep : SlotStep.Alike (Follows.comparison excused) (Value.Redefined D) Q step step') :
    RunFollows c D excused X (Eval.onPlace target step) (Eval.onPlace target step') Q := by
  intro m m' hm
  have hcheck := checkWritable (c := c) target h m m' hm
  rw [Eval.outcome_onPlace, Eval.outcome_onPlace]
  generalize (Eval.checkWritable target).outcome c m = run at hcheck
  generalize (Eval.checkWritable target).outcome c m' = run' at hcheck
  obtain ⟨r, m₁⟩ := run
  obtain ⟨r', m₁'⟩ := run'
  dsimp only at hcheck ⊢
  cases hcheck with
  | error e => exact .error e
  | constant h => exact .constant h _
  | ok =>
    have hpath := onPath_alike (Value.Redefined.resemblance D) hstep target.keys m.next
      fun k _ => Value.Redefined.encloses _
    rw [hm.next]
    dsimp only
    rcases onBinding_loosened hpath hm.current.frames target.root with
      ⟨hr, hr'⟩ | ⟨r, r', hr, hr', hanswer⟩
    · rw [hr, hr']
      exact .error _
    · rw [hr, hr']
      refine Follows.imp hanswer fun a a' ⟨ha, hframes⟩ => ⟨ha, ?_, rfl, rfl⟩
      exact { hm with current := { hm.current with frames := hframes }, next := rfl }

theorem assign {v v' : Value} (target : Target)
    (h : target.keys = [] → target.root ∈ X → excused) (hv : v.Redefined D v') :
    RunFollows c D excused X (Eval.assign target v) (Eval.assign target v') fun a a' => a' = a := by
  refine bindLimits ?_
  refine onPlace target h fun u u' _ => ?_
  have hheights : Value.checkHeights c.limits.valueDepth target.keys.length [v'] =
      Value.checkHeights c.limits.valueDepth target.keys.length [v] :=
    Value.checkHeights_redefined (.cons hv .nil)
  rw [hheights]
  split
  · exact .ok ⟨rfl, hv⟩
  · split
    · exact .ok ⟨rfl, hv⟩
    · exact .error _

theorem changeInPlace {args args' : List Value} {target target' : Eval Target}
    (op : Method.InPlace) (hargs : List.Forall₂ (Value.Redefined D) args args')
    (htarget : RunFollows c D excused X target target' fun t t' =>
      (t.keys = [] → t.root ∈ X → excused) ∧ t' = t) :
    RunFollows c D excused X (Eval.changeInPlace op args target)
      (Eval.changeInPlace op args' target') (Value.Redefined D) := by
  unfold Eval.changeInPlace
  rw [hargs.length_eq]
  refine seq (charge _) fun _ => bindLimits ?_
  refine bind htarget ?_
  rintro _ t ⟨hplace, rfl⟩
  refine seq fresh fun id => onPlace t hplace fun v v' hv => ?_
  rw [Value.checkHeights_redefined hargs]
  split
  · exact op.onSlot_alike (Value.Redefined.resemblance D) hargs (Value.Redefined.encloses id) _ v v'
      hv
  · exact .error _

/-! ### What is changed -/

theorem declare {v v' : Value} {name : String} {constant constant' : Bool}
    (hconstant : Loosens X name constant constant') (hv : v.Redefined D v') :
    RunFollows c D excused X (Eval.declare name v constant) (Eval.declare name v' constant')
      fun a a' => a' = a := by
  intro m m' hm
  refine .ok ⟨rfl, { hm with current := { hm.current with frames := ?_ } }, rfl, rfl⟩
  show List.Forall₂ _ (Eval.onInnermost (Json.insertMember name ⟨v, constant⟩) m.current.frames)
    (Eval.onInnermost (Json.insertMember name ⟨v', constant'⟩) m'.current.frames)
  have hframes := hm.current.frames
  generalize m.current.frames = frames at hframes
  generalize m'.current.frames = frames' at hframes
  cases hframes with
  | nil => exact .nil
  | cons hframe houter => exact .cons (hframe.insertMember ⟨hv, hconstant⟩) houter

/-- The functions that statements declare are bound one after the other. -/
theorem hoist {body body' : List Stmt}
    (h : List.Forall₂ (fun p p' => p'.1 = p.1 ∧ D.Defines p.2 p'.2) (declarations body)
      (declarations body')) :
    RunFollows c D excused X (Eval.hoist body) (Eval.hoist body') fun a a' => a' = a := by
  rw [Eval.hoist_eq, Eval.hoist_eq]
  generalize declarations body = fs at h
  generalize declarations body' = fs' at h
  induction h with
  | nil => exact result rfl
  | @cons p p' rest rest' hp _ ih =>
    rw [Eval.declareAll_cons, Eval.declareAll_cons, hp.1]
    refine seq (bind (newClosure hp.2) fun v v' hv => ?_) fun _ => ih
    exact declare (.inl rfl) hv

theorem complete {v v' : Value} (hv : v.Redefined D v') :
    RunFollows c D excused X (Eval.complete v) (Eval.complete v') fun a a' => a' = a := by
  intro m m' hm
  simp only [Eval.complete, Eval.outcome_modify, hm.waiting]
  split
  · exact .ok ⟨trivial, { hm with completion := hv }, rfl, rfl⟩
  · exact .ok ⟨trivial, hm.leaves⟩

theorem takeCompletion : RunFollows c D excused X Eval.takeCompletion Eval.takeCompletion
    (Value.Redefined D) :=
  fun _ _ hm => .ok ⟨hm.completion, { hm with completion := .refl D _ }, rfl, rfl⟩

theorem noteExport (s s' : Stmt) :
    RunFollows c D excused X (Eval.noteExport s) (Eval.noteExport s') fun a a' => a' = a :=
  fun _ _ hm => .ok ⟨rfl, { hm with }, rfl, rfl⟩

theorem setDefault (v v' : Value) :
    RunFollows c D excused X (Eval.setDefault v) (Eval.setDefault v') fun a a' => a' = a :=
  fun _ _ hm => .ok ⟨rfl, { hm with }, rfl, rfl⟩

/-! ### Blocks, loops and calls -/

theorem withFrame (h : RunFollows c D excused X x x' Q) :
    RunFollows c D excused X (Eval.withFrame x) (Eval.withFrame x') Q := by
  intro m m' hm
  have hopen : m.openFrame.Loosened D X m'.openFrame :=
    { hm with current := { hm.current with frames := .cons .nil hm.current.frames } }
  rw [Eval.withFrame, Eval.withFrame, Eval.outcome_between, Eval.outcome_between]
  refine (h _ _ hopen).imp fun _ _ ⟨ha, hloosened, hcallers, hcallers'⟩ => ?_
  refine ⟨ha, { hloosened with current := { hloosened.current with frames := ?_ } }, hcallers,
    hcallers'⟩
  have hframes := hloosened.current.frames
  show List.Forall₂ _ (x.outcome c m.openFrame).2.current.frames.tail
    (x'.outcome c m'.openFrame).2.current.frames.tail
  generalize (x.outcome c m.openFrame).2.current.frames = frames at hframes
  generalize (x'.outcome c m'.openFrame).2.current.frames = frames' at hframes
  cases hframes with
  | nil => exact .nil
  | cons _ houter => exact houter

theorem repeatTurns {go go' : Eval Bool} {turn turn' : Eval (Option Flow)} {R : Flow → Flow → Prop}
    (hnormal : R .normal .normal) (hgo : RunFollows c D excused X go go' fun a a' => a' = a)
    (hturn : RunFollows c D excused X turn turn' (Option.Rel R)) (turns : Nat) :
    RunFollows c D excused X (Eval.repeatTurns go turn turns) (Eval.repeatTurns go' turn' turns)
      R := by
  induction turns with
  | zero =>
    have hread : RunFollows c D excused X (MonadReader.read : Eval Context) MonadReader.read
        fun a a' => a' = a :=
      reads fun _ _ _ => ⟨_, _, rfl, rfl, rfl⟩
    exact seq hread fun _ => fail _
  | succ turns ih =>
    unfold Eval.repeatTurns
    refine seq hgo fun goes => ?_
    split
    · unfold Eval.oneTurn
      refine seq tick fun _ => bind hturn ?_
      rintro _ _ (hflow | _)
      · exact result hflow
      · exact ih
    · exact result hnormal

theorem loop {go go' : Eval Bool} {turn turn' : Eval (Option Flow)} {R : Flow → Flow → Prop}
    (hnormal : R .normal .normal) (hgo : RunFollows c D excused X go go' fun a a' => a' = a)
    (hturn : RunFollows c D excused X turn turn' (Option.Rel R)) :
    RunFollows c D excused X (Eval.loop go turn) (Eval.loop go' turn') R := by
  intro m m' hm
  rw [Eval.outcome_loop, Eval.outcome_loop]
  exact repeatTurns hnormal hgo hturn _ m m' hm

/-- In an activation of its own a function is run with constants of its own loosened. -/
theorem withActivation {Y : List String} {a a' : Activation} (ha : a.Loosened D Y a')
    (h : RunFollows c D excused Y x x' Q) :
    RunFollows c D excused X (Eval.withActivation a x) (Eval.withActivation a' x') Q := by
  intro m m' hm
  rw [Eval.withActivation, Eval.withActivation, Eval.outcome_between, Eval.outcome_between]
  refine (h (m.enter a) (m'.enter a') { hm with current := ha, waiting := rfl }).imp
    fun _ _ ⟨hb, hloosened, hcallers, hcallers'⟩ => ⟨hb, ?_⟩
  rw [Machine.leave_eq hcallers, Machine.leave_eq hcallers']
  exact ⟨{ hloosened with current := hm.current, waiting := hm.waiting }, rfl, rfl⟩

end RunFollows
end Stencil.Script
