import Stencil.Proofs.Script.Places
import Stencil.Proofs.Script.StepLogic
import Stencil.Proofs.Script.Steps

/-! # What evaluations leave of the activations

The **stack** of a machine holds the activation that is run and those that wait for it
(`Machine.stack`).  `Kept n r m m'` says what a step of reach `r`, inside which `n` calls may be
nested, may have changed between the machines `m` and `m'`: the waiting activations are the same,
the one that is run has as many blocks as before, an expression bound no names, a call left it as it
was, and the stack was at no moment more than `n` activations higher than at the start.

That every step keeps the activations in this sense, and keeps all values within given sets of
functions, is a logic of steps (`StepLogic.keeping`).  From it follows what calls, expressions,
statements and programs leave of the stack (`stack_restored`).
-/
namespace Stencil.Script

/-- The activations of a machine, the one that is run first. -/
def Machine.stack (m : Machine) : List Activation :=
  m.current :: m.callers

/-- Two machines that differ in nothing but counters and lists of names. -/
structure Machine.Same (m m' : Machine) : Prop where
  current : m'.current = m.current
  callers : m'.callers = m.callers
  completion : m'.completion = m.completion
  defaultExport : m'.defaultExport = m.defaultExport
  peak : m'.peak = m.peak

/-- What a step of reach `r`, inside which `n` calls may be nested, may have done to a machine. -/
structure Kept (n : Nat) (r : Reach) (m m' : Machine) : Prop where
  callers : m'.callers = m.callers
  blocks : m'.current.frames.length = m.current.frames.length
  names : r ≠ .block → r ≠ .program →
    m'.current.frames.map (List.map Prod.fst) = m.current.frames.map (List.map Prod.fst)
  captured : m'.current.captured = m.current.captured
  siblings : m'.current.siblings = m.current.siblings
  call : r = .call → m'.current = m.current
  completion : r ≠ .program → r ≠ .block ∨ m.callers ≠ [] → m'.completion = m.completion
  peak_ge : m.peak ≤ m'.peak
  peak_le : m'.peak ≤ max m.peak (m.stack.length + n)

namespace Kept
variable {n : Nat} {r : Reach} {m m' m'' : Machine}

theorem refl : Kept n r m m :=
  ⟨rfl, rfl, fun _ _ => rfl, rfl, rfl, fun _ => rfl, fun _ _ => rfl, Nat.le_refl _,
    Nat.le_max_left _ _⟩

theorem trans (h : Kept n r m m') (h' : Kept n r m' m'') : Kept n r m m'' where
  callers := h'.callers.trans h.callers
  blocks := h'.blocks.trans h.blocks
  names hb hp := (h'.names hb hp).trans (h.names hb hp)
  captured := h'.captured.trans h.captured
  siblings := h'.siblings.trans h.siblings
  call hr := (h'.call hr).trans (h.call hr)
  completion hr hc := (h'.completion hr (by rwa [h.callers])).trans (h.completion hr hc)
  peak_ge := Nat.le_trans h.peak_ge h'.peak_ge
  peak_le := by
    have h₁ := h.peak_le
    have h₂ := h'.peak_le
    simp only [Machine.stack, List.length_cons, h.callers] at h₁ h₂ ⊢
    omega

/-- A step that touches neither activations nor values. -/
theorem ofSame (h : m.Same m') : Kept n r m m' :=
  ⟨h.callers, by rw [h.current], fun _ _ => by rw [h.current], by rw [h.current],
    by rw [h.current], fun _ => h.current,
    fun _ _ => h.completion, Nat.le_of_eq h.peak.symm,
    Nat.le_trans (Nat.le_of_eq h.peak) (Nat.le_max_left _ _)⟩

theorem ofCall (h : Kept n .call m m') : Kept n r m m' :=
  { h with
    names := fun _ _ => h.names nofun nofun
    call := fun _ => h.call rfl
    completion := fun _ _ => h.completion nofun (.inl nofun) }

theorem ofPlaces (h : Kept n .places m m') : Kept n .block m m' :=
  { h with
    names := fun hb => (hb rfl).elim
    call := nofun
    completion := fun _ _ => h.completion nofun (.inl nofun) }

theorem ofBlock (h : Kept n .block m m') : Kept n .program m m' :=
  { h with
    names := fun _ hp => (hp rfl).elim
    call := nofun
    completion := fun hr => (hr rfl).elim }

/-- A block that is opened and left again. -/
theorem closeFrame (h : Kept n .block m.openFrame m') : Kept n .block m m'.closeFrame where
  callers := h.callers
  blocks := by
    have hblocks := h.blocks
    simp only [Machine.openFrame, List.length_cons] at hblocks
    simp only [Machine.closeFrame, List.length_tail]
    omega
  names hb := (hb rfl).elim
  captured := h.captured
  siblings := h.siblings
  call := nofun
  completion _ hc := h.completion nofun hc
  peak_ge := h.peak_ge
  peak_le := h.peak_le

/-- An activation that is entered and left again. -/
theorem leave {a : Activation} (h : Kept n .block (m.enter a) m') :
    Kept (n + 1) .call m m'.leave := by
  have hcallers : m'.callers = m.current :: m.callers := h.callers
  have hleave : m'.leave = { m' with current := m.current, callers := m.callers } := by
    simp only [Machine.leave, hcallers]
  have hle := h.peak_le
  have hge := h.peak_ge
  simp only [Machine.enter, Machine.stack, List.length_cons] at hle hge
  rw [hleave]
  refine ⟨rfl, rfl, fun _ _ => rfl, rfl, rfl, fun _ => rfl, fun _ _ => ?_, ?_, ?_⟩
  · exact h.completion nofun (.inr (by simp [Machine.enter]))
  · show m.peak ≤ m'.peak
    omega
  · show m'.peak ≤ max m.peak (m.stack.length + (n + 1))
    simp only [Machine.stack, List.length_cons]
    omega

end Kept

/-! ## Values that steps find and make -/

section Found
variable {D : FunctionDef → Prop} {N : Native → Prop} {m : Machine}

theorem within_findBinding? {frames : List Frame} {name : String} {b : Binding}
    (h : ∀ frame ∈ frames, ∀ p ∈ frame, p.2.value.Within D N)
    (hb : findBinding? name frames = some b) : b.value.Within D N := by
  obtain ⟨frame, hframe, hlookup⟩ := List.exists_of_findSome?_eq_some hb
  exact h frame hframe (name, b) (mem_of_lookup hlookup)

/-- What a read-only name stands for is within the sets. -/
theorem within_scope {c : Context} (hN : ∀ b, N (.builtin b)) (hc : c.Within D N) {name : String}
    {v : Value} (hv : c.scope.lookup? name = some v) : v.Within D N := by
  simp only [Scope.lookup?, Option.orElse_eq_orElse, Option.orElse_eq_or, Option.or_eq_some_iff]
    at hv
  rcases hv with hv | ⟨-, hv | ⟨-, hv | ⟨-, hv⟩⟩⟩
  · exact Value.within_lookup hc.helpers hv
  · exact Value.within_lookup hc.vars hv
  · exact Value.within_lookup hc.capabilities hv
  · exact Value.within_lookup (Globals.within_table hN) hv

/-- What a function captures is within the sets if its activation is. -/
theorem within_snapshot {a : Activation} (h : a.Within D N) :
    ∀ p ∈ Eval.snapshot a, p.2.Within D N := by
  intro p hp
  rcases Eval.mem_snapshot hp with ⟨frame, hframe, q, hq, hpq⟩ | hp
  · exact hpq ▸ h.frames frame hframe q hq
  · exact h.captured p hp

/-- A block that is opened binds nothing. -/
theorem Machine.Within.openFrame (h : m.Within D N) : m.openFrame.Within D N where
  current := ⟨List.forall_mem_cons.mpr ⟨List.forall_mem_nil _, h.current.frames⟩,
    h.current.captured, h.current.siblings⟩
  callers := h.callers
  completion := h.completion
  defaultExport := h.defaultExport

theorem Machine.Within.enter {a : Activation} (ha : a.Within D N) (h : m.Within D N) :
    (m.enter a).Within D N where
  current := ha
  callers := List.forall_mem_cons.mpr ⟨h.current, h.callers⟩
  completion := h.completion
  defaultExport := h.defaultExport

mutual

/-- A value made of JSON holds no functions. -/
theorem Value.within_ofJson (next : Identity) : ∀ j : Json, (Value.ofJson next j).1.Within D N
  | .null | .bool _ | .number _ | .string _ => by simp [Value.ofJson]
  | .array items => by
    unfold Value.ofJson
    exact Value.within_array.mpr (Value.within_ofJsonItems (next + 1) (by simp) items)
  | .object members => by
    unfold Value.ofJson
    exact Value.within_object.mpr (Value.within_ofJsonMembers (next + 1) (by simp) members)

theorem Value.within_ofJsonItems (next : Identity) {done : Array Value}
    (h : ∀ v ∈ done, v.Within D N) : ∀ items : List Json,
      ∀ v ∈ (Value.ofJsonItems next done items).1, v.Within D N
  | [] => by
    unfold Value.ofJsonItems
    exact h
  | j :: rest => by
    unfold Value.ofJsonItems
    refine Value.within_ofJsonItems _ (fun v hv => ?_) rest
    rcases Array.mem_push.mp hv with hv | rfl
    · exact h v hv
    · exact Value.within_ofJson next j

theorem Value.within_ofJsonMembers (next : Identity) {done : List (String × Value)}
    (h : ∀ p ∈ done, p.2.Within D N) : ∀ members : List (String × Json),
      ∀ p ∈ (Value.ofJsonMembers next done members).1, p.2.Within D N
  | [] => by
    unfold Value.ofJsonMembers
    exact fun p hp => h p (List.mem_reverse.mp hp)
  | (key, j) :: rest => by
    unfold Value.ofJsonMembers
    exact Value.within_ofJsonMembers _
      (List.forall_mem_cons.mpr ⟨Value.within_ofJson next j, h⟩) rest

end
end Found


/-! ## The logic -/

/-- In the context the step keeps the activations and all values within the sets, and its results
satisfy `Q`. -/
def Keeping (c : Context) (D : FunctionDef → Prop) (N : Native → Prop) {α : Type} (n : Nat)
    (r : Reach) (x : Eval α) (Q : α → Prop) : Prop :=
  ∀ m, m.Within D N →
    Kept n r m (x.outcome c m).2 ∧ (x.outcome c m).2.Within D N ∧
      ∀ a, (x.outcome c m).1 = .ok a → Q a

namespace Keeping
variable {c : Context} {D : FunctionDef → Prop} {N : Native → Prop} {α β : Type} {n : Nat}
  {r : Reach} {P Q : α → Prop} {x : Eval α}

/-- A step that touches neither activations nor values. -/
theorem ofSame (hx : ∀ m : Machine, m.Same (x.outcome c m).2)
    (hQ : ∀ m a, m.Within D N → (x.outcome c m).1 = .ok a → Q a) : Keeping c D N n r x Q := by
  intro m hm
  have h := hx m
  refine ⟨Kept.ofSame h, ?_, fun a => hQ m a hm⟩
  exact ⟨h.current ▸ hm.current, h.callers ▸ hm.callers, h.completion ▸ hm.completion,
    h.defaultExport ▸ hm.defaultExport⟩

/-- A step that touches neither activations nor values and whose result does not matter. -/
theorem counter (hx : ∀ m : Machine, m.Same (x.outcome c m).2) :
    Keeping c D N n r x fun _ => True :=
  ofSame hx fun _ _ _ _ => trivial

theorem result (a : α) (ha : Q a) : Keeping c D N n r (pure a) Q :=
  fun _ hm => ⟨Kept.refl, hm, fun _ h => Except.ok.inj h ▸ ha⟩

theorem fail (e : ScriptError) : Keeping c D N n r (throw e : Eval α) Q :=
  fun _ hm => ⟨Kept.refl, hm, fun _ h => nomatch h⟩

theorem bind {R : β → Prop} {f : α → Eval β} (hx : Keeping c D N n r x P)
    (hf : ∀ a, P a → Keeping c D N n r (f a) R) : Keeping c D N n r (x >>= f) R := by
  intro m hm
  obtain ⟨hkept, hwithin, hP⟩ := hx m hm
  rw [Eval.outcome_bind]
  rcases houtcome : x.outcome c m with ⟨_ | a, m'⟩
  · rw [houtcome] at hkept hwithin
    exact ⟨hkept, hwithin, fun _ h => nomatch h⟩
  · rw [houtcome] at hkept hwithin hP
    obtain ⟨hkept', hrest⟩ := hf a (hP a rfl) m' hwithin
    exact ⟨hkept.trans hkept', hrest⟩

theorem tick : Keeping c D N n r Eval.tick fun _ => True :=
  counter fun m => by
    rw [Eval.outcome_tick]
    exact ⟨rfl, rfl, rfl, rfl, rfl⟩

theorem charge (bytes : Nat) : Keeping c D N n r (Eval.charge bytes) fun _ => True :=
  counter fun m => by
    rw [Eval.outcome_charge]
    split <;> exact ⟨rfl, rfl, rfl, rfl, rfl⟩

theorem parseJson (s : String) : Keeping c D N n r (Native.parseJson s) (·.Within D N) := by
  unfold Native.parseJson
  cases Json.parse s with
  | error e => exact fail _
  | ok json =>
    refine ofSame (fun m => ⟨rfl, rfl, rfl, rfl, rfl⟩) fun m a _ ha => ?_
    exact Except.ok.inj ha ▸ Value.within_ofJson m.next json

theorem fetch (url : String) : Keeping c D N n r (Native.fetch url) (·.Within D N) := by
  refine ofSame (fun m => ?_) fun m a _ ha => ?_
  · rw [Eval.outcome_fetch]
    split <;> exact ⟨rfl, rfl, rfl, rfl, rfl⟩
  · rw [Eval.outcome_fetch] at ha
    split at ha
    · cases ha
    · dsimp only at ha
      cases hpoll : Eval.poll c.budget m.ticks with
      | error e =>
        rw [hpoll] at ha
        cases ha
      | ok u =>
        simp only [hpoll, Except.bind] at ha
        split at ha <;> cases ha
        simp

theorem runHost (hc : c.Within D N) {id : Identity} {name : String} {arity : Nat}
    {args : List Value} (hN : N (.host id name arity)) (hargs : ∀ v ∈ args, v.Within D N) :
    Keeping c D N n r (Native.runHost name args) (·.Within D N) := by
  refine ofSame (fun m => ?_) fun m a _ ha => ?_
  · rw [Eval.outcome_runHost]
    split <;> exact ⟨rfl, rfl, rfl, rfl, rfl⟩
  · rw [Eval.outcome_runHost] at ha
    split at ha
    · rename_i v hv
      exact Except.ok.inj ha ▸ hc.natives id name arity args v hN hargs hv
    · cases ha

theorem get : Keeping c D N n r (MonadState.get : Eval Machine) (·.Within D N) :=
  fun _ hm => ⟨Kept.refl, hm, fun _ h => Except.ok.inj h ▸ hm⟩

theorem read : Keeping c D N n r (MonadReader.read : Eval Context) (· = c) :=
  fun _ hm => ⟨Kept.refl, hm, fun _ h => (Except.ok.inj h).symm⟩

theorem fresh : Keeping c D N n r Eval.fresh fun _ => True :=
  counter fun _ => ⟨rfl, rfl, rfl, rfl, rfl⟩

theorem lookupSibling? (name : String) :
    Keeping c D N n r (Eval.lookupSibling? name) fun v => ∀ w ∈ v, w.Within D N := by
  unfold Eval.lookupSibling?
  refine bind get fun m hm => ?_
  have hfound : ∀ b, m.current.siblings.lookup name = some b → b.Within D N := fun b hb =>
    hm.current.siblings (name, b) (mem_of_lookup hb)
  dsimp only
  split
  · exact result _ (by simp)
  · rename_i v hv
    have := hfound _ hv
    exact result _ (by simpa using this)
  · rename_i f captured hf
    obtain ⟨hdefinition, hcaptured⟩ := ModuleBinding.within_function.mp (hfound _ hf)
    refine bind fresh fun id _ => result _ fun w hw => Option.some.inj hw ▸ ?_
    exact Value.within_closure.mpr ⟨hdefinition, hcaptured, hm.current.siblings⟩

theorem lookup? (hc : c.Within D N) (hN : ∀ b, N (.builtin b)) (name : String) :
    Keeping c D N n r (Eval.lookup? name) fun v => ∀ w ∈ v, w.Within D N := by
  unfold Eval.lookup?
  refine bind get fun m hm => ?_
  dsimp only
  split
  · rename_i b hb
    exact result _ fun w hw => Option.some.inj hw ▸ within_findBinding? hm.current.frames hb
  · split
    · rename_i v hv
      exact result _ fun w hw => Option.some.inj hw ▸ Value.within_lookup hm.current.captured hv
    · refine bind (lookupSibling? name) fun found hfound => ?_
      split
      · exact result _ hfound
      · exact bind read fun c' hc' => result _ fun w hw => within_scope hN hc (hc' ▸ hw)

theorem newClosure {f : FunctionDef} (hf : D f) :
    Keeping c D N n r (Eval.newClosure f) (·.Within D N) := by
  unfold Eval.newClosure
  refine bind get fun m hm => ?_
  have hlimits : Keeping c D N n r Eval.limits fun _ => True :=
    counter fun _ => ⟨rfl, rfl, rfl, rfl, rfl⟩
  refine bind hlimits fun limits _ => ?_
  have hcheck : ∀ y : Except ScriptError Unit, Keeping c D N n r (Eval.ofExcept y) fun _ => True :=
    fun y => counter fun _ => by
      rw [Eval.outcome_ofExcept]
      exact ⟨rfl, rfl, rfl, rfl, rfl⟩
  refine bind (hcheck _) fun _ _ => bind fresh fun id _ => result _ ?_
  exact Value.within_closure.mpr ⟨hf, within_snapshot hm.current, hm.current.siblings⟩

theorem checkWritable (hc : c.Within D N) (hN : ∀ b, N (.builtin b)) (target : Target) :
    Keeping c D N n r (Eval.checkWritable target) fun _ => True := by
  unfold Eval.checkWritable
  have hframes : Keeping c D N n r Eval.frames fun _ => True :=
    counter fun _ => ⟨rfl, rfl, rfl, rfl, rfl⟩
  refine bind hframes fun frames _ => ?_
  split
  · split
    · exact fail _
    · exact result _ trivial
  · refine bind (lookup? hc hN target.root) fun v _ => ?_
    split <;> exact fail _

theorem onPlace (hc : c.Within D N) (hN : ∀ b, N (.builtin b)) (target : Target) {step : SlotStep α}
    (hstep : step.Keeps D N Q) : Keeping c D N n .places (Eval.onPlace target step) Q := by
  unfold Eval.onPlace
  refine bind (checkWritable hc hN target) fun _ _ m hm => ?_
  rw [Eval.outcome_bind, Eval.outcome_modifyGet]
  obtain ⟨hwithin, hanswer⟩ :=
    onBinding_within (onPath_keeps hstep m.next target.keys) target.root hm.current.frames
  have hlength := onBinding_length target.root (onPath step m.next target.keys) m.current.frames
  have hnames := onBinding_names target.root (onPath step m.next target.keys) m.current.frames
  dsimp only
  rcases honto : onBinding target.root (onPath step m.next target.keys) m.current.frames
    with ⟨r, frames⟩
  rw [honto] at hwithin hanswer hlength hnames
  have hmachine : ({ m with
      current := { m.current with frames }
      next := m.next + target.keys.length } : Machine).Within D N :=
    ⟨⟨hwithin, hm.current.captured, hm.current.siblings⟩, hm.callers, hm.completion,
      hm.defaultExport⟩
  have hkept : Kept n .places m { m with
      current := { m.current with frames }
      next := m.next + target.keys.length } :=
    ⟨rfl, hlength, fun _ _ => hnames, rfl, rfl, nofun, fun _ _ => rfl, Nat.le_refl _,
      Nat.le_max_left _ _⟩
  cases r with
  | none => exact ⟨hkept, hmachine, fun _ h => nomatch h⟩
  | some r =>
    rw [Eval.outcome_ofExcept]
    exact ⟨hkept, hmachine, fun a ha => hanswer a (congrArg some ha)⟩

theorem declare (name : String) {v : Value} (constant : Bool) (hv : v.Within D N) :
    Keeping c D N n .block (Eval.declare name v constant) fun _ => True := by
  intro m hm
  simp only [Eval.declare, Eval.outcome_modify]
  refine ⟨⟨rfl, ?_, fun hb => (hb rfl).elim, rfl, rfl, nofun, fun _ _ => rfl, Nat.le_refl _,
    Nat.le_max_left _ _⟩, ?_, fun _ _ => trivial⟩
  · cases h : m.current.frames <;> simp [Eval.onInnermost]
  · refine ⟨⟨fun frame hframe p hp => ?_, hm.current.captured, hm.current.siblings⟩, hm.callers,
      hm.completion, hm.defaultExport⟩
    cases h : m.current.frames with
    | nil => simp [h, Eval.onInnermost] at hframe
    | cons inner outer =>
      obtain ⟨hinner, houter⟩ := List.forall_mem_cons.mp (h ▸ hm.current.frames)
      simp only [h, Eval.onInnermost] at hframe
      rcases List.mem_cons.mp hframe with rfl | hframe
      · rcases mem_insertMember hp with rfl | hp
        · exact hv
        · exact hinner p hp
      · exact houter frame hframe p hp

theorem complete {v : Value} (hv : v.Within D N) :
    Keeping c D N n .block (Eval.complete v) fun _ => True := by
  intro m hm
  simp only [Eval.complete, Eval.outcome_modify]
  split
  · rename_i hcallers
    refine ⟨⟨rfl, rfl, fun _ _ => rfl, rfl, rfl, by rintro ⟨⟩, fun _ h => ?_, Nat.le_refl _,
      Nat.le_max_left _ _⟩, ⟨hm.current, hm.callers, hv, hm.defaultExport⟩, fun _ _ => trivial⟩
    simp_all
  · exact ⟨Kept.refl, hm, fun _ _ => trivial⟩

theorem setDefault {v : Value} (hv : v.Within D N) :
    Keeping c D N n .block (Eval.setDefault v) fun _ => True := fun _ hm =>
  ⟨⟨rfl, rfl, fun _ _ => rfl, rfl, rfl, nofun, fun _ _ => rfl, Nat.le_refl _,
      Nat.le_max_left _ _⟩,
    ⟨hm.current, hm.callers, hm.completion, fun _ hw => Option.some.inj hw ▸ hv⟩,
    fun _ _ => trivial⟩

theorem takeCompletion : Keeping c D N n .program Eval.takeCompletion (·.Within D N) := fun _ hm =>
  ⟨⟨rfl, rfl, fun _ _ => rfl, rfl, rfl, nofun, fun h => (h rfl).elim, Nat.le_refl _,
      Nat.le_max_left _ _⟩,
    ⟨hm.current, hm.callers, Value.within_undefined, hm.defaultExport⟩,
    fun _ h => Except.ok.inj h ▸ hm.completion⟩

theorem random : Keeping c D N n r Native.random fun _ => True :=
  counter fun m => by
    obtain ⟨x, next, h⟩ := Eval.exists_outcome_random
    rw [h]
    exact ⟨rfl, rfl, rfl, rfl, rfl⟩

theorem withFrame (h : Keeping c D N n .block x Q) :
    Keeping c D N n .block (Eval.withFrame x) Q := by
  intro m hm
  obtain ⟨hkept, hwithin, hQ⟩ := h m.openFrame hm.openFrame
  rw [Eval.withFrame, Eval.outcome_between]
  refine ⟨hkept.closeFrame, ⟨⟨fun frame hframe => ?_, hwithin.current.captured,
    hwithin.current.siblings⟩, hwithin.callers, hwithin.completion, hwithin.defaultExport⟩, hQ⟩
  exact hwithin.current.frames frame (List.mem_of_mem_tail hframe)

theorem withActivation {a : Activation} (ha : a.Within D N) (h : Keeping c D N n .block x Q) :
    Keeping c D N (n + 1) .call (Eval.withActivation a x) Q := by
  intro m hm
  obtain ⟨hkept, hwithin, hQ⟩ := h (m.enter a) (hm.enter ha)
  rw [Eval.withActivation, Eval.outcome_between]
  refine ⟨hkept.leave, ?_, hQ⟩
  have hcallers : (x.outcome c (m.enter a)).2.callers = m.current :: m.callers := hkept.callers
  simp only [Machine.leave, hcallers]
  exact ⟨hm.current, hm.callers, hwithin.completion, hwithin.defaultExport⟩

theorem repeatTurns {go : Eval Bool} {turn : Eval (Option Flow)} {R : Flow → Prop}
    (hnormal : R .normal) (hgo : Keeping c D N n .block go fun _ => True)
    (hturn : Keeping c D N n .block turn fun flow => ∀ f ∈ flow, R f) (turns : Nat) :
    Keeping c D N n .block (Eval.repeatTurns go turn turns) R := by
  induction turns with
  | zero => exact bind read fun _ _ => fail _
  | succ turns ih =>
    unfold Eval.repeatTurns
    refine bind hgo fun goes _ => ?_
    split
    · unfold Eval.oneTurn
      refine bind tick fun _ _ => bind hturn fun flow hflow => ?_
      split
      · exact result _ (hflow _ rfl)
      · exact ih
    · exact result _ hnormal

end Keeping

/-- **Keeping the activations, and all values within given sets, is a logic of steps.** -/
def StepLogic.keeping (c : Context) (D : FunctionDef → Prop) (N : Native → Prop)
    (hc : c.Within D N) (hD : ∀ f, D f → ∀ g ∈ f.body.functions, D g)
    (hN : ∀ b, N (.builtin b)) : StepLogic where
  definitions := D
  natives := N
  Holds := Keeping c D N
  inner := hD
  builtin := hN
  result := Keeping.result
  bind := Keeping.bind
  fail := Keeping.fail
  ofCall h m hm := ⟨(h m hm).1.ofCall, (h m hm).2⟩
  ofPlaces h m hm := ⟨(h m hm).1.ofPlaces, (h m hm).2⟩
  ofBlock h m hm := ⟨(h m hm).1.ofBlock, (h m hm).2⟩
  tick := Keeping.tick
  charge := Keeping.charge
  fresh := Keeping.fresh
  limits := Keeping.counter fun _ => ⟨rfl, rfl, rfl, rfl, rfl⟩
  now := Keeping.counter fun _ => ⟨rfl, rfl, rfl, rfl, rfl⟩
  random := Keeping.random
  isHelper _ := Keeping.counter fun _ => ⟨rfl, rfl, rfl, rfl, rfl⟩
  frames := Keeping.counter fun _ => ⟨rfl, rfl, rfl, rfl, rfl⟩
  parseJson := Keeping.parseJson
  fetch := Keeping.fetch
  runHost _ _ _ _ := Keeping.runHost hc
  lookup? := Keeping.lookup? hc hN
  newClosure _ := Keeping.newClosure
  onPlace := Keeping.onPlace hc hN
  declare := Keeping.declare
  complete := Keeping.complete
  takeCompletion := Keeping.takeCompletion
  noteExport _ := Keeping.counter fun _ => ⟨rfl, rfl, rfl, rfl, rfl⟩
  setDefault := Keeping.setDefault
  withFrame := Keeping.withFrame
  loop hnormal hgo hturn :=
    Keeping.bind Keeping.read fun _ _ => Keeping.repeatTurns hnormal hgo hturn _
  withActivation := Keeping.withActivation


/-! ## Programs and modules -/

section Modules
variable {c : Context} {D : FunctionDef → Prop} {N : Native → Prop} (body : List Stmt)
  (hc : c.Within D N) (hD : ∀ f, D f → ∀ g ∈ f.body.functions, D g) (hN : ∀ b, N (.builtin b))
  (hbody : ∀ f ∈ Stmt.functionsOf body, D f)
include hc hD hN hbody

theorem Keeping.program : Keeping c D N (c.limits.callDepth - 1) .program (Eval.program body)
    (·.Within D N) := by
  have hlimits : Keeping c D N (c.limits.callDepth - 1) .program Eval.limits (· = c.limits) :=
    fun _ hm => ⟨Kept.refl, hm, fun _ h => (Except.ok.inj h).symm⟩
  refine Keeping.bind hlimits fun limits hlimits => ?_
  rw [hlimits]
  exact StepLogic.programWith (StepLogic.callVia ((StepLogic.keeping c D N hc hD hN).enter _)) hbody

theorem Keeping.module : Keeping c D N (c.limits.callDepth - 1) .program (Eval.module body)
    fun out => (∀ p ∈ out.bindings, p.2.Within D N) ∧ ∀ p ∈ out.exports, p.2.Within D N := by
  let L := StepLogic.keeping c D N hc hD hN
  refine L.bind (StepLogic.plainObject (List.forall_mem_nil _)) fun exports hexports => ?_
  have hmodule : ∀ p ∈ [("exports", exports)], L.Admits p.2 :=
    List.forall_mem_singleton.mpr hexports
  refine L.bind (StepLogic.plainObject hmodule) fun v hv => ?_
  refine L.bind (L.ofBlock (L.declare "module" false hv)) fun _ _ => ?_
  refine L.bind (L.ofBlock (L.declare "exports" false hexports)) fun _ _ => ?_
  refine Keeping.bind (Keeping.program body hc hD hN hbody) fun _ _ => ?_
  exact Keeping.bind Keeping.get fun m hm => L.result _ (Eval.forall_collect
    (fun _ _ => Value.within_object.mp) hm.current.frames hm.defaultExport)

end Modules

/-! ## What is left of the stack -/

/-- The logic that says nothing about values. -/
def StepLogic.keepingStack (c : Context) : StepLogic :=
  .keeping c (fun _ => True) (fun _ => True) c.within_true (fun _ _ _ _ => trivial)
    fun _ => trivial

/-- What is said of the activations holds on every machine if nothing is said about values. -/
theorem Keeping.kept {c : Context} {α : Type} {n : Nat} {r : Reach} {x : Eval α} {Q : α → Prop}
    (h : Keeping c (fun _ => True) (fun _ => True) n r x Q) (m : Machine) :
    Kept n r m (x.outcome c m).2 :=
  (h m m.within_true).1

/-- A call leaves the stack as it found it. -/
theorem Kept.stack {n : Nat} {m m' : Machine} (h : Kept n .call m m') : m'.stack = m.stack := by
  simp only [Machine.stack, h.call rfl, h.callers]

namespace Eval

/-- **Every evaluation restores the stack.**  Whether it returns a value or fails, a call leaves all
activations and the completion value as they were, be it made by the evaluator or by a built-in
function that was given a function.  An expression or a statement leaves the waiting activations as
they were and the running one with as many blocks; an expression leaves the completion value, too.
The stack is never empty, and while a program or a module runs it is never higher than the limit
on the depth of calls, or than one activation if that is less. -/
theorem stack_restored (c : Context) :
    (∀ depth f args m, ∀ call ∈ [callVia (enter depth), callGiven (enter depth)],
      let m' := ((call f args).outcome c m).2
      m'.stack = m.stack ∧ m'.completion = m.completion) ∧
    (∀ depth e m, let m' := ((expr (callVia (enter depth)) e).outcome c m).2
      m'.callers = m.callers ∧ m'.current.frames.length = m.current.frames.length ∧
        m'.current.captured = m.current.captured ∧ m'.current.siblings = m.current.siblings ∧
        m'.completion = m.completion) ∧
    (∀ depth asBody s m, let m' := ((stmt (callVia (enter depth)) asBody s).outcome c m).2
      m'.callers = m.callers ∧ m'.current.frames.length = m.current.frames.length ∧
        m'.current.captured = m.current.captured ∧ m'.current.siblings = m.current.siblings) ∧
    (∀ m : Machine, 1 ≤ m.stack.length) ∧
    (∀ m a, (Machine.enter a m).stack.length ≤ (Machine.enter a m).peak) ∧
    (∀ next body, ((program body).outcome c { next }).2.peak ≤ max 1 c.limits.callDepth) ∧
    (∀ next body, ((module body).outcome c { next }).2.peak ≤ max 1 c.limits.callDepth) := by
  have hcall := fun depth => StepLogic.callVia ((StepLogic.keepingStack c).enter depth)
  have hgiven := fun depth => StepLogic.callGiven ((StepLogic.keepingStack c).enter depth)
  refine ⟨?_, ?_, ?_, ?_, ?_, ?_, ?_⟩
  · intro depth f args m call hmem
    have hkept : Kept depth .call m ((call f args).outcome c m).2 := by
      simp only [List.mem_cons, List.not_mem_nil, or_false] at hmem
      rcases hmem with rfl | rfl
      · exact (hcall depth f args f.within_true fun v _ => v.within_true).kept m
      · exact (hgiven depth f args f.within_true fun v _ => v.within_true).kept m
    exact ⟨hkept.stack, hkept.completion nofun (.inl nofun)⟩
  · intro depth e m
    have hkept := (StepLogic.expr (hcall depth) e fun _ _ => trivial).kept m
    exact ⟨hkept.callers, hkept.blocks, hkept.captured, hkept.siblings,
      hkept.completion nofun (.inl nofun)⟩
  · intro depth asBody s m
    have hkept := (StepLogic.stmt (hcall depth) asBody s fun _ _ => trivial).kept m
    exact ⟨hkept.callers, hkept.blocks, hkept.captured, hkept.siblings⟩
  · intro m
    simp [Machine.stack]
  · intro m a
    simp only [Machine.enter, Machine.stack, List.length_cons]
    omega
  · intro next body
    have hkept := (Keeping.program body c.within_true (fun _ _ _ _ => trivial)
      (fun _ => trivial) fun _ _ => trivial).kept { next }
    have hpeak := hkept.peak_le
    simp only [Machine.stack, List.length_cons, List.length_nil] at hpeak
    omega
  · intro next body
    have hkept := (Keeping.module body c.within_true (fun _ _ _ _ => trivial)
      (fun _ => trivial) fun _ _ => trivial).kept { next }
    have hpeak := hkept.peak_le
    simp only [Machine.stack, List.length_cons, List.length_nil] at hpeak
    omega

end Eval
end Stencil.Script
