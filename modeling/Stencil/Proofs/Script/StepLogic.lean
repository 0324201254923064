import Stencil.Proofs.Script.PairLogic
import Stencil.Proofs.Script.Places

/-! # Judging the steps of single evaluations

A **judgement** says something about a step of an evaluation and about the results with which it
can end: `Holds n r x Q` speaks of a step `x` inside which `n` calls may still be nested, whose
reach is `r` and whose results satisfy `Q`.

What a judgement means is left open.  A `StepLogic` is a meaning for which the rules hold of which
evaluations are composed: results and sequences (`result`, `bind`), errors (`fail`), the operations
on the machine, blocks, loops and activations.  The values that a logic **admits** are those in
which every function is among its definitions or its functions of other origin.

A logic of steps is a logic of pairs that says nothing about the second side (`StepLogic.pairs`), so
it holds of every call, every expression, every statement and every program.
-/
namespace Stencil.Script
open Value (argument)

/-- A value without content holds no functions. -/
theorem Value.within_plain {D : FunctionDef → Prop} {N : Native → Prop} {v : Value}
    (h : v.isPlain) : v.Within D N := by
  cases v <;> first | exact trivial | cases h

/-- **A logic of steps**: a meaning of judgements under which the rules hold that compose
evaluations. -/
structure StepLogic where
  /-- The definitions that functions of scripts may have. -/
  definitions : FunctionDef → Prop
  /-- The functions of other origin that there may be. -/
  natives : Native → Prop
  /-- What is said of a step and its results. -/
  Holds : {α : Type} → Nat → Reach → Eval α → (α → Prop) → Prop
  inner : ∀ f, definitions f → ∀ g ∈ f.body.functions, definitions g
  builtin : ∀ b, natives (.builtin b)
  result : ∀ {α n r} {Q : α → Prop} (a), Q a → Holds n r (pure a) Q
  bind : ∀ {α β n r} {P : α → Prop} {Q : β → Prop} {x : Eval α} {f : α → Eval β},
    Holds n r x P → (∀ a, P a → Holds n r (f a) Q) → Holds n r (x >>= f) Q
  fail : ∀ {α n r} {Q : α → Prop} (e), Holds n r (throw e) Q
  /-- A step of a call may stand anywhere. -/
  ofCall : ∀ {α n r} {Q : α → Prop} {x : Eval α}, Holds n .call x Q → Holds n r x Q
  /-- A step of an expression may stand in a statement. -/
  ofPlaces : ∀ {α n} {Q : α → Prop} {x : Eval α}, Holds n .places x Q → Holds n .block x Q
  /-- A step of a statement may stand in a program. -/
  ofBlock : ∀ {α n} {Q : α → Prop} {x : Eval α}, Holds n .block x Q → Holds n .program x Q
  tick : ∀ {n}, Holds n .call Eval.tick fun _ => True
  charge : ∀ {n} (bytes), Holds n .call (Eval.charge bytes) fun _ => True
  fresh : ∀ {n}, Holds n .call Eval.fresh fun _ => True
  limits : ∀ {n}, Holds n .call Eval.limits fun _ => True
  now : ∀ {n}, Holds n .call Eval.now fun _ => True
  random : ∀ {n}, Holds n .call Native.random fun _ => True
  isHelper : ∀ {n} (name), Holds n .call (Eval.isHelper name) fun _ => True
  frames : ∀ {n}, Holds n .call Eval.frames fun _ => True
  parseJson : ∀ {n} (s), Holds n .call (Native.parseJson s) (·.Within definitions natives)
  fetch : ∀ {n} (url), Holds n .call (Native.fetch url) (·.Within definitions natives)
  runHost : ∀ {n} (id name arity args), natives (.host id name arity) →
    (∀ v ∈ args, v.Within definitions natives) →
    Holds n .call (Native.runHost name args) (·.Within definitions natives)
  lookup? : ∀ {n} (name),
    Holds n .call (Eval.lookup? name) fun v => ∀ w ∈ v, w.Within definitions natives
  newClosure : ∀ {n} (f), definitions f →
    Holds n .call (Eval.newClosure f) (·.Within definitions natives)
  onPlace : ∀ {α n} {Q : α → Prop} (target) {step : SlotStep α},
    (∀ v, v.Within definitions natives →
      (step v).2.Within definitions natives ∧ ∀ a, (step v).1 = .ok a → Q a) →
    Holds n .places (Eval.onPlace target step) Q
  declare : ∀ {n} (name) {v} (constant), v.Within definitions natives →
    Holds n .block (Eval.declare name v constant) fun _ => True
  complete : ∀ {n v}, v.Within definitions natives →
    Holds n .block (Eval.complete v) fun _ => True
  takeCompletion : ∀ {n}, Holds n .program Eval.takeCompletion (·.Within definitions natives)
  noteExport : ∀ {n} (s), Holds n .block (Eval.noteExport s) fun _ => True
  setDefault : ∀ {n v}, v.Within definitions natives →
    Holds n .block (Eval.setDefault v) fun _ => True
  withFrame : ∀ {α n} {Q : α → Prop} {x : Eval α},
    Holds n .block x Q → Holds n .block (Eval.withFrame x) Q
  loop : ∀ {n} {Q : Flow → Prop} {go turn}, Q .normal → Holds n .block go (fun _ => True) →
    Holds n .block turn (fun flow => ∀ f ∈ flow, Q f) → Holds n .block (Eval.loop go turn) Q
  withActivation : ∀ {α n} {Q : α → Prop} {a : Activation} {x : Eval α},
    a.Within definitions natives → Holds n .block x Q →
    Holds (n + 1) .call (Eval.withActivation a x) Q

namespace StepLogic
variable (L : StepLogic) {α β : Type} {n : Nat} {r : Reach} {P Q : α → Prop}

/-- The values in which every function is one that the logic allows. -/
abbrev Admits (v : Value) : Prop :=
  v.Within L.definitions L.natives

/-! ## Derived rules -/

variable {L}

theorem weaken {x : Eval α} (h : L.Holds n r x P) (hPQ : ∀ a, P a → Q a) : L.Holds n r x Q := by
  rw [← bind_pure x]
  exact L.bind h fun a ha => L.result a (hPQ a ha)

theorem ofExcept {x : Except ScriptError α} (h : ∀ a, x = .ok a → Q a) :
    L.Holds n r (Eval.ofExcept x) Q := by
  cases x with
  | ok a => exact L.result a (h a rfl)
  | error e => exact L.fail e

/-- A check in front of a step. -/
theorem guard {c : Prop} [Decidable c] {e : ScriptError} {x : Eval α}
    (h : ¬ c → L.Holds n r x Q) :
    L.Holds n r (if c then do let _ : Unit ← throw e; x else x) Q := by
  split
  · exact L.bind (P := fun _ => False) (L.fail e) fun _ hf => hf.elim
  · rename_i hc
    exact h hc

theorem mapM {R : β → Prop} {f : α → Eval β} {xs : List α}
    (h : ∀ x ∈ xs, L.Holds n r (f x) R) : L.Holds n r (xs.mapM f) fun ys => ∀ y ∈ ys, R y := by
  induction xs with
  | nil =>
    rw [List.mapM_nil]
    exact L.result _ (by simp)
  | cons x xs ih =>
    rw [List.mapM_cons]
    refine L.bind (h x List.mem_cons_self) fun y hy => ?_
    refine L.bind (ih fun z hz => h z (List.mem_cons_of_mem x hz)) fun ys hys => L.result _ ?_
    exact List.forall_mem_cons.mpr ⟨hy, hys⟩

/-! ## New values -/

/-- Every value of a list is admitted. -/
def AdmitsAll (L : StepLogic) (vs : List Value) : Prop :=
  ∀ v ∈ vs, L.Admits v

theorem admits_plain {v : Value} (h : v.isPlain) : L.Admits v :=
  Value.within_plain h

theorem plainArray {items : Array Value} (h : ∀ v ∈ items, L.Admits v) :
    L.Holds n r (Eval.plainArray items) L.Admits := by
  unfold Eval.plainArray
  exact L.bind (L.ofCall L.fresh) fun _ _ => L.result _ (Value.within_array.mpr h)

theorem plainObject {members : List (String × Value)} (h : ∀ p ∈ members, L.Admits p.2) :
    L.Holds n r (Eval.plainObject members) L.Admits := by
  unfold Eval.plainObject
  exact L.bind (L.ofCall L.fresh) fun _ _ => L.result _ (Value.within_object.mpr h)

theorem newArray {items : Array Value} (h : ∀ v ∈ items, L.Admits v) :
    L.Holds n r (Eval.newArray items) L.Admits := by
  unfold Eval.newArray
  refine L.bind (L.ofCall L.limits) fun _ _ => guard fun _ => ?_
  refine L.bind (L.ofCall (L.charge _)) fun _ _ => ?_
  exact L.bind (ofExcept fun _ _ => trivial) fun _ _ => plainArray h

theorem newObject {members : List (String × Value)} (h : ∀ p ∈ members, L.Admits p.2) :
    L.Holds n r (Eval.newObject members) L.Admits := by
  unfold Eval.newObject
  refine L.bind (L.ofCall (L.charge _)) fun _ _ => L.bind (L.ofCall L.limits) fun _ _ => ?_
  exact L.bind (ofExcept fun _ _ => trivial) fun _ _ => plainObject h

theorem entries {members : List (String × Value)} (h : ∀ p ∈ members, L.Admits p.2) :
    L.Holds n r
      (do Eval.newList (← members.mapM fun (key, v) => Eval.plainArray #[.string key, v]))
      L.Admits := by
  refine L.bind (mapM fun p hp => ?_) fun out hout => newArray (by simpa using hout)
  exact plainArray (by simpa using h p hp)

/-! ## Names and places -/

theorem isLocal (name : String) : L.Holds n r (Eval.isLocal name) fun _ => True :=
  L.bind (L.ofCall L.frames) fun _ _ => L.result _ trivial

theorem isDeclared (name : String) : L.Holds n r (Eval.isDeclared name) fun _ => True := by
  unfold Eval.isDeclared
  refine L.bind (L.ofCall L.frames) fun frames _ => ?_
  split <;> exact L.result _ trivial

theorem lookup (name : String) : L.Holds n r (Eval.lookup name) L.Admits := by
  unfold Eval.lookup
  refine L.bind (L.ofCall (L.lookup? name)) fun v hv => ?_
  split
  · exact L.result _ (hv _ rfl)
  · exact L.fail _

theorem assign (target : Target) {v : Value} (hv : L.Admits v) :
    L.Holds n .places (Eval.assign target v) fun _ => True := by
  unfold Eval.assign
  refine L.bind (L.ofCall L.limits) fun limits _ => L.onPlace target fun w _ => ⟨?_, by simp⟩
  split
  · exact hv
  · split
    · exact hv
    · simp

theorem admits_onSlot (op : Method.InPlace) (hargs : L.AdmitsAll args) (id : Identity)
    (maxLength : Nat) {v : Value} (hv : L.Admits v) :
    L.Admits (op.onSlot args id maxLength v).2 ∧
      ∀ a, (op.onSlot args id maxLength v).1 = .ok a → L.Admits a := by
  unfold Method.InPlace.onSlot
  split
  case h_2 => simp
  rename_i items
  have hitems := Value.within_array.mp hv
  obtain ⟨hanswer, hafter⟩ := op.apply_cases args items
  have happly : L.Admits (op.apply args items).1 ∧
      ∀ w ∈ (op.apply args items).2, L.Admits w := by
    refine ⟨?_, fun w hw => (hafter w hw).elim (hitems w) (hargs w)⟩
    rcases hanswer with ⟨n, h⟩ | h | h
    · rw [h]
      exact admits_plain rfl
    · rw [h]
      exact admits_plain rfl
    · exact hitems _ h
  dsimp only
  split
  · simp
  · exact ⟨Value.within_array.mpr happly.2, fun a ha => Except.ok.inj ha ▸ happly.1⟩

theorem changeInPlace (op : Method.InPlace) (hargs : L.AdmitsAll args) {target : Eval Target}
    (htarget : L.Holds n .places target fun _ => True) :
    L.Holds n .places (Eval.changeInPlace op args target) L.Admits := by
  unfold Eval.changeInPlace
  refine L.bind (L.ofCall (L.charge _)) fun _ _ => L.bind (L.ofCall L.limits) fun limits _ => ?_
  refine L.bind htarget fun place _ => L.bind (L.ofCall L.fresh) fun id _ => ?_
  refine L.onPlace place fun v hv => ?_
  split
  · exact admits_onSlot op hargs id _ hv
  · simp

/-! ## Activations -/

/-- The activation of an admitted function, called with admitted arguments. -/
theorem within_activationOf {id : Identity} {f : FunctionDef} {captured : List (String × Value)}
    {siblings : Siblings} (hself : L.Admits (.closure id f captured siblings))
    (hargs : L.AdmitsAll args) :
    (Eval.activationOf (.closure id f captured siblings) f captured siblings args).Within
      L.definitions L.natives := by
  obtain ⟨-, hcaptured, hsiblings⟩ := Value.within_closure.mp hself
  refine ⟨fun frame hframe p hp => ?_, hcaptured, hsiblings⟩
  rcases Eval.mem_activationOf hframe hp with h | ⟨i, h⟩
  · exact h ▸ hself
  · exact h ▸ Value.within_argument hargs i

/-! ## The logic of pairs -/

/-- One side: identities stay as they are, and nothing is learnt. -/
def sides (L : StepLogic) : Sides where
  World := Unit
  Le _ _ := True
  refl _ := trivial
  trans _ _ := trivial
  rename := id
  Fits _ v := L.Admits v

/-- What is said of a step and its result, whatever the result of the second step may be. -/
def HoldsFirst (L : StepLogic) {α : Type} (n : Nat) (r : Reach) (x : Eval α)
    (Q : Unit → α → α → Prop) : Prop :=
  L.Holds n r x fun a => ∃ a', Q () a a'

theorem holdsFirst_same {x : Eval α} (h : L.Holds n r x P) :
    L.HoldsFirst n r x L.sides.Same :=
  weaken h fun a _ => ⟨a, rfl⟩

theorem holdsFirst_paired {x : Eval Value} (h : L.Holds n r x L.Admits) :
    L.HoldsFirst n r x L.sides.Paired :=
  weaken h fun _ hv => ⟨_, hv, rfl⟩

/-- **A logic of steps is a logic of pairs** that says nothing about the second side. -/
def pairs (L : StepLogic) : PairLogic where
  toSides := L.sides
  definitions := L.definitions
  Holds _ n r x _ Q := L.HoldsFirst n r x Q
  injective := Function.injective_id
  globals _ _ := rfl
  inner := L.inner
  writes _ _ d _ := d.writesAmong_of_forall fun _ => trivial
  mono _ h := h
  plain := admits_plain
  builtin b := (Value.within_native.mpr (L.builtin b) : L.Admits (.native (.builtin b)))
  modules := Globals.within_modules L.builtin
  items := fun {_ id _} (h : L.Admits (.array id _)) => Value.within_array.mp h
  members := fun {_ id _} (h : L.Admits (.object id _)) p hp =>
    ⟨trivial, Value.within_object.mp h p hp⟩
  definition := fun {_ id _ _ _} (h : L.Admits (.closure id _ _ _)) =>
    (Value.within_closure.mp h).1
  result h := L.result _ ⟨_, h⟩
  bind h hf := L.bind h fun a ⟨a', ha⟩ => hf () a a' trivial ha
  fail := L.fail
  ofCall := L.ofCall
  ofPlaces := L.ofPlaces
  ofBlock := L.ofBlock
  tick := holdsFirst_same L.tick
  charge bytes := holdsFirst_same (L.charge bytes)
  limits := holdsFirst_same L.limits
  now := holdsFirst_same L.now
  random := holdsFirst_same L.random
  isHelper name := holdsFirst_same (L.isHelper name)
  isLocal name := holdsFirst_same (isLocal name)
  isDeclared name := holdsFirst_same (isDeclared name)
  lookup? name := weaken (L.lookup? name) fun _ hv => ⟨_, hv, rfl⟩
  newArray _ h := holdsFirst_paired (newArray h)
  newObject h := holdsFirst_paired (newObject fun p hp => (h p hp).2)
  newClosure f hf := holdsFirst_paired (L.newClosure f hf)
  plainArray _ h := holdsFirst_paired (plainArray fun v hv => admits_plain (h.isPlain v hv))
  plainObject _ h := holdsFirst_paired (plainObject fun p hp => admits_plain (h p hp).2)
  entries h := holdsFirst_paired (entries fun p hp => (h p hp).2)
  parseJson s := holdsFirst_paired (L.parseJson s)
  fetch url := holdsFirst_paired (L.fetch url)
  runHost := fun {_ _ id _ _ _} (hf : L.Admits (.native (.host id _ _))) hargs =>
    holdsFirst_paired (L.runHost _ _ _ _ (Value.within_native.mp hf) hargs)
  assign target _ hv := holdsFirst_same (assign target hv)
  changeInPlace op hargs htarget := holdsFirst_paired
    (changeInPlace op hargs (weaken (htarget ()) fun _ _ => trivial))
  declare name constant hv := holdsFirst_same (L.declare name constant hv)
  complete hv := holdsFirst_same (L.complete hv)
  takeCompletion := holdsFirst_paired L.takeCompletion
  noteExport s := holdsFirst_same (L.noteExport s)
  setDefault hv := holdsFirst_same (L.setDefault hv)
  withFrame := L.withFrame
  loop hgo hturn := L.loop ⟨_, trivial, rfl⟩ (weaken (hgo ()) fun _ _ => trivial)
    (weaken (hturn ()) fun _ ⟨_, hend, _⟩ f hf => ⟨_, hend f hf, rfl⟩)
  withActivation := fun {_ _ id _ _ _ _ _ _} (hf : L.Admits (.closure id _ _ _)) hargs hx =>
    L.withActivation (within_activationOf hf hargs) hx

/-! ## What is evaluated -/

/-- Every call of an admitted function with admitted arguments holds and answers with an admitted
value. -/
def Calls (L : StepLogic) (n : Nat) (call : Call) : Prop :=
  ∀ f args, L.Admits f → L.AdmitsAll args → L.Holds n .call (call f args) L.Admits

/-- The functions written in a tree are among the definitions of the logic. -/
abbrev Allows (L : StepLogic) (functions : List FunctionDef) : Prop :=
  ∀ f ∈ functions, L.definitions f

variable {call : Call}

theorem admitted {x : Eval Value} (h : L.HoldsFirst n r x L.sides.Paired) :
    L.Holds n r x L.Admits :=
  weaken h fun _ ⟨_, hv, _⟩ => hv

theorem pairs_calls : L.pairs.Calls n call call ↔ L.Calls n call :=
  ⟨fun h f args hf hargs => admitted (h () f args hf hargs),
    fun h _ f args hf hargs => holdsFirst_paired (h f args hf hargs)⟩

theorem matching_calls : L.pairs.matching.Calls n call call ↔ L.Calls n call :=
  PairLogic.calls_iff.trans pairs_calls

theorem callGiven {enter : Call} (h : L.Calls n enter) : L.Calls n (Eval.callGiven enter) :=
  pairs_calls.mp (PairLogic.callGiven (pairs_calls.mpr h))

theorem callVia {enter : Call} (h : L.Calls n enter) : L.Calls n (Eval.callVia enter) :=
  pairs_calls.mp (PairLogic.callVia (pairs_calls.mpr h))

/-- **Every call of a function of a script holds.** -/
theorem enter (depth : Nat) : L.Calls depth (Eval.enter depth) :=
  pairs_calls.mp (PairLogic.enter depth)

/-- **Every expression holds**, if the functions written in it are allowed. -/
theorem expr (hcall : L.Calls n call) (e : Expr) (h : L.Allows e.functions) :
    L.Holds n .places (Eval.expr call e) L.Admits :=
  admitted (PairLogic.expr (pairs_calls.mpr hcall) () e h)

theorem exprs (hcall : L.Calls n call) (es : List Expr) (h : L.Allows (Expr.functionsOf es)) :
    L.Holds n .places (Eval.exprs call es) L.AdmitsAll :=
  weaken (PairLogic.exprs (pairs_calls.mpr hcall) () es h) fun _ ⟨_, hvs, _⟩ => hvs

/-- **Every statement holds**, if the functions written in it are allowed; a value that it returns
is admitted. -/
theorem stmt (hcall : L.Calls n call) (asBody : Bool) (s : Stmt) (h : L.Allows s.functions) :
    L.Holds n .block (Eval.stmt call asBody s) (L.sides.FitsFlow ()) :=
  weaken (PairLogic.stmt (pairs_calls.mpr hcall) () asBody s h) fun _ ⟨_, hflow, _⟩ => hflow

/-- **Every program holds** whose functions are allowed. -/
theorem programWith (hcall : L.Calls n call) {body : List Stmt}
    (h : L.Allows (Stmt.functionsOf body)) :
    L.Holds n .program (Eval.programWith call body) L.Admits :=
  admitted (PairLogic.programWith (pairs_calls.mpr hcall) () h)

end StepLogic
end Stencil.Script
