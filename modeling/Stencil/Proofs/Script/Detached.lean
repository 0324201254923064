import Stencil.Proofs.Script.Activations

/-! # Steps that do not look below their own activation

Two machines are **alike** if the same function is being run on both in the same state: its
activation, the work counted, the bytes charged, the next identity and the state of the random
numbers are the same.  The activations that wait for it, and what the program has put out so far,
may be anything (`Machine.Alike`).

That calls, expressions and statements give the same on machines that are alike, and leave them
alike, is a logic of steps (`StepLogic.detached`).  It is silent about programs, which take the
completion value out of the machine.  A call enters an activation of its own, so of the machine it
starts on only the counters are left to look at (`sameCounts_callVia`).
-/
namespace Stencil.Script

/-- What is counted on both machines, and what is taken from supplies, is the same. -/
structure Machine.SameCounts (m m' : Machine) : Prop where
  ticks : m'.ticks = m.ticks
  allocated : m'.allocated = m.allocated
  next : m'.next = m.next
  seed : m'.seed = m.seed

/-- The same function is being run on both machines in the same state. -/
structure Machine.Alike (m m' : Machine) : Prop extends m.SameCounts m' where
  current : m'.current = m.current

/-- The outcomes are the same up to what a step does not look at. -/
def SameOutcome {α : Type} (run run' : Except ScriptError α × Machine) : Prop :=
  run'.1 = run.1 ∧ run.2.Alike run'.2

/-- A step that keeps the activations, and unless it is a program gives the same on machines that
are alike. -/
structure Detached (c : Context) {α : Type} (n : Nat) (r : Reach) (x : Eval α) (Q : α → Prop) :
    Prop where
  keeps : Keeping c (fun _ => True) (fun _ => True) n r x Q
  same : r ≠ .program → ∀ m m' : Machine, m.Alike m' →
    SameOutcome (x.outcome c m) (x.outcome c m')

namespace Detached
variable {c : Context} {α β : Type} {n : Nat} {r : Reach} {P Q : α → Prop} {x : Eval α}

theorem result (a : α) (ha : Q a) : Detached c n r (pure a) Q :=
  ⟨Keeping.result a ha, fun _ _ _ h => ⟨rfl, h⟩⟩

theorem fail (e : ScriptError) : Detached c n r (throw e : Eval α) Q :=
  ⟨Keeping.fail e, fun _ _ _ h => ⟨rfl, h⟩⟩

theorem bind {R : β → Prop} {f : α → Eval β} (hx : Detached c n r x P)
    (hf : ∀ a, P a → Detached c n r (f a) R) : Detached c n r (x >>= f) R where
  keeps := Keeping.bind hx.keeps fun a ha => (hf a ha).keeps
  same hr m m' h := by
    obtain ⟨hresult, hmachine⟩ := hx.same hr m m' h
    have hP := (hx.keeps m m.within_true).2.2
    rw [Eval.outcome_bind, Eval.outcome_bind]
    rcases hrun : x.outcome c m with ⟨e | a, m₁⟩ <;>
      rcases hrun' : x.outcome c m' with ⟨e' | a', m₁'⟩ <;>
      rw [hrun, hrun'] at hresult hmachine <;> cases hresult
    · exact ⟨rfl, hmachine⟩
    · exact (hf a (hP a (by rw [hrun]))).same hr m₁ m₁' hmachine

/-- A step whose outcome is a function of what machines that are alike have in common. -/
theorem ofOutcome (hkeeps : Keeping c (fun _ => True) (fun _ => True) n r x Q)
    (h : ∀ m m' : Machine, m.Alike m' → SameOutcome (x.outcome c m) (x.outcome c m')) :
    Detached c n r x Q :=
  ⟨hkeeps, fun _ => h⟩

/-- A step that reads the same everywhere, and changes nothing. -/
theorem reads {a : α} (h : ∀ m, x.outcome c m = (.ok a, m)) :
    Detached c n r x fun _ => True := by
  refine ofOutcome (Keeping.counter fun m => ?_) fun m m' hm => ?_
  · rw [h]
    exact ⟨rfl, rfl, rfl, rfl, rfl⟩
  · rw [h, h]
    exact ⟨rfl, hm⟩

/-! ### What is counted, and what comes from outside -/

theorem tick : Detached c n r Eval.tick fun _ => True :=
  ofOutcome Keeping.tick fun m m' h => by
    rw [Eval.outcome_tick, Eval.outcome_tick, h.ticks]
    exact ⟨rfl, { h with ticks := rfl }⟩

theorem charge (bytes : Nat) : Detached c n r (Eval.charge bytes) fun _ => True :=
  ofOutcome (Keeping.charge bytes) fun m m' h => by
    rw [Eval.outcome_charge, Eval.outcome_charge, h.allocated]
    split
    · exact ⟨rfl, h⟩
    · exact ⟨rfl, { h with allocated := rfl }⟩

theorem fresh : Detached c n r Eval.fresh fun _ => True :=
  ofOutcome Keeping.fresh fun m m' h => by
    rw [Eval.outcome_fresh, Eval.outcome_fresh, h.next]
    exact ⟨rfl, { h with next := rfl }⟩

theorem random : Detached c n r Native.random fun _ => True := by
  obtain ⟨x, next, houtcome⟩ := Eval.exists_outcome_random
  refine ofOutcome Keeping.random fun m m' h => ?_
  rw [houtcome, houtcome, h.seed]
  exact ⟨rfl, { h with seed := rfl }⟩

theorem frames : Detached c n r Eval.frames fun _ => True :=
  ofOutcome (Keeping.counter fun _ => ⟨rfl, rfl, rfl, rfl, rfl⟩) fun m m' h => by
    rw [Eval.outcome_frames, Eval.outcome_frames, h.current]
    exact ⟨rfl, h⟩

theorem parseJson (s : String) :
    Detached c n r (Native.parseJson s) (·.Within (fun _ => True) fun _ => True) :=
  ofOutcome (Keeping.parseJson s) fun m m' h => by
    rw [Eval.outcome_parseJson, Eval.outcome_parseJson, h.next]
    split
    · exact ⟨rfl, { h with next := rfl }⟩
    · exact ⟨rfl, h⟩

theorem fetch (url : String) :
    Detached c n r (Native.fetch url) (·.Within (fun _ => True) fun _ => True) :=
  ofOutcome (Keeping.fetch url) fun m m' h => by
    rw [Eval.outcome_fetch, Eval.outcome_fetch, h.ticks]
    split
    · exact ⟨rfl, h⟩
    · exact ⟨rfl, { h with ticks := rfl }⟩

theorem runHost {name : String} {args : List Value} (id : Identity) (arity : Nat) :
    Detached c n r (Native.runHost name args) (·.Within (fun _ => True) fun _ => True) := by
  have hkeeps := @Keeping.runHost c (fun _ => True) (fun _ => True) n r c.within_true id name arity
    args trivial fun v _ => v.within_true
  refine ofOutcome hkeeps fun m m' h => ?_
  rw [Eval.outcome_runHost, Eval.outcome_runHost]
  split
  · exact ⟨rfl, { h with }⟩
  · exact ⟨rfl, h⟩

/-! ### Names and places -/

theorem lookup? (name : String) :
    Detached c n r (Eval.lookup? name) fun v => ∀ w ∈ v, w.Within (fun _ => True) fun _ => True :=
  ofOutcome (Keeping.lookup? c.within_true (fun _ => trivial) name) fun m m' h => by
    rw [Eval.outcome_lookup?, Eval.outcome_lookup?, h.current, h.next]
    repeat' split
    all_goals first
      | exact ⟨rfl, h⟩
      | exact ⟨rfl, { h with current := rfl, next := rfl }⟩

theorem newClosure (f : FunctionDef) :
    Detached c n r (Eval.newClosure f) (·.Within (fun _ => True) fun _ => True) :=
  ofOutcome (Keeping.newClosure trivial) fun m m' h => by
    rw [Eval.outcome_newClosure, Eval.outcome_newClosure, h.current, h.next]
    split
    · exact ⟨rfl, { h with current := rfl, next := rfl }⟩
    · exact ⟨rfl, h⟩

theorem checkWritable (target : Target) :
    Detached c n r (Eval.checkWritable target) fun _ => True := by
  unfold Eval.checkWritable
  refine bind frames fun frames _ => ?_
  split
  · split
    · exact fail _
    · exact result _ trivial
  · refine bind (lookup? target.root) fun v _ => ?_
    split <;> exact fail _

theorem onPlace (target : Target) {step : SlotStep α}
    (hstep : step.Keeps (fun _ => True) (fun _ => True) Q) :
    Detached c n .places (Eval.onPlace target step) Q := by
  refine ofOutcome (Keeping.onPlace c.within_true (fun _ => trivial) target hstep) fun m m' h => ?_
  have hcheck := (checkWritable (c := c) (n := n) (r := .places) target).same nofun m m' h
  rw [Eval.outcome_onPlace, Eval.outcome_onPlace, h.current, h.next]
  obtain ⟨hresult, hmachine⟩ := hcheck
  rcases hrun : (Eval.checkWritable target).outcome c m with ⟨e | u, m₁⟩ <;>
    rcases hrun' : (Eval.checkWritable target).outcome c m' with ⟨e' | u', m₁'⟩ <;>
    rw [hrun, hrun'] at hresult hmachine <;> cases hresult
  · exact ⟨rfl, hmachine⟩
  · exact ⟨rfl, { h with current := rfl, next := rfl }⟩

theorem declare (name : String) {v : Value} (constant : Bool) :
    Detached c n .block (Eval.declare name v constant) fun _ => True :=
  ofOutcome (Keeping.declare name constant v.within_true) fun m m' h => by
    simp only [Eval.declare, Eval.outcome_modify, h.current]
    exact ⟨rfl, { h with current := rfl }⟩

/-- Only the completion value depends on whether a function waits. -/
theorem complete {v : Value} : Detached c n .block (Eval.complete v) fun _ => True :=
  ofOutcome (Keeping.complete v.within_true) fun m m' h => by
    simp only [Eval.complete, Eval.outcome_modify]
    refine ⟨rfl, ?_⟩
    dsimp only
    split <;> split <;> exact { h with }

theorem noteExport (s : Stmt) : Detached c n .block (Eval.noteExport s) fun _ => True :=
  ofOutcome (Keeping.counter fun _ => ⟨rfl, rfl, rfl, rfl, rfl⟩) fun _ _ h => ⟨rfl, { h with }⟩

theorem setDefault {v : Value} : Detached c n .block (Eval.setDefault v) fun _ => True :=
  ofOutcome (Keeping.setDefault v.within_true) fun _ _ h => ⟨rfl, { h with }⟩

/-! ### Blocks, loops and calls -/

theorem withFrame (h : Detached c n .block x Q) : Detached c n .block (Eval.withFrame x) Q :=
  ofOutcome (Keeping.withFrame h.keeps) fun m m' hm => by
    have hopen : m.openFrame.Alike m'.openFrame :=
      { hm with current := by rw [Machine.openFrame, Machine.openFrame, hm.current] }
    obtain ⟨hresult, hmachine⟩ := h.same Reach.noConfusion _ _ hopen
    rw [Eval.withFrame, Eval.outcome_between, Eval.outcome_between]
    refine ⟨hresult, { hmachine with current := ?_ }⟩
    rw [Machine.closeFrame, Machine.closeFrame, hmachine.current]

/-- An activation of its own is entered from wherever, and left for where it was entered from. -/
theorem sameCounts_withActivation (h : Detached c n .block x Q) (a : Activation) {m m' : Machine}
    (hm : m.SameCounts m') :
    ((Eval.withActivation a x).outcome c m').1 = ((Eval.withActivation a x).outcome c m).1 ∧
      ((Eval.withActivation a x).outcome c m).2.SameCounts
        ((Eval.withActivation a x).outcome c m').2 := by
  obtain ⟨hresult, hmachine⟩ := h.same nofun (m.enter a) (m'.enter a) { hm with current := rfl }
  have hleave : ∀ m : Machine, m.SameCounts m.leave := by
    intro m
    unfold Machine.leave
    split <;> exact ⟨rfl, rfl, rfl, rfl⟩
  rw [Eval.withActivation, Eval.outcome_between, Eval.outcome_between]
  refine ⟨hresult, ?_⟩
  have hleft := hleave (x.outcome c (m.enter a)).2
  have hleft' := hleave (x.outcome c (m'.enter a)).2
  exact ⟨by rw [hleft'.ticks, hmachine.ticks, hleft.ticks],
    by rw [hleft'.allocated, hmachine.allocated, hleft.allocated],
    by rw [hleft'.next, hmachine.next, hleft.next], by rw [hleft'.seed, hmachine.seed, hleft.seed]⟩

theorem withActivation {a : Activation} (h : Detached c n .block x Q) :
    Detached c (n + 1) .call (Eval.withActivation a x) Q := by
  have hkeeps := Keeping.withActivation a.within_true h.keeps
  refine ofOutcome hkeeps fun m m' hm => ?_
  obtain ⟨hresult, hmachine⟩ := h.sameCounts_withActivation a hm.toSameCounts
  refine ⟨hresult, { hmachine with current := ?_ }⟩
  rw [(hkeeps.kept m).call rfl, (hkeeps.kept m').call rfl, hm.current]

theorem repeatTurns {go : Eval Bool} {turn : Eval (Option Flow)} {R : Flow → Prop}
    (hnormal : R .normal) (hgo : Detached c n .block go fun _ => True)
    (hturn : Detached c n .block turn fun flow => ∀ f ∈ flow, R f) (turns : Nat) :
    Detached c n .block (Eval.repeatTurns go turn turns) R := by
  induction turns with
  | zero => exact bind (reads fun _ => rfl) fun _ _ => fail _
  | succ turns ih =>
    unfold Eval.repeatTurns
    refine bind hgo fun goes _ => ?_
    split
    · unfold Eval.oneTurn
      refine bind tick fun _ _ => bind hturn fun flow hflow => ?_
      split
      · exact result _ (hflow _ rfl)
      · exact ih
    · exact result _ hnormal

theorem loop {go : Eval Bool} {turn : Eval (Option Flow)} {R : Flow → Prop}
    (hnormal : R .normal) (hgo : Detached c n .block go fun _ => True)
    (hturn : Detached c n .block turn fun flow => ∀ f ∈ flow, R f) :
    Detached c n .block (Eval.loop go turn) R :=
  bind (reads fun _ => rfl) fun _ _ => repeatTurns hnormal hgo hturn _

end Detached

/-- **Not looking below the own activation is a logic of steps.** -/
def StepLogic.detached (c : Context) : StepLogic where
  definitions _ := True
  natives _ := True
  Holds := Detached c
  inner _ _ _ _ := trivial
  builtin _ := trivial
  result := Detached.result
  bind := Detached.bind
  fail := Detached.fail
  ofCall h := ⟨fun m hm => ⟨(h.keeps m hm).1.ofCall, (h.keeps m hm).2⟩, fun _ => h.same nofun⟩
  ofPlaces h := ⟨fun m hm => ⟨(h.keeps m hm).1.ofPlaces, (h.keeps m hm).2⟩, fun _ => h.same nofun⟩
  ofBlock h := ⟨fun m hm => ⟨(h.keeps m hm).1.ofBlock, (h.keeps m hm).2⟩, fun hr => (hr rfl).elim⟩
  tick := Detached.tick
  charge := Detached.charge
  fresh := Detached.fresh
  limits := Detached.reads fun _ => rfl
  now := Detached.reads fun _ => rfl
  random := Detached.random
  isHelper _ := Detached.reads fun _ => rfl
  frames := Detached.frames
  parseJson := Detached.parseJson
  fetch := Detached.fetch
  runHost id _ arity _ _ _ := Detached.runHost id arity
  lookup? := Detached.lookup?
  newClosure f _ := Detached.newClosure f
  onPlace := Detached.onPlace
  declare name _ constant _ := Detached.declare name constant
  complete _ := Detached.complete
  takeCompletion := ⟨Keeping.takeCompletion, fun hr => (hr rfl).elim⟩
  noteExport := Detached.noteExport
  setDefault _ := Detached.setDefault
  withFrame := Detached.withFrame
  loop := Detached.loop
  withActivation _ := Detached.withActivation

namespace Eval

/-- **A call of a function of a script looks at nothing but what is counted.** -/
theorem sameCounts_callVia (c : Context) (depth : Nat) (id : Identity) (f : FunctionDef)
    (captured : List (String × Value)) (siblings : Siblings) (args : List Value) {m m' : Machine}
    (h : m.SameCounts m') :
    let call := callVia (enter depth) (.closure id f captured siblings) args
    (call.outcome c m').1 = (call.outcome c m).1 ∧
      (call.outcome c m).2.SameCounts (call.outcome c m').2 := by
  have hentered : ∀ {m m' : Machine}, m.SameCounts m' →
      let call := enter depth (.closure id f captured siblings) args
      (call.outcome c m').1 = (call.outcome c m).1 ∧
        (call.outcome c m).2.SameCounts (call.outcome c m').2 := by
    intro m m' h
    unfold enter
    cases depth with
    | zero => exact ⟨rfl, h⟩
    | succ depth =>
      have hcall := StepLogic.callVia ((StepLogic.detached c).enter depth)
      have hbody := PairLogic.functionBody (StepLogic.pairs_calls.mpr hcall) () f.body
        fun _ _ => trivial
      exact Detached.sameCounts_withActivation hbody _ h
  unfold callVia callWith
  dsimp only
  rw [outcome_bind, outcome_bind, outcome_tick, outcome_tick, h.ticks]
  cases (if (m.ticks + 1) % pollInterval = 0 then poll c.budget (m.ticks + 1) else .ok ()) with
  | ok u => exact hentered { h with ticks := rfl }
  | error e => exact ⟨rfl, { h with ticks := rfl }⟩

end Eval
end Stencil.Script
