import Stencil.Proofs.Script.Activations

/-! # Evaluations whose time is over

A budget **is over** if the time had passed, or the evaluation was cancelled, before it started
(`Budget.isOver`); its **verdict** is the error that says so.  A budget is **ample** if it is not
over at the first look at it (`Budget.isAmple`); an unlimited one is.

Two runs of one step, the first under a budget that is over and the second under an ample one,
**agree** (`Agree`) if they are the same as long as fewer than 64 ticks have been made, and the
first ends with the verdict at exactly the 64th, provided that the host is not asked for an address
on the way.  Steps that agree can be put together, because work never takes ticks back
(`Grows`), and a loop agrees because each turn ticks.  So agreeing is a logic of steps
(`StepLogic.agreeing`), and every run of a program ends no later than at the 64th tick
(`run_over_budget`).
-/
namespace Stencil.Script

namespace Budget

/-- The time had passed, or the evaluation was cancelled, before it started. -/
def isOver (b : Budget) : Prop :=
  b.cancelled ≠ none ∨ b.limit ≤ b.spent

/-- The budget is not over at the first look at it. -/
def isAmple (b : Budget) : Prop :=
  b.cancelled = none ∧ pollInterval < b.expiry

/-- How a look at a budget that is over fails. -/
def verdict (b : Budget) : ScriptError :=
  match b.cancelled with
  | some reason => .cancelled reason
  | none => .timeout b.limit

theorem poll_of_isOver {b : Budget} (h : b.isOver) (ticks : Nat) :
    Eval.poll b ticks = .error b.verdict := by
  unfold Eval.poll verdict
  cases hc : b.cancelled with
  | some reason => rfl
  | none =>
    have hspent : b.limit ≤ b.spent := h.resolve_left (by simp [hc])
    have hexpiry : b.expiry ≤ ticks := by
      rw [expiry, Nat.sub_eq_zero_of_le hspent]
      omega
    simp [hexpiry]

end Budget

/-- The context with another budget. -/
def Context.under (c : Context) (b : Budget) : Context :=
  { c with budget := b }

/-- Work never takes ticks or requests back, under whatever budget. -/
structure Grows {α : Type} (x : Eval α) : Prop where
  ticks : ∀ c m, m.ticks ≤ (x.outcome c m).2.ticks
  requests : ∀ c m, m.requests <+: (x.outcome c m).2.requests

/-- The outcome of a run under a budget that is over, beside that of one under an ample budget: they
are the same and come before the first look at the budget, or the first fails with the verdict at
that look and the second goes on. -/
def Ends {α : Type} (b : Budget) (run free : Except ScriptError α × Machine) : Prop :=
  (run = free ∧ run.2.ticks < pollInterval) ∨
    (run.1 = .error b.verdict ∧ run.2.ticks = pollInterval ∧ pollInterval ≤ free.2.ticks)

/-- **A step under a budget that is over and one under an ample budget agree** on a machine that has
not come to the first look at the budget, unless the host is asked for an address. -/
def Agree {α : Type} (c : Context) (b b' : Budget) (x x' : Eval α) (m : Machine) : Prop :=
  m.ticks < pollInterval → (x.outcome (c.under b) m).2.requests = m.requests →
    Ends b (x.outcome (c.under b) m) (x'.outcome (c.under b') m)

namespace Grows
variable {α β : Type} {x : Eval α} {f : α → Eval β}

/-- The second of two steps takes nothing back of what the first has done. -/
theorem outcome_le (hf : ∀ c m a, (x.outcome c m).1 = .ok a → Grows (f a)) (c : Context)
    (m : Machine) : (x.outcome c m).2.ticks ≤ ((x >>= f).outcome c m).2.ticks ∧
      (x.outcome c m).2.requests <+: ((x >>= f).outcome c m).2.requests := by
  have hf := hf c m
  rw [Eval.outcome_bind]
  rcases hx : x.outcome c m with ⟨_ | a, m'⟩
  · exact ⟨Nat.le_refl _, List.prefix_refl _⟩
  · have hgrows : Grows (f a) := hf a (by rw [hx])
    exact ⟨hgrows.ticks c m', hgrows.requests c m'⟩

theorem bind (hx : Grows x) (hf : ∀ c m a, (x.outcome c m).1 = .ok a → Grows (f a)) :
    Grows (x >>= f) :=
  ⟨fun c m => Nat.le_trans (hx.ticks c m) (outcome_le hf c m).1,
    fun c m => (hx.requests c m).trans (outcome_le hf c m).2⟩

end Grows

namespace Agree
variable {α β : Type} {c : Context} {b b' : Budget} {m : Machine} {x x' : Eval α}
  {f f' : α → Eval β}

/-- Steps that agree, one after the other. -/
theorem bind (h : Agree c b b' x x' m) (hx : Grows x)
    (hf : ∀ c m a, (x.outcome c m).1 = .ok a → Grows (f a))
    (hf' : ∀ c m a, (x'.outcome c m).1 = .ok a → Grows (f' a))
    (hstep : ∀ a m', x.outcome (c.under b) m = (.ok a, m') → Agree c b b' (f a) (f' a) m') :
    Agree c b b' (x >>= f) (x' >>= f') m := by
  intro hticks hquiet
  -- The host is asked in neither step.
  have hfirst : (x.outcome (c.under b) m).2.requests = m.requests := by
    have hle := (Grows.outcome_le hf (c.under b) m).2
    rw [hquiet] at hle
    exact hle.eq_of_length_le (hx.requests _ m).length_le
  rcases h hticks hfirst with ⟨hsame, hbefore⟩ | ⟨herror, hend, hlater⟩
  · rcases hrun : x.outcome (c.under b) m with ⟨e | a, m'⟩
    · refine .inl ⟨?_, ?_⟩
      · rw [Eval.outcome_bind, Eval.outcome_bind, ← hsame, hrun]
      · rw [Eval.outcome_bind, hrun]
        rwa [hrun] at hbefore
    · rw [hrun] at hfirst hbefore hsame
      rw [Eval.outcome_bind, hrun] at hquiet
      rw [Eval.outcome_bind, Eval.outcome_bind, ← hsame, hrun]
      exact hstep a m' hrun hbefore (hquiet.trans hfirst.symm)
  · refine .inr ⟨?_, ?_, Nat.le_trans hlater (Grows.outcome_le hf' _ m).1⟩
    all_goals
      rcases hrun : x.outcome (c.under b) m with ⟨e | a, m'⟩
      · rw [hrun] at herror hend
        rw [Eval.outcome_bind, hrun]
        first | exact hend | exact congrArg Except.error (Except.error.inj herror)
      · rw [hrun] at herror
        cases herror

end Agree

/-- A step that takes no ticks back and that agrees with itself. -/
structure Bounded {α : Type} (x : Eval α) : Prop where
  grows : Grows x
  agrees : ∀ c b b' m, b.isOver → b'.isAmple → Agree c b b' x x m

namespace Bounded
variable {α β : Type} {x : Eval α} {f : α → Eval β}

/-- A step that does not tick, asks for nothing and does not look at the budget. -/
theorem ofSteady (h : ∀ c m, (x.outcome c m).2.ticks = m.ticks ∧
      (x.outcome c m).2.requests = m.requests)
    (hbudget : ∀ c b m, x.outcome (c.under b) m = x.outcome c m) : Bounded x where
  grows := ⟨fun c m => Nat.le_of_eq (h c m).1.symm, fun c m => (h c m).2 ▸ List.prefix_refl _⟩
  agrees c b b' m _ _ hticks _ := by
    refine .inl ⟨?_, ?_⟩
    · rw [hbudget, hbudget]
    · rw [hbudget, (h c m).1]
      exact hticks

theorem bind (hx : Bounded x) (hf : ∀ c m a, (x.outcome c m).1 = .ok a → Bounded (f a)) :
    Bounded (x >>= f) where
  grows := hx.grows.bind fun c m a ha => (hf c m a ha).grows
  agrees c b b' m hb hb' :=
    (hx.agrees c b b' m hb hb').bind hx.grows (fun c m a ha => (hf c m a ha).grows)
      (fun c m a ha => (hf c m a ha).grows) fun a m' hrun =>
        (hf (c.under b) m a (by rw [hrun])).agrees c b b' m' hb hb'

theorem result (a : α) : Bounded (pure a : Eval α) :=
  ofSteady (fun _ _ => ⟨rfl, rfl⟩) fun _ _ _ => rfl

theorem fail (e : ScriptError) : Bounded (throw e : Eval α) :=
  ofSteady (fun _ _ => ⟨rfl, rfl⟩) fun _ _ _ => rfl

theorem tick : Bounded Eval.tick where
  grows := by
    refine ⟨fun c m => ?_, fun c m => ?_⟩ <;> simp only [Eval.outcome_tick]
    · exact Nat.le_succ _
    · exact List.prefix_refl _
  agrees c b b' m hb hb' hticks _ := by
    rw [Eval.outcome_tick, Eval.outcome_tick]
    by_cases hlook : m.ticks + 1 = pollInterval
    · have hmod : (m.ticks + 1) % pollInterval = 0 := by rw [hlook, Nat.mod_self]
      refine .inr ⟨?_, hlook, Nat.le_of_eq hlook.symm⟩
      rw [if_pos hmod]
      exact Budget.poll_of_isOver hb _
    · have hlt : m.ticks + 1 < pollInterval := by omega
      have hmod : ¬ (m.ticks + 1) % pollInterval = 0 := by
        rw [Nat.mod_eq_of_lt hlt]
        omega
      refine .inl ⟨?_, hlt⟩
      rw [if_neg hmod, if_neg hmod]

theorem charge (bytes : Nat) : Bounded (Eval.charge bytes) := by
  refine ofSteady (fun c m => ?_) fun c b m => ?_
  · rw [Eval.outcome_charge]
    split <;> exact ⟨rfl, rfl⟩
  · rw [Eval.outcome_charge, Eval.outcome_charge]
    rfl

theorem ofExcept (y : Except ScriptError α) : Bounded (Eval.ofExcept y) := by
  cases y with
  | ok a => exact result a
  | error e => exact fail e

theorem get : Bounded (MonadState.get : Eval Machine) :=
  ofSteady (fun _ _ => ⟨rfl, rfl⟩) fun _ _ _ => rfl

theorem fresh : Bounded Eval.fresh :=
  ofSteady (fun _ _ => ⟨rfl, rfl⟩) fun _ _ _ => rfl

theorem limits : Bounded Eval.limits :=
  ofSteady (fun _ _ => ⟨rfl, rfl⟩) fun _ _ _ => rfl

theorem frames : Bounded Eval.frames :=
  ofSteady (fun _ _ => ⟨rfl, rfl⟩) fun _ _ _ => rfl

theorem random : Bounded Native.random := by
  refine ofSteady (fun c m => ?_) fun c b m => ?_
  all_goals obtain ⟨x, next, h⟩ := Eval.exists_outcome_random
  · rw [h]
    exact ⟨rfl, rfl⟩
  · rw [h, h]

theorem parseJson (s : String) : Bounded (Native.parseJson s) := by
  unfold Native.parseJson
  cases Json.parse s with
  | error e => exact fail _
  | ok json => exact ofSteady (fun _ _ => ⟨rfl, rfl⟩) fun _ _ _ => rfl

theorem runHost (name : String) (args : List Value) : Bounded (Native.runHost name args) := by
  refine ofSteady (fun c m => ?_) fun c b m => ?_
  · rw [Eval.outcome_runHost]
    split <;> exact ⟨rfl, rfl⟩
  · rw [Eval.outcome_runHost, Eval.outcome_runHost]
    cases hanswer : c.host.natives name args <;> simp only [Context.under, hanswer]

/-- Asking the host is noted, so that nothing has to be said of a run that does. -/
theorem fetch (url : String) : Bounded (Native.fetch url) where
  grows := by
    refine ⟨fun c m => ?_, fun c m => ?_⟩ <;> rw [Eval.outcome_fetch] <;> split
    · exact Nat.le_refl _
    · exact Nat.le_refl _
    · exact List.prefix_refl _
    · exact List.prefix_append _ _
  agrees c b b' m _ _ hticks hquiet := by
    rw [Eval.outcome_fetch] at hquiet ⊢
    rw [Eval.outcome_fetch]
    have hhost : ∀ b, (c.under b).host = c.host := fun _ => rfl
    rw [hhost] at hquiet ⊢
    rw [hhost]
    cases hf : c.host.fetch with
    | none => exact .inl ⟨rfl, hticks⟩
    | some answer =>
      rw [hf] at hquiet
      simp at hquiet

theorem lookup? (name : String) : Bounded (Eval.lookup? name) := by
  unfold Eval.lookup?
  refine bind get fun _ _ m _ => ?_
  dsimp only
  split
  · exact result _
  · split
    · exact result _
    · refine bind ?_ fun _ _ found _ => ?_
      · unfold Eval.lookupSibling?
        refine bind get fun _ _ m _ => ?_
        dsimp only
        split
        · exact result _
        · exact result _
        · exact bind fresh fun _ _ _ _ => result _
      · split
        · exact result _
        · exact ofSteady (fun _ _ => ⟨rfl, rfl⟩) fun _ _ _ => rfl

theorem newClosure (f : FunctionDef) : Bounded (Eval.newClosure f) := by
  unfold Eval.newClosure
  refine bind get fun _ _ m _ => bind limits fun _ _ limits _ => ?_
  exact bind (ofExcept _) fun _ _ _ _ => bind fresh fun _ _ _ _ => result _

theorem checkWritable (target : Target) : Bounded (Eval.checkWritable target) := by
  unfold Eval.checkWritable
  refine bind frames fun _ _ frames _ => ?_
  split
  · split
    · exact fail _
    · exact result _
  · refine bind (lookup? _) fun _ _ found _ => ?_
    split <;> exact fail _

theorem onPlace (target : Target) (step : SlotStep α) : Bounded (Eval.onPlace target step) := by
  unfold Eval.onPlace
  refine bind (checkWritable target) fun _ _ _ _ => ?_
  refine bind (ofSteady (fun _ _ => ⟨rfl, rfl⟩) fun _ _ _ => rfl) fun _ _ r _ => ?_
  split
  · exact ofExcept _
  · exact fail _

/-- A step between two changes of the machine that leave ticks and requests alone. -/
theorem between {before after : Machine → Machine}
    (hbefore : ∀ m, (before m).ticks = m.ticks ∧ (before m).requests = m.requests)
    (hafter : ∀ m, (after m).ticks = m.ticks ∧ (after m).requests = m.requests)
    (h : Bounded x) : Bounded (Eval.between before after x) where
  grows := by
    refine ⟨fun c m => ?_, fun c m => ?_⟩
    · rw [Eval.outcome_between, (hafter _).1, ← (hbefore m).1]
      exact h.grows.ticks c (before m)
    · rw [Eval.outcome_between, (hafter _).2, ← (hbefore m).2]
      exact h.grows.requests c (before m)
  agrees c b b' m hb hb' hticks hquiet := by
    rw [Eval.outcome_between, (hafter _).2, ← (hbefore m).2] at hquiet
    rw [← (hbefore m).1] at hticks
    rw [Eval.outcome_between, Eval.outcome_between]
    rcases h.agrees c b b' (before m) hb hb' hticks hquiet with
      ⟨hsame, hlt⟩ | ⟨herror, hend, hlater⟩
    · refine .inl ⟨by rw [hsame], ?_⟩
      rw [(hafter _).1]
      exact hlt
    · refine .inr ⟨herror, ?_, ?_⟩
      · rw [(hafter _).1]
        exact hend
      · rw [(hafter _).1]
        exact hlater

theorem leave_same (m : Machine) : m.leave.ticks = m.ticks ∧ m.leave.requests = m.requests := by
  unfold Machine.leave
  split <;> exact ⟨rfl, rfl⟩

/-! ### Loops -/

section Loops
variable {go : Eval Bool} {turn : Eval (Option Flow)} {rest rest' : Eval Flow}
  (hgo : Bounded go) (hturn : Bounded turn)
include hturn

theorem grows_oneTurn (hrest : Grows rest) : Grows (Eval.oneTurn turn rest) := by
  refine tick.grows.bind fun _ _ _ _ => hturn.grows.bind fun _ _ flow _ => ?_
  split
  · exact (result _).grows
  · exact hrest

/-- A turn agrees with itself if what follows it, one tick later, does. -/
theorem agree_oneTurn {c : Context} {b b' : Budget} {m : Machine} (hb : b.isOver)
    (hb' : b'.isAmple) (hrest : Grows rest) (hrest' : Grows rest')
    (h : ∀ m', m.ticks < m'.ticks → Agree c b b' rest rest' m') :
    Agree c b b' (Eval.oneTurn turn rest) (Eval.oneTurn turn rest') m := by
  have hafter : ∀ rest, Grows rest → ∀ flow, Grows (match flow with
      | some flow => (return flow : Eval Flow)
      | none => rest) := by
    intro rest hrest flow
    split
    · exact (result _).grows
    · exact hrest
  refine (tick.agrees c b b' m hb hb').bind tick.grows
    (fun _ _ _ _ => hturn.grows.bind fun _ _ => fun flow _ => hafter rest hrest flow)
    (fun _ _ _ _ => hturn.grows.bind fun _ _ => fun flow _ => hafter rest' hrest' flow)
    fun _ m₁ hrun₁ => ?_
  refine (hturn.agrees c b b' m₁ hb hb').bind hturn.grows
    (fun _ _ flow _ => hafter rest hrest flow) (fun _ _ flow _ => hafter rest' hrest' flow)
    fun flow m₂ hrun₂ => ?_
  split
  · exact (result _).agrees c b b' m₂ hb hb'
  · refine h m₂ ?_
    have hticks₁ : m.ticks + 1 = m₁.ticks := by
      rw [Eval.outcome_tick] at hrun₁
      exact congrArg Machine.ticks (Prod.ext_iff.mp hrun₁).2
    have hticks₂ := hturn.grows.ticks (c.under b) m₁
    rw [hrun₂] at hticks₂
    exact Nat.lt_of_lt_of_le (by omega) hticks₂

include hgo

theorem grows_repeatTurns (turns : Nat) : Grows (Eval.repeatTurns go turn turns) := by
  induction turns with
  | zero => exact ⟨fun _ _ => Nat.le_refl _, fun _ _ => List.prefix_refl _⟩
  | succ turns ih =>
    unfold Eval.repeatTurns
    refine hgo.grows.bind fun _ _ goes _ => ?_
    split
    · exact grows_oneTurn hturn ih
    · exact (result _).grows

/-- **A loop agrees with itself whatever the bounds on its turns are, as long as they reach to the
first look at the budget.**  The induction is on the first bound: every turn ticks, so what is left
of the bounds reaches there from behind the turn. -/
theorem agree_repeatTurns {c : Context} {b b' : Budget} (hb : b.isOver) (hb' : b'.isAmple)
    {turns turns' : Nat} {m : Machine} (h : pollInterval ≤ m.ticks + turns)
    (h' : pollInterval ≤ m.ticks + turns') :
    Agree c b b' (Eval.repeatTurns go turn turns) (Eval.repeatTurns go turn turns') m := by
  induction turns generalizing m turns' with
  | zero =>
    intro hticks _
    omega
  | succ turns ih =>
    cases turns' with
    | zero =>
      intro hticks _
      omega
    | succ turns' =>
      have hafter : ∀ k (goes : Bool), Grows (if goes = true then
          Eval.oneTurn turn (Eval.repeatTurns go turn k) else return .normal) := by
        intro k goes
        split
        · exact grows_oneTurn hturn (grows_repeatTurns hgo hturn k)
        · exact (result _).grows
      unfold Eval.repeatTurns
      refine (hgo.agrees c b b' m hb hb').bind hgo.grows (fun _ _ goes _ => hafter turns goes)
        (fun _ _ goes _ => hafter turns' goes) fun goes m₁ hrun₁ => ?_
      have hle := hgo.grows.ticks (c.under b) m
      rw [hrun₁] at hle
      dsimp only at hle
      split
      · exact agree_oneTurn hturn hb hb' (grows_repeatTurns hgo hturn turns)
          (grows_repeatTurns hgo hturn turns') fun m' hm' => ih (by omega) (by omega)
      · exact (result _).agrees c b b' m₁ hb hb'

theorem loop : Bounded (Eval.loop go turn) where
  grows := by
    refine ⟨fun c m => ?_, fun c m => ?_⟩ <;> rw [Eval.outcome_loop]
    · exact (grows_repeatTurns hgo hturn _).ticks c m
    · exact (grows_repeatTurns hgo hturn _).requests c m
  agrees c b b' m hb hb' := by
    have hreach : ∀ b : Budget, pollInterval ≤ m.ticks + b.ceiling := fun b => by
      unfold Budget.ceiling
      omega
    intro hticks hquiet
    rw [Eval.outcome_loop] at hquiet ⊢
    rw [Eval.outcome_loop]
    exact agree_repeatTurns hgo hturn hb hb' (hreach b) (hreach b') hticks hquiet

end Loops

end Bounded

/-! ## The logic -/

/-- **Agreeing is a logic of steps**: it says nothing about values, and of a step that it keeps the
stack and agrees with itself. -/
def StepLogic.agreeing : StepLogic where
  definitions := fun _ => True
  natives := fun _ => True
  Holds n r x Q := (∀ c, (keepingStack c).Holds n r x Q) ∧ Bounded x
  inner := fun _ _ _ _ => trivial
  builtin := fun _ => trivial
  result a ha := ⟨fun c => (keepingStack c).result a ha, Bounded.result a⟩
  bind hx hf := ⟨fun c => (keepingStack c).bind (hx.1 c) fun a ha => (hf a ha).1 c,
    hx.2.bind fun c m a ha => (hf a ((hx.1 c m m.within_true).2.2 a ha)).2⟩
  fail e := ⟨fun c => (keepingStack c).fail e, Bounded.fail e⟩
  ofCall h := ⟨fun c => (keepingStack c).ofCall (h.1 c), h.2⟩
  ofPlaces h := ⟨fun c => (keepingStack c).ofPlaces (h.1 c), h.2⟩
  ofBlock h := ⟨fun c => (keepingStack c).ofBlock (h.1 c), h.2⟩
  tick := ⟨fun c => (keepingStack c).tick, Bounded.tick⟩
  charge bytes := ⟨fun c => (keepingStack c).charge bytes, Bounded.charge bytes⟩
  fresh := ⟨fun c => (keepingStack c).fresh, Bounded.fresh⟩
  limits := ⟨fun c => (keepingStack c).limits, Bounded.limits⟩
  now := ⟨fun c => (keepingStack c).now,
    Bounded.ofSteady (fun _ _ => ⟨rfl, rfl⟩) fun _ _ _ => rfl⟩
  random := ⟨fun c => (keepingStack c).random, Bounded.random⟩
  isHelper name := ⟨fun c => (keepingStack c).isHelper name,
    Bounded.ofSteady (fun _ _ => ⟨rfl, rfl⟩) fun _ _ _ => rfl⟩
  frames := ⟨fun c => (keepingStack c).frames, Bounded.frames⟩
  parseJson s := ⟨fun c => (keepingStack c).parseJson s, Bounded.parseJson s⟩
  fetch url := ⟨fun c => (keepingStack c).fetch url, Bounded.fetch url⟩
  runHost id name arity args h hargs :=
    ⟨fun c => (keepingStack c).runHost id name arity args h hargs, Bounded.runHost name args⟩
  lookup? name := ⟨fun c => (keepingStack c).lookup? name, Bounded.lookup? name⟩
  newClosure f h := ⟨fun c => (keepingStack c).newClosure f h, Bounded.newClosure f⟩
  onPlace target := fun h => ⟨fun c => (keepingStack c).onPlace target h, Bounded.onPlace target _⟩
  declare name := fun constant h => ⟨fun c => (keepingStack c).declare name constant h,
    Bounded.ofSteady (fun _ _ => ⟨rfl, rfl⟩) fun _ _ _ => rfl⟩
  complete h := ⟨fun c => (keepingStack c).complete h,
    Bounded.ofSteady (fun _ m => by
      rw [Eval.complete, Eval.outcome_modify]
      split <;> exact ⟨rfl, rfl⟩) fun _ _ _ => rfl⟩
  takeCompletion := ⟨fun c => (keepingStack c).takeCompletion,
    Bounded.ofSteady (fun _ _ => ⟨rfl, rfl⟩) fun _ _ _ => rfl⟩
  noteExport s := ⟨fun c => (keepingStack c).noteExport s,
    Bounded.ofSteady (fun _ _ => ⟨rfl, rfl⟩) fun _ _ _ => rfl⟩
  setDefault h := ⟨fun c => (keepingStack c).setDefault h,
    Bounded.ofSteady (fun _ _ => ⟨rfl, rfl⟩) fun _ _ _ => rfl⟩
  withFrame h := ⟨fun c => (keepingStack c).withFrame (h.1 c),
    h.2.between (fun _ => ⟨rfl, rfl⟩) fun _ => ⟨rfl, rfl⟩⟩
  loop hnormal hgo hturn :=
    ⟨fun c => (keepingStack c).loop hnormal (hgo.1 c) (hturn.1 c), Bounded.loop hgo.2 hturn.2⟩
  withActivation ha h := ⟨fun c => (keepingStack c).withActivation ha (h.1 c),
    h.2.between (fun _ => ⟨rfl, rfl⟩) Bounded.leave_same⟩

theorem bounded_program (body : List Stmt) : Bounded (Eval.program body) :=
  Bounded.limits.bind fun _ _ limits _ =>
    (StepLogic.programWith
      (StepLogic.callVia (StepLogic.agreeing.enter (limits.callDepth - 1))) fun _ _ => trivial).2

namespace Eval

/-- **A program whose time is over ends at the first look at the budget.**  If the same program,
run under an ample budget, ends with fewer than 64 ticks, its outcome is the outcome here;
otherwise the program fails, here, at exactly the 64th tick, and the error is that of the
cancellation if it was cancelled and that of the time otherwise.  The host must not be asked for an
address on the way. -/
theorem run_over_budget (c : Context) (hover : c.budget.isOver) (ample : Budget)
    (hample : ample.isAmple) (next : Identity) (body : List Stmt)
    (hquiet : ((program body).outcome c { next }).2.requests = []) :
    let run := (program body).outcome c { next }
    let free := (program body).outcome (c.under ample) { next }
    (free.2.ticks < pollInterval → run = free) ∧
      (pollInterval ≤ free.2.ticks →
        run.1 = .error c.budget.verdict ∧ run.2.ticks = pollInterval) := by
  intro run free
  have hstart : ({ next } : Machine).ticks < pollInterval := show 0 < pollInterval by decide
  rcases (bounded_program body).agrees c c.budget ample { next } hover hample hstart hquiet with
    ⟨hsame, hbefore⟩ | ⟨herror, hend, hlater⟩
  · refine ⟨fun _ => hsame, fun hlater => ?_⟩
    have hsame : run = free := hsame
    have hbefore : run.2.ticks < pollInterval := hbefore
    rw [hsame] at hbefore
    omega
  · refine ⟨fun hbefore => ?_, fun _ => ⟨herror, hend⟩⟩
    have hlater : pollInterval ≤ free.2.ticks := hlater
    omega

/-- A loop without end is stopped at the first look at a budget of no time. -/
theorem endless_loop_over_budget :
    let c : Context := { budget := { limit := 0 } }
    let body : List Stmt := [.whileLoop (.bool true) (.block [])]
    c.budget.isOver ∧ ((program body).outcome c { next := 0 }).2.requests = [] ∧
      ((program body).outcome c { next := 0 }).1 = .error (.timeout 0) := by
  intro c body
  have hover : c.budget.isOver := .inr (Nat.le_refl 0)
  have hample : ({ limit := 1 } : Budget).isAmple := ⟨rfl, by decide⟩
  have hquiet : ((program body).outcome c { next := 0 }).2.requests = [] := by decide +kernel
  have hfree : pollInterval ≤
      ((program body).outcome (c.under { limit := 1 }) { next := 0 }).2.ticks := by
    decide +kernel
  have h := run_over_budget c hover { limit := 1 } hample 0 body hquiet
  exact ⟨hover, hquiet, (h.2 hfree).1⟩

end Eval
end Stencil.Script
