import Stencil.Script.Run

/-! # What a step does to a machine

The **outcome** of a step on a machine is its result, or the error with which it fails, and the
machine that it leaves (`Eval.outcome`).  A step that fails leaves a machine as well.  The lemmas
give the outcomes of the operations of which evaluations are composed, and what names stand for.
-/
namespace Stencil.Script

/-- A machine that is left goes back to the activation from which it entered another one. -/
theorem Machine.leave_eq {m m₁ : Machine} {a : Activation}
    (h : m₁.callers = (m.enter a).callers) :
    m₁.leave = { m₁ with current := m.current, callers := m.callers } := by
  unfold leave
  rw [h]
  rfl

namespace Eval
variable {α β : Type} (c : Context) (m : Machine)

/-- What a step gives on a machine, and the machine that it leaves. -/
def outcome (x : Eval α) : Except ScriptError α × Machine :=
  match (x.run c).run m with
  | .ok a m' => (.ok a, m')
  | .error e m' => (.error e, m')

@[simp]
theorem outcome_pure (a : α) : outcome c m (pure a) = (.ok a, m) := rfl

@[simp]
theorem outcome_throw (e : ScriptError) :
    outcome c m (throw e : Eval α) = (.error e, m) := rfl

theorem outcome_bind (x : Eval α) (f : α → Eval β) :
    outcome c m (x >>= f) =
      match outcome c m x with
      | (.ok a, m') => outcome c m' (f a)
      | (.error e, m') => (.error e, m') := by
  simp only [outcome, ReaderT.run_bind, EStateM.run_bind]
  cases (x.run c).run m <;> rfl

/-- A sequence that succeeds has a first step that does. -/
theorem outcome_bind_ok {x : Eval α} {f : α → Eval β} {b : β} {m' : Machine}
    (h : outcome c m (x >>= f) = (.ok b, m')) :
    ∃ a m₁, outcome c m x = (.ok a, m₁) ∧ outcome c m₁ (f a) = (.ok b, m') := by
  rw [outcome_bind] at h
  split at h
  · exact ⟨_, _, ‹_›, h⟩
  · cases h

@[simp]
theorem outcome_map (f : α → β) (x : Eval α) :
    outcome c m (f <$> x) = ((outcome c m x).1.map f, (outcome c m x).2) := by
  rw [map_eq_pure_bind, outcome_bind]
  rcases outcome c m x with ⟨_ | _, m'⟩ <;> rfl

@[simp]
theorem outcome_modify (f : Machine → Machine) :
    outcome c m (modify f : Eval Unit) = (.ok (), f m) := rfl

@[simp]
theorem outcome_modifyGet (f : Machine → α × Machine) :
    outcome c m (modifyGet f : Eval α) = (.ok (f m).1, (f m).2) := rfl

@[simp]
theorem outcome_get : outcome c m (get : Eval Machine) = (.ok m, m) := rfl

@[simp]
theorem outcome_read : outcome c m (read : Eval Context) = (.ok c, m) := rfl

@[simp]
theorem outcome_limits : outcome c m limits = (.ok c.limits, m) := rfl

@[simp]
theorem outcome_frames : outcome c m frames = (.ok m.current.frames, m) := rfl

@[simp]
theorem outcome_ofExcept (x : Except ScriptError α) : outcome c m (ofExcept x) = (x, m) := by
  cases x <;> rfl

theorem outcome_tryCatch (x : Eval α) (f : ScriptError → Eval α) :
    outcome c m (tryCatch x f) =
      match outcome c m x with
      | (.ok a, m') => (.ok a, m')
      | (.error e, m') => outcome c m' (f e) := by
  have h : (tryCatch x f).run c m = match x.run c m with
      | .error e m' => (f e).run c m'
      | .ok a m' => .ok a m' := by
    change EStateM.tryCatch (x.run c) (fun e => (f e).run c) m = _
    delta EStateM.tryCatch
    dsimp only
    cases x.run c m <;> rfl
  simp only [outcome, EStateM.run, h]
  cases x.run c m <;> rfl

/-- The second change of the machine is made however the step ends. -/
theorem outcome_between (before after : Machine → Machine) (x : Eval α) :
    outcome c m (between before after x) =
      ((outcome c (before m) x).1, after (outcome c (before m) x).2) := by
  simp only [between, outcome_bind, outcome_modify, outcome_tryCatch]
  rcases outcome c (before m) x with ⟨_ | _, m'⟩ <;> rfl

/-- A tick counts one unit of work, and fails if it looks at a budget that is over. -/
theorem outcome_tick :
    outcome c m tick =
      (if (m.ticks + 1) % pollInterval = 0 then poll c.budget (m.ticks + 1) else .ok (),
        { m with ticks := m.ticks + 1 }) := by
  simp only [tick, outcome_bind, outcome_modify, outcome_get]
  split
  · simp only [outcome_bind, outcome_read, outcome_ofExcept]
  · simp

/-- A tick before the time is over counts one unit of work. -/
theorem outcome_tick_of_lt (hc : c.budget.cancelled = none) (hm : m.ticks + 1 < c.budget.expiry) :
    outcome c m tick = (.ok (), { m with ticks := m.ticks + 1 }) := by
  rw [outcome_tick]
  split
  · simp only [poll, hc, if_neg (Nat.not_le.mpr hm)]
  · rfl

@[simp]
theorem outcome_fresh : outcome c m fresh = (.ok m.next, { m with next := m.next + 1 }) := rfl

theorem outcome_charge (bytes : Nat) :
    outcome c m (charge bytes) =
      if c.limits.allocation < m.allocated + bytes then
        (.error (.outOfRange s!"Allocation limit of {c.limits.allocation} bytes exceeded"), m)
      else (.ok (), { m with allocated := m.allocated + bytes }) := by
  simp only [charge, outcome_bind, outcome_limits, outcome_get]
  split
  · simp [outcome_bind]
  · simp

/-- What a new array of the items comes to. -/
theorem outcome_newArray (items : Array Value) :
    ((newArray items).outcome c m).1 =
      if c.limits.arrayLength < items.size then .error invalidLength
      else if c.limits.allocation < m.allocated + items.size * slotBytes then
        .error (.outOfRange s!"Allocation limit of {c.limits.allocation} bytes exceeded")
      else (Value.checkHeights c.limits.valueDepth 1 items.toList).map fun _ =>
        .array m.next items := by
  unfold newArray
  simp only [outcome_bind, outcome_limits]
  split
  · simp [outcome_bind]
  · by_cases hcharge : c.limits.allocation < m.allocated + items.size * slotBytes
    · simp [outcome_bind, outcome_charge, hcharge]
    · simp only [outcome_bind, outcome_charge, if_neg hcharge, outcome_ofExcept]
      cases Value.checkHeights c.limits.valueDepth 1 items.toList <;>
        simp [plainArray, Except.map]

/-- A new object is made unless the limits are in its way. -/
theorem outcome_newObject (members : List (String × Value)) :
    ((newObject members).outcome c m).1 =
      if c.limits.allocation < m.allocated + members.length * memberBytes then
        .error (.outOfRange s!"Allocation limit of {c.limits.allocation} bytes exceeded")
      else (Value.checkHeights c.limits.valueDepth 1 (members.map (·.2))).map fun _ =>
        .object m.next members := by
  unfold newObject
  by_cases hcharge : c.limits.allocation < m.allocated + members.length * memberBytes
  · simp [outcome_bind, outcome_charge, hcharge]
  · simp only [outcome_bind, outcome_charge, if_neg hcharge, outcome_limits, outcome_ofExcept]
    cases Value.checkHeights c.limits.valueDepth 1 (members.map (·.2)) <;>
      simp [plainObject, Except.map]

/-- A function that is made captures what its activation binds, unless that is nested too deep. -/
theorem outcome_newClosure (f : FunctionDef) :
    outcome c m (newClosure f) =
      match Value.checkHeights c.limits.valueDepth 1 ((snapshot m.current).map (·.2)) with
      | .ok () => (.ok (.closure m.next f (snapshot m.current) m.current.siblings),
          { m with next := m.next + 1 })
      | .error e => (.error e, m) := by
  unfold newClosure
  simp only [outcome_bind, outcome_get, outcome_limits, outcome_ofExcept]
  cases Value.checkHeights c.limits.valueDepth 1 ((snapshot m.current).map (·.2)) <;> rfl

/-- A name is looked up among the locals, the captured locals, the names of the module, and the
read-only names; a function of the module is made anew. -/
theorem outcome_lookup? (name : String) :
    outcome c m (lookup? name) =
      match findBinding? name m.current.frames with
      | some b => (.ok (some b.value), m)
      | none =>
        match m.current.captured.lookup name with
        | some v => (.ok (some v), m)
        | none =>
          match m.current.siblings.lookup name with
          | some (.constant v) => (.ok (some v), m)
          | some (.function f captured) =>
            (.ok (some (.closure m.next f captured m.current.siblings)),
              { m with next := m.next + 1 })
          | none => (.ok (c.scope.lookup? name), m) := by
  unfold lookup?
  rw [outcome_bind, outcome_get]
  dsimp only
  cases findBinding? name m.current.frames with
  | some b => rfl
  | none =>
    dsimp only
    cases m.current.captured.lookup name with
    | some v => rfl
    | none =>
      unfold lookupSibling?
      simp only [outcome_bind, outcome_get]
      rcases m.current.siblings.lookup name with _ | v | ⟨f, captured⟩ <;> rfl

/-- A name that may be written is found without changing the machine. -/
theorem outcome_checkWritable_ok {m' : Machine} {target : Target} {u : Unit}
    (h : (checkWritable target).outcome c m = (.ok u, m')) : m' = m := by
  unfold checkWritable at h
  rw [outcome_bind, outcome_frames] at h
  dsimp only at h
  split at h
  · split at h <;> cases h
    rfl
  · rw [outcome_bind] at h
    split at h
    · split at h <;> cases h
    · cases h

/-- A step on a place works on the locals; the containers on the way to it get new identities, as
many as there are keys. -/
theorem outcome_onPlace (target : Target) (step : SlotStep α) :
    outcome c m (onPlace target step) =
      match outcome c m (checkWritable target) with
      | (.error e, m') => (.error e, m')
      | (.ok _, _) =>
        let (r, frames) :=
          onBinding target.root (onPath step m.next target.keys) m.current.frames
        (r.getD (.error (.unbound target.root)),
          { m with
            current := { m.current with frames }
            next := m.next + target.keys.length }) := by
  unfold onPlace
  rw [outcome_bind]
  rcases hcheck : outcome c m (checkWritable target) with ⟨_ | _, m'⟩
  · rfl
  · obtain rfl := outcome_checkWritable_ok _ _ hcheck
    dsimp only
    rw [outcome_bind, outcome_modifyGet]
    rcases onBinding target.root (onPath step m'.next target.keys) m'.current.frames
      with ⟨_ | r, frames⟩
    · rfl
    · exact outcome_ofExcept _ _ r

/-- A loop is bounded by the budget. -/
theorem outcome_loop (go : Eval Bool) (turn : Eval (Option Flow)) :
    outcome c m (loop go turn) = outcome c m (repeatTurns go turn c.budget.ceiling) := by
  rw [loop, outcome_bind, outcome_read]

/-- A random number is made of the state of the random numbers, and changes nothing else. -/
theorem exists_outcome_random : ∃ (x : Nat → Float) (next : Nat → Nat), ∀ c m,
    outcome c m Native.random = (.ok (x m.seed), { m with seed := next m.seed }) := by
  let next := fun seed => (seed * 6364136223846793005 + 1442695040888963407) % Nat.pow 2 64
  exact ⟨fun seed => Number.ofParts false (next seed / Nat.pow 2 11) (-53), next, fun _ _ => rfl⟩

/-- The value of a JSON text is made with new identities, and noted. -/
theorem outcome_parseJson (s : String) :
    outcome c m (Native.parseJson s) =
      match Json.parse s with
      | .ok json =>
        let (v, next) := Value.ofJson m.next json
        (.ok v, { m with next, received := v :: m.received })
      | .error e => (.error (.invalidJson e.message), m) := by
  unfold Native.parseJson
  cases Json.parse s <;> rfl

/-- What a function of the host answers with is noted. -/
theorem outcome_runHost (name : String) (args : List Value) :
    outcome c m (Native.runHost name args) =
      match c.host.natives name args with
      | .ok v => (.ok v, { m with received := v :: m.received })
      | .error message => (.error (.thrown message), m) := by
  simp only [Native.runHost, outcome_bind, outcome_read]
  cases c.host.natives name args <;> rfl

/-- What a host answers is taken only from a budget that is not over. -/
theorem outcome_fetch (url : String) :
    outcome c m (Native.fetch url) =
      match c.host.fetch with
      | none => (.error (.wrongType "asynchronous host calls are not available here"), m)
      | some answer =>
        ((poll c.budget m.ticks).bind fun _ =>
          match answer url with
          | .body text => .ok (.string text)
          | .failure message => .error (.thrown message)
          | .pending => .error (.timeout c.budget.limit),
          { m with requests := m.requests ++ [url] }) := by
  simp only [Native.fetch, outcome_bind, outcome_read]
  cases c.host.fetch with
  | none => rfl
  | some answer =>
    simp only [outcome_bind, outcome_modify, outcome_get, outcome_ofExcept]
    cases poll c.budget m.ticks with
    | error e => rfl
    | ok u => cases answer url <;> rfl

/-- A run starts on a new machine and keeps of its last one the first unused identity. -/
theorem runFrom_eq (next : Identity) (x : Eval α) :
    runFrom c next x = ((outcome c { next } x).1, (outcome c { next } x).2.next) := by
  unfold runFrom outcome
  cases (x.run c).run { next } <;> rfl

/-! ## Expression statements -/

section ExpressionStatements
variable {c m} {call : Call}

/-- Statements that are expressions declare nothing. -/
theorem outcome_hoist_expressions (es : List Expr) :
    outcome c m (hoist (es.map .expr)) = (.ok (), m) := by
  induction es with
  | nil => rfl
  | cons e es ih => exact ih

/-- An expression statement of the program, run before the time is over, leaves the value of the
expression. -/
theorem outcome_expression {m' : Machine} {e : Expr} {v : Value}
    (hcancelled : c.budget.cancelled = none) (htime : m.ticks + 1 < c.budget.expiry)
    (he : outcome c { m with ticks := m.ticks + 1 } (expr call e) = (.ok v, m'))
    (hcallers : m'.callers = []) :
    outcome c m (stmt call false (.expr e)) = (.ok .normal, { m' with completion := v }) := by
  unfold stmt framed
  simp only [Bool.false_eq_true, if_false, outcome_bind, outcome_tick_of_lt c m hcancelled htime,
    he, complete, outcome_modify, hcallers, List.isEmpty_nil, if_true, outcome_pure]

end ExpressionStatements

end Eval
/-! ## Names and locals

While a function runs, its names stand for its own locals, for those that it took with it, for the
names of its module and for what can be read everywhere, in this order (`Eval.outcome_lookup?_eq`).
A function that is made takes with it the locals that are visible right then
(`Eval.local?_newClosure`). -/

/-- The value of a name among the locals of a function that is run and those it took with it. -/
def Activation.local? (a : Activation) (name : String) : Option Value :=
  ((findBinding? name a.frames).map (·.value)).or (a.captured.lookup name)

namespace Eval
variable {c : Context} {m : Machine}

/-- A sequence goes on with what its first step gives. -/
theorem outcome_bind_of_ok {α β : Type} {x : Eval α} {f : α → Eval β} {a : α}
    (h : (outcome c m x).1 = .ok a) :
    outcome c m (x >>= f) = outcome c (outcome c m x).2 (f a) := by
  rw [outcome_bind]
  generalize outcome c m x = first at h
  obtain ⟨r, m'⟩ := first
  obtain rfl : r = .ok a := h
  rfl

/-- The value of a name that is no local: what the module binds, then what is read-only. -/
def outer? (name : String) : Eval (Option Value) := do
  match ← lookupSibling? name with
  | some v => return some v
  | none => readOnly? name

/-- What is no local is a name of the module, which makes its functions anew, or read-only. -/
theorem outcome_outer? (name : String) :
    outcome c m (outer? name) =
      match m.current.siblings.lookup name with
      | some (.constant v) => (.ok (some v), m)
      | some (.function f captured) =>
        (.ok (some (.closure m.next f captured m.current.siblings)), { m with next := m.next + 1 })
      | none => (.ok (c.scope.lookup? name), m) := by
  unfold outer? lookupSibling?
  simp only [outcome_bind, outcome_get]
  rcases m.current.siblings.lookup name with _ | v | ⟨f, captured⟩ <;> rfl

/-- A name stands for its local value, if it has one. -/
theorem outcome_lookup?_eq (name : String) :
    outcome c m (lookup? name) =
      match m.current.local? name with
      | some v => (.ok (some v), m)
      | none => outcome c m (outer? name) := by
  unfold lookup? Activation.local?
  rw [outcome_bind, outcome_get]
  dsimp only
  cases findBinding? name m.current.frames with
  | some b => rfl
  | none => cases m.current.captured.lookup name <;> rfl

/-- Of several entries of a name the first one is found. -/
theorem lookup_foldl (entries found : List (String × Value)) (name : String) :
    (entries.foldl (fun found (p : String × Value) =>
      if (found.lookup p.1).isSome then found else (p.1, p.2) :: found) found).lookup name =
      (found.lookup name).or (entries.lookup name) := by
  induction entries generalizing found with
  | nil => rw [List.foldl_nil, List.lookup_nil, Option.or_none]
  | cons p rest ih =>
    obtain ⟨key, v⟩ := p
    rw [List.foldl_cons, ih, List.lookup_cons]
    by_cases hname : name = key
    · subst hname
      cases hfound : found.lookup name <;> simp [hfound]
    · rw [beq_false_of_ne hname]
      dsimp only
      split
      · rfl
      · rw [List.lookup_cons, beq_false_of_ne hname]

/-- The locals of all blocks hold the bindings that are found. -/
theorem lookup_flatMap (frames : List Frame) (name : String) :
    (frames.flatMap fun frame => frame.map fun (p : String × Binding) => (p.1, p.2.value)).lookup
      name = (findBinding? name frames).map (·.value) := by
  have hframe : ∀ frame : Frame,
      (frame.map fun (p : String × Binding) => (p.1, p.2.value)).lookup name =
        (frame.lookup name).map (·.value) := by
    intro frame
    induction frame with
    | nil => rfl
    | cons p rest ih =>
      rw [List.map_cons, List.lookup_cons, List.lookup_cons, ih]
      cases name == p.1 <;> rfl
  induction frames with
  | nil => rfl
  | cons frame outer ih =>
    rw [List.flatMap_cons, List.lookup_append, hframe, ih, findBinding?, findBinding?,
      List.findSome?_cons]
    cases frame.lookup name <;> rfl

/-- What is visible to a function is what it takes for the local values of its names. -/
theorem lookup_snapshot (a : Activation) (name : String) :
    (snapshot a).lookup name = a.local? name := by
  refine (lookup_foldl _ [] name).trans ?_
  rw [List.lookup_nil, Option.none_or, List.lookup_append, lookup_flatMap]
  rfl

/-- A function that is made takes with it all locals that are visible, and the names of its
module. -/
theorem local?_newClosure {f : FunctionDef} {v : Value} {m' : Machine}
    (h : outcome c m (newClosure f) = (.ok v, m')) :
    ∃ id captured, v = .closure id f captured m.current.siblings ∧
      ∀ name, captured.lookup name = m.current.local? name := by
  rw [outcome_newClosure] at h
  split at h
  · cases h
    exact ⟨_, _, rfl, lookup_snapshot m.current⟩
  · cases h

end Eval
end Stencil.Script
