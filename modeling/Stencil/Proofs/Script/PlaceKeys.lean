import Stencil.Proofs.Script.Steps

/-! # Places that are read and written

An update, an assignment with an operator and a method that changes its receiver read a place before
they write it.  **The keys of the place are evaluated for the reading, forgotten, and evaluated
again for the writing** (`place_evaluated_twice`); only the assignment of a new value, which reads
nothing, evaluates them once.  So a key with an effect has it twice, and the slot that is written
need not be the one that was read (`second_key_differs`).

To tell the two evaluations apart, an expression is evaluated in two parts: all that comes before
the write (`prepare`), which notes the keys that were evaluated on the way (`located`), and the
write itself.  Between them stands the place, which is found by evaluating all of it again
(`target`) or, if it were evaluated `once`, from the keys that are known (`resume`).
-/
namespace Stencil.Script.Eval

/-- The value of an expression, with the keys that were evaluated on the way if it is a chain of
members. -/
def located (call : Call) : Expr → Eval (Value × List String)
  | .member object property optional => do
    let (v, keys) ← located call object
    if optional && v.isNullish then return (.undefined, keys)
    let key ← propertyKey property (expr call property)
    let u ← ofExcept (v.member key)
    return (u, keys ++ [key])
  | e => do return (← expr call e, [])

/-- The place that an expression names, if the first of its keys are known. -/
def resume (call : Call) (known : List String) : Expr → Eval Target
  | .name x => return ⟨x, []⟩
  | .member object property _ => do
    let t ← resume call known object
    let key ← match known[t.keys.length]? with
      | some key => pure key
      | none => propertyKey property (expr call property)
    return { t with keys := t.keys ++ [key] }
  | _ => throw (.wrongType "Invalid assignment target")

/-- What is left of an evaluation when all has been done before a place is written. -/
inductive Pending
  /-- No place is written. -/
  | done (v : Value)
  /-- The place, the keys of it that have been evaluated, and what is done with it. -/
  | write (place : Expr) (known : List String) (finish : Target → Eval Value)

/-- Puts a value into a place, and answers with it. -/
def store (v : Value) (t : Target) : Eval Value := do
  assign t v
  return v

/-- Goes on with the place that is found from the known keys and its expression. -/
def Pending.settle (place : List String → Expr → Eval Target) : Pending → Eval Value
  | .done v => return v
  | .write e known finish => do finish (← place known e)

/-- A call of a method up to the write to the place of its receiver. -/
def prepareMethod (call : Call) (receiver : Expr) (known : List String) (self : Value)
    (key : String) (args : List Value) (optional : Bool) : Eval Pending :=
  if self.isNullish then throw (self.noMembers key)
  else
    match self.members? >>= fun members => members.lookup key with
    | some f =>
      if f.isCallable then do return .done (← call f args)
      else if optional && f.isNullish then return .done .undefined
      else throw (.notFunction key)
    | none =>
      match inPlace? receiver self key with
      | some op => do
        charge (args.length * slotBytes)
        let limits ← limits
        return .write receiver known fun t => do
          let id ← fresh
          onPlace t fun v =>
            match Value.checkHeights limits.valueDepth (t.keys.length + 1) args with
            | .ok () => op.onSlot args id limits.arrayLength v
            | .error e => (.error e, .undefined)
      | none => do
        match ← Method.invoke call self key args with
        | some v =>
          if reorders receiver self key then return .write receiver known (store v)
          else return .done v
        | none =>
          if optional then return .done .undefined
          else throw (.notFunction (receiver.describe ++ "." ++ key))

/-- An evaluation up to the write to a place. -/
def prepare (call : Call) : Expr → Eval Pending
  | .update op first place => do
    let (v, known) ← located call place
    let old := v.toNumber
    let new := stepped op old
    return .write place known fun t => do
      assign t (.number new)
      return .number (if first then new else old)
  | .assign op place value =>
    match op.binary? with
    | none => do return .write place [] (store (← expr call value))
    | some op => do
      let (old, known) ← located call place
      let v ← expr call value
      return .write place known (store (← binary op old v))
  | .call (.member object property memberOptional) args optional => do
    let (self, known) ← located call object
    if memberOptional && self.isNullish then return .done .undefined
    let key ← propertyKey property (expr call property)
    let args ← exprs call args
    prepareMethod call object known self key args optional
  | e => do return .done (← expr call e)

/-- Noting the keys does not change the value. -/
theorem expr_eq_located (call : Call) (e : Expr) : expr call e = Prod.fst <$> located call e := by
  cases e with
  | member object property optional =>
    rw [expr, located, expr_eq_located call object]
    simp only [bind_map_left, map_bind]
    refine bind_congr fun p => ?_
    split
    · rfl
    · simp only [map_bind, map_pure, bind_pure]
  | _ => simp only [located, map_bind, map_pure, bind_pure]

theorem callMethod_eq_prepareMethod (call : Call) (place : List String → Expr → Eval Target)
    (receiver : Expr) (known : List String) (self : Value) (key : String) (args : List Value)
    (optional : Bool) :
    callMethod call receiver (place known receiver) self key args optional =
      prepareMethod call receiver known self key args optional >>= Pending.settle place := by
  unfold callMethod prepareMethod
  by_cases hself : self.isNullish = true
  · rw [if_pos hself, if_pos hself]
    rfl
  rw [if_neg hself, if_neg hself]
  cases hmember : self.members? >>= fun members => members.lookup key with
  | some f =>
    dsimp only
    split
    · simp only [bind_assoc, pure_bind, Pending.settle, bind_pure]
    · split <;> rfl
  | none =>
    cases hop : inPlace? receiver self key with
    | some op =>
      dsimp only
      rw [changeInPlace, bind_assoc]
      refine bind_congr fun _ => ?_
      rw [bind_assoc]
      refine bind_congr fun limits => ?_
      rw [pure_bind]
      rfl
    | none =>
      dsimp only
      rw [bind_assoc]
      refine bind_congr fun answer => ?_
      cases answer with
      | some v =>
        dsimp only
        split <;> rfl
      | none =>
        dsimp only
        split <;> rfl

/-- The place that is written is evaluated once more, whichever of its keys are known. -/
theorem expr_eq_prepare (call : Call) (e : Expr) :
    expr call e = prepare call e >>= Pending.settle fun _ place => target call place := by
  cases e with
  | update op first place =>
    rw [expr, prepare, expr_eq_located]
    simp only [bind_map_left, bind_assoc, pure_bind, Pending.settle]
  | assign op place value =>
    rw [expr, prepare]
    cases op.binary? with
    | none => simp only [bind_assoc, pure_bind, Pending.settle, store]
    | some op =>
      rw [expr_eq_located call place]
      simp only [bind_map_left, bind_assoc, pure_bind, Pending.settle, store]
  | call callee args optional =>
    cases callee with
    | member object property memberOptional =>
      rw [expr, prepare, expr_eq_located call object]
      simp only [bind_map_left, bind_assoc]
      refine bind_congr fun p => ?_
      split
      · rfl
      · simp only [bind_assoc]
        exact bind_congr fun key => bind_congr fun args =>
          callMethod_eq_prepareMethod call (fun _ place => target call place) object p.2 p.1 key args
            optional
    | _ => simp only [prepare, bind_assoc, pure_bind, Pending.settle, bind_pure]
  | _ => simp only [prepare, bind_assoc, pure_bind, Pending.settle, bind_pure]

/-- The evaluation of an expression that evaluates every key of a place once. -/
def once (call : Call) (e : Expr) : Eval Value :=
  prepare call e >>= Pending.settle (resume call)

variable {c : Context} {m m' : Machine} {call : Call}

/-! ## Keys that are known -/

/-- If no key is known, all of them are evaluated. -/
theorem resume_nil (place : Expr) : resume call [] place = target call place := by
  induction place using Expr.isPlace.induct with
  | case1 x => rfl
  | case2 object property optional ih =>
    rw [resume, target, ih]
    rfl
  | case3 e hname hmember => rw [resume, target] <;> assumption

/-- A place of which all keys are known is found without any evaluation. -/
theorem resume_of_known {t : Target} {known : List String} {place : Expr}
    (h : (target call place).outcome c m = (.ok t, m')) (hknown : t.keys <+: known) :
    resume call known place = pure t := by
  induction place using Expr.isPlace.induct generalizing m' t with
  | case1 x =>
    cases h
    rfl
  | case2 object property optional ih =>
    rw [target] at h
    obtain ⟨t, m₁, hobject, h⟩ := outcome_bind_ok c m h
    obtain ⟨key, m₂, -, h⟩ := outcome_bind_ok c m₁ h
    cases h
    have hkey : known[t.keys.length]? = some key :=
      (List.prefix_iff_getElem?.mp hknown t.keys.length (by simp)).trans (by simp)
    rw [resume, ih hobject ((List.prefix_append _ _).trans hknown), pure_bind, hkey]
    rfl
  | case3 e hname hmember =>
    rw [target] at h
    · cases h
    all_goals assumption

/-- The place that a call of a method writes is that of its receiver. -/
theorem receiver_of_prepareMethod {receiver place : Expr} {known known' : List String}
    {self : Value} {key : String} {args : List Value} {optional : Bool}
    {finish : Target → Eval Value}
    (h : (prepareMethod call receiver known self key args optional).outcome c m =
      (.ok (.write place known' finish), m')) : place = receiver ∧ known' = known := by
  unfold prepareMethod at h
  split at h
  · cases h
  · split at h
    · split at h
      · obtain ⟨_, _, -, h⟩ := outcome_bind_ok c m h
        cases h
      · split at h <;> cases h
    · split at h
      · obtain ⟨_, m₁, -, h⟩ := outcome_bind_ok c m h
        obtain ⟨_, _, -, h⟩ := outcome_bind_ok c m₁ h
        cases h
        exact ⟨rfl, rfl⟩
      · obtain ⟨answer, m₁, -, h⟩ := outcome_bind_ok c m h
        split at h
        · split at h <;> cases h
          exact ⟨rfl, rfl⟩
        · split at h <;> cases h

/-- The keys of which an evaluation knows when it comes to a place that is written are those that
were evaluated when the place was read, first of all. -/
theorem known_of_prepare {e place : Expr} {known : List String} {finish : Target → Eval Value}
    (h : (prepare call e).outcome c m = (.ok (.write place known finish), m')) :
    known = [] ∨ ∃ v m₁, (located call place).outcome c m = (.ok (v, known), m₁) := by
  cases e with
  | update op first place =>
    rw [prepare] at h
    obtain ⟨⟨v, known⟩, m₁, hread, h⟩ := outcome_bind_ok c m h
    cases h
    exact .inr ⟨v, _, hread⟩
  | assign op place value =>
    rw [prepare] at h
    split at h
    · obtain ⟨v, m₁, -, h⟩ := outcome_bind_ok c m h
      cases h
      exact .inl rfl
    · obtain ⟨⟨old, known⟩, m₁, hread, h⟩ := outcome_bind_ok c m h
      obtain ⟨w, m₂, -, h⟩ := outcome_bind_ok c m₁ h
      obtain ⟨v, m₃, -, h⟩ := outcome_bind_ok c m₂ h
      cases h
      exact .inr ⟨old, _, hread⟩
  | call callee args optional =>
    cases callee with
    | member object property memberOptional =>
      rw [prepare] at h
      obtain ⟨⟨self, known⟩, m₁, hread, h⟩ := outcome_bind_ok c m h
      dsimp only at h
      split at h
      · cases h
      · obtain ⟨key, m₂, -, h⟩ := outcome_bind_ok c m₁ h
        obtain ⟨args, m₃, -, h⟩ := outcome_bind_ok c m₂ h
        obtain ⟨rfl, rfl⟩ := receiver_of_prepareMethod h
        exact .inr ⟨self, m₁, hread⟩
    | _ =>
      simp only [prepare] at h
      obtain ⟨_, _, -, h⟩ := outcome_bind_ok c m h
      cases h
  | _ =>
    simp only [prepare] at h
    obtain ⟨_, _, -, h⟩ := outcome_bind_ok c m h
    cases h

/-! ## Keys that are steady -/

/-- Evaluated on the machine, the keys of the place are those of the target, and evaluating them
changes nothing. -/
inductive SteadyAt (call : Call) (c : Context) (m : Machine) : Expr → Target → Prop
  | name {x : String} {v : Value} (hroot : (lookup x).outcome c m = (.ok v, m)) :
      SteadyAt call c m (.name x) ⟨x, []⟩
  | member {object property : Expr} {optional : Bool} {t : Target} {key : String}
      (hobject : SteadyAt call c m object t)
      (hkey : (propertyKey property (expr call property)).outcome c m = (.ok key, m)) :
      SteadyAt call c m (.member object property optional) { t with keys := t.keys ++ [key] }

/-- Whichever of its keys are known, a steady place is found and nothing changes. -/
theorem SteadyAt.outcome_resume {place : Expr} {t : Target} (h : SteadyAt call c m place t)
    {known : List String}
    (hknown : ∀ (i : Nat) k k', known[i]? = some k → t.keys[i]? = some k' → k = k') :
    (resume call known place).outcome c m = (.ok t, m) := by
  induction h with
  | name => rfl
  | @member object property optional t key hobject hkey ih =>
    have hobject : (resume call known object).outcome c m = (.ok t, m) := by
      refine ih fun i k k' hk hk' => hknown i k k' hk ?_
      rw [List.getElem?_append_left (List.getElem?_eq_some_iff.mp hk').1, hk']
    rw [resume, outcome_bind, hobject]
    dsimp only
    cases hlast : known[t.keys.length]? with
    | none =>
      dsimp only
      rw [outcome_bind, hkey]
      rfl
    | some k =>
      obtain rfl : k = key := hknown _ k key hlast (by simp)
      rfl

/-- Reading a steady place changes nothing, and evaluates its keys as far as it goes: a link that
may be missing ends the reading with `undefined`. -/
theorem SteadyAt.outcome_located {place : Expr} {t : Target} (h : SteadyAt call c m place t)
    {v : Value} {known : List String}
    (hread : (located call place).outcome c m = (.ok (v, known), m')) :
    m' = m ∧ known <+: t.keys ∧ (known = t.keys ∨ v = .undefined) := by
  induction h generalizing v known m' with
  | @name x u hroot =>
    simp only [located, expr] at hread
    rw [outcome_bind, hroot] at hread
    cases hread
    exact ⟨rfl, List.prefix_refl _, .inl rfl⟩
  | @member object property optional t key hobject hkey ih =>
    rw [located] at hread
    obtain ⟨⟨u, keys⟩, m₁, hu, hrest⟩ := outcome_bind_ok c m hread
    obtain ⟨rfl, hprefix, hall⟩ := ih hu
    dsimp only at hrest
    split at hrest
    · cases hrest
      exact ⟨rfl, hprefix.trans (List.prefix_append _ _), .inr rfl⟩
    · rw [outcome_bind, hkey] at hrest
      obtain ⟨w, m₂, hmember, hrest⟩ := outcome_bind_ok c _ hrest
      cases hrest
      rw [outcome_ofExcept] at hmember
      obtain ⟨hmember, rfl⟩ := Prod.mk.inj hmember
      obtain rfl : keys = t.keys := by
        -- A reading that ended early gave `undefined`, which has no members.
        refine hall.resolve_right ?_
        rintro rfl
        unfold Value.member at hmember
        split at hmember <;> cases hmember
      exact ⟨rfl, List.prefix_refl _, .inl rfl⟩

theorem outcome_allowedKey_ok {key : String} (hkey : Security.isDenied key = false) :
    (allowedKey key).outcome c m = (.ok key, m) := by
  unfold allowedKey
  rw [hkey]
  rfl

/-- A key that is spelled out is steady. -/
theorem outcome_propertyKey_string {key : String} (hkey : Security.isDenied key = false)
    (value : Eval Value) : (propertyKey (.string key) value).outcome c m = (.ok key, m) :=
  outcome_allowedKey_ok hkey

/-- A key that a local name stands for is steady. -/
theorem outcome_propertyKey_name {x : String} {v : Value} (hx : m.current.local? x = some v)
    (hv : Security.isDenied v.keyText = false) :
    (propertyKey (.name x) (expr call (.name x))).outcome c m = (.ok v.keyText, m) := by
  have hlookup : (lookup x).outcome c m = (.ok v, m) := by
    rw [lookup, outcome_bind, outcome_lookup?_eq, hx]
    rfl
  unfold propertyKey
  rw [expr, outcome_bind, hlookup]
  exact outcome_allowedKey_ok hv

/-! ## Evaluating a place twice -/

/-- It does not matter that a place is evaluated again if it is found as it would be from the keys
that are known. -/
theorem outcome_expr_eq_once {e place : Expr} {known : List String} {finish : Target → Eval Value}
    (h : (prepare call e).outcome c m = (.ok (.write place known finish), m'))
    (hplace : (target call place).outcome c m' = (resume call known place).outcome c m') :
    (expr call e).outcome c m = (once call e).outcome c m := by
  rw [expr_eq_prepare, once, outcome_bind, outcome_bind, h]
  dsimp only [Pending.settle]
  rw [outcome_bind, outcome_bind, hplace]

/-- **A place that is read and written is evaluated twice.**  Whatever an expression does before it
writes a place, it forgets the keys that it has evaluated, and evaluates the place again.  The
outcome is that of a single evaluation if the second one gives the same keys and changes nothing; it
is as well if the keys are steady both where the place is read and where it is written. -/
theorem place_evaluated_twice (call : Call) (e : Expr) :
    (expr call e = prepare call e >>= Pending.settle fun _ place => target call place) ∧
    ∀ c m m' place known finish t,
      (prepare call e).outcome c m = (.ok (.write place known finish), m') →
      ((target call place).outcome c m' = (.ok t, m') ∧ t.keys = known ∨
        SteadyAt call c m place t ∧ SteadyAt call c m' place t) →
      (expr call e).outcome c m = (once call e).outcome c m := by
  refine ⟨expr_eq_prepare call e, fun c m m' place known finish t h hkeys => ?_⟩
  refine outcome_expr_eq_once h ?_
  rcases hkeys with ⟨htarget, rfl⟩ | ⟨hread, hwritten⟩
  · rw [htarget, resume_of_known htarget (List.prefix_refl _)]
    rfl
  · have hknown : known <+: t.keys := by
      -- The place was read first of all, that is on the machine where its keys are steady.
      rcases known_of_prepare h with rfl | ⟨v, m₁, hlocated⟩
      · exact List.nil_prefix
      · exact (hread.outcome_located hlocated).2.1
    have hagain : (target call place).outcome c m' = (.ok t, m') := by
      rw [← resume_nil]
      exact hwritten.outcome_resume fun i k k' hk => nomatch hk
    rw [hagain, hwritten.outcome_resume fun i k k' hk hk' => ?_]
    obtain ⟨hi, rfl⟩ := List.getElem?_eq_some_iff.mp hk
    exact Option.some.inj ((List.prefix_iff_getElem?.mp hknown i hi).symm.trans hk')

/-- One key of the place is spelled out, and a local stands for the other one. -/
theorem place_evaluated_twice_local :
    let c : Context := { budget := { limit := 5000 } }
    let call : Call := fun _ _ => pure .undefined
    let o : Value := .object 0 [("x", .object 1 [("y", .array 2 #[])])]
    let m : Machine := {
      current := ⟨[[("o", ⟨o, false⟩), ("k", ⟨.string "y", false⟩)]], [], []⟩
      next := 3 }
    let place : Expr := .member (.member (.name "o") (.string "x") false) (.name "k") false
    let e : Expr := .call (.member place (.string "push") false) [.bool true] false
    (expr call e).outcome c m = (once call e).outcome c m := by
  intro c call o m place e
  have hprepare : ∃ finish, (prepare call e).outcome c m =
      (.ok (.write place ["x", "y"] finish), { m with allocated := slotBytes }) := ⟨_, rfl⟩
  obtain ⟨finish, hprepare⟩ := hprepare
  have hsteady : ∀ allocated, SteadyAt call c { m with allocated } place ⟨"o", ["x", "y"]⟩ :=
    fun allocated => .member (.member (.name (v := o) rfl) (outcome_propertyKey_string rfl _))
      (outcome_propertyKey_name (v := .string "y") rfl rfl)
  exact (place_evaluated_twice call e).2 c m _ place ["x", "y"] finish ⟨"o", ["x", "y"]⟩ hprepare
    (.inr ⟨hsteady 0, hsteady slotBytes⟩)

/-- The array that is read is that under `true`, the one that is changed is that under `false`. -/
theorem second_key_differs :
    let c : Context := { budget := { limit := 5000 } }
    let call : Call := fun _ _ => pure .undefined
    let members := [("true", Value.array 1 #[]), ("false", .array 2 #[])]
    let m : Machine := {
      current := ⟨[[("o", ⟨.object 0 members, false⟩), ("k", ⟨.bool false, false⟩)]], [], []⟩
      next := 3 }
    let key : Expr := .assign .assign (.name "k") (.unary .not (.name "k"))
    let e : Expr := .call (.member (.member (.name "o") key false) (.string "push") false)
      [.bool true] false
    ((expr call e).outcome c m).2.current.frames =
        [[("o", ⟨.object 4 [("true", .array 1 #[]), ("false", .array 3 #[.bool true])], false⟩),
          ("k", ⟨.bool false, false⟩)]] ∧
      ((once call e).outcome c m).2.current.frames =
        [[("o", ⟨.object 4 [("true", .array 3 #[.bool true]), ("false", .array 2 #[])], false⟩),
          ("k", ⟨.bool true, false⟩)]] := by
  intro c call members m key e
  exact ⟨rfl, rfl⟩

end Stencil.Script.Eval
