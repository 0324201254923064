import Stencil.Proofs.Script.Steps

/-! # Chains with optional links

A **chain** puts links behind an expression: members and calls.  Where the value in front of an
optional link is `undefined` or `null`, the link is skipped with all that stands in it, and gives
`undefined`.  So the chain is `undefined` if each of the links after it is skipped as well; a call of
a member that is skipped always is.  A link that is not optional is not skipped by what stands in
front of it: it fails on `undefined`, and the chain with it (`Eval.chain_of_nullish`).
-/
namespace Stencil.Script

/-- A link of a chain. -/
inductive Link where
  | member (property : Expr) (optional : Bool)
  | call (args : List Expr) (optional : Bool)

namespace Link

/-- Whether the link is marked to be skipped. -/
def isOptional : Link → Bool
  | .member _ optional | .call _ optional => optional

/-- Puts the link behind an expression. -/
def onto (e : Expr) : Link → Expr
  | .member property optional => .member e property optional
  | .call args optional => .call e args optional

/-- Whether `undefined` makes all links be skipped.  A call belongs to the member in front of it. -/
def areSkipped : List Link → Bool
  | [] => true
  | .member _ optional :: .call _ _ :: rest => optional && areSkipped rest
  | .member _ optional :: rest => optional && areSkipped rest
  | .call _ optional :: rest => optional && areSkipped rest

/-- No call comes first. -/
def NoCallFirst (links : List Link) : Prop :=
  ∀ args optional rest, links ≠ .call args optional :: rest

end Link

namespace Expr

/-- Whether the expression is a member, which a call behind it would call as a method. -/
def isMember : Expr → Bool
  | .member .. => true
  | _ => false

/-- The links behind the expression, in turn. -/
def chain (base : Expr) (links : List Link) : Expr :=
  links.foldl Link.onto base

@[simp]
theorem chain_nil (base : Expr) : base.chain [] = base := rfl

@[simp]
theorem chain_member (base property : Expr) (optional : Bool) (links : List Link) :
    base.chain (.member property optional :: links) =
      (Expr.member base property optional).chain links := rfl

@[simp]
theorem chain_call (base : Expr) (args : List Expr) (optional : Bool) (links : List Link) :
    base.chain (.call args optional :: links) = (Expr.call base args optional).chain links := rfl

theorem chain_append (base : Expr) (links links' : List Link) :
    base.chain (links ++ links') = (base.chain links).chain links' :=
  List.foldl_append

/-- The expression is evaluated on its own: no call makes a method of it. -/
def IsReceiver (base : Expr) (links : List Link) : Prop :=
  base.isMember → Link.NoCallFirst links

end Expr

namespace Eval
open Link (areSkipped NoCallFirst)

/-! ## Steps that fail -/

section Failing
variable {α β : Type} {c : Context} {m : Machine} {x : Eval α}

/-- The step ends with an error. -/
def Fails (c : Context) (m : Machine) (x : Eval α) : Prop :=
  ∃ e m', outcome c m x = (.error e, m')

theorem fails_throw (e : ScriptError) : Fails c m (throw e : Eval α) :=
  ⟨e, m, rfl⟩

theorem outcome_bind_error {f : α → Eval β} {e : ScriptError} {m' : Machine}
    (h : outcome c m x = (.error e, m')) : outcome c m (x >>= f) = (.error e, m') := by
  rw [outcome_bind, h]

theorem Fails.bind (h : Fails c m x) (f : α → Eval β) : Fails c m (x >>= f) := by
  obtain ⟨e, m', h⟩ := h
  exact ⟨e, m', outcome_bind_error h⟩

/-- A sequence fails if its first step fails, or if what follows does. -/
theorem fails_bind (x : Eval α) {f : α → Eval β}
    (hf : ∀ a m', outcome c m x = (.ok a, m') → Fails c m' (f a)) : Fails c m (x >>= f) := by
  rcases hrun : outcome c m x with ⟨e | a, m'⟩
  · exact ⟨e, m', outcome_bind_error hrun⟩
  · obtain ⟨e, m₁, h⟩ := hf a m' hrun
    exact ⟨e, m₁, by rw [outcome_bind, hrun]; exact h⟩

end Failing

variable {c : Context} {m m' : Machine} {enter : Call} {base property : Expr} {v : Value}
  {args : List Expr} {optional : Bool} {links rest : List Link}

/-! ## Links behind `undefined` or `null` -/

theorem eq_of_isNullish (hv : v.isNullish) : v = .undefined ∨ v = .null := by
  cases v with
  | undefined => exact .inl rfl
  | null => exact .inr rfl
  | _ => cases hv

theorem member_of_isNullish (hv : v.isNullish) (key : String) :
    v.member key =
      .error (if Security.isDenied key then .deniedName key else v.noMembers key) := by
  unfold Value.member
  split
  · rfl
  · obtain rfl | rfl := eq_of_isNullish hv <;> rfl

/-- An optional member is skipped, and its property with it. -/
theorem outcome_optionalMember (hbase : outcome c m (expr (callVia enter) base) = (.ok v, m'))
    (hv : v.isNullish) :
    outcome c m (expr (callVia enter) (.member base property true)) = (.ok .undefined, m') := by
  simp [expr, outcome_bind, hbase, hv]

/-- So is a call of it. -/
theorem outcome_optionalMethod (hbase : outcome c m (expr (callVia enter) base) = (.ok v, m'))
    (hv : v.isNullish) :
    outcome c m (expr (callVia enter) (.call (.member base property true) args optional)) =
      (.ok .undefined, m') := by
  simp [expr, outcome_bind, hbase, hv]

/-- A call of what is no member evaluates that first, and checks it if it is a name. -/
theorem expr_call_receiver (call : Call) (hmember : base.isMember = false) (args : List Expr)
    (optional : Bool) :
    ∃ check : Value → List Value → Eval Unit, expr call (.call base args optional) = (do
      let f ← expr call base
      if optional && f.isNullish then return .undefined
      let vs ← exprs call args
      check f vs
      call f vs) := by
  cases base with
  | member => cases hmember
  | name x => exact ⟨checkNamedCall x, by rw [expr, expr]⟩
  | _ =>
    refine ⟨fun _ _ => pure (), ?_⟩
    conv => lhs; unfold expr
    simp only [pure_bind]

/-- An optional call is skipped, and its arguments with it. -/
theorem outcome_optionalCall (hmember : base.isMember = false)
    (hbase : outcome c m (expr (callVia enter) base) = (.ok v, m')) (hv : v.isNullish) :
    outcome c m (expr (callVia enter) (.call base args true)) = (.ok .undefined, m') := by
  obtain ⟨check, hcall⟩ := expr_call_receiver (callVia enter) hmember args true
  simp [hcall, outcome_bind, hbase, hv]

/-- A plain member with a key that is allowed fails at once. -/
theorem outcome_plainMember {key : String} (hkey : Security.isDenied key = false)
    (hbase : outcome c m (expr (callVia enter) base) = (.ok v, m')) (hv : v.isNullish) :
    outcome c m (expr (callVia enter) (.member base (.string key) false)) =
      (.error (v.noMembers key), m') := by
  simp [expr, outcome_bind, hbase, propertyKey, allowedKey, hkey, member_of_isNullish hv]

theorem fails_plainMember (hbase : outcome c m (expr (callVia enter) base) = (.ok v, m'))
    (hv : v.isNullish) : Fails c m (expr (callVia enter) (.member base property false)) := by
  rw [expr]
  refine fails_bind _ fun w m₁ hw => ?_
  obtain ⟨rfl, rfl⟩ : v = w ∧ m' = m₁ := by simpa [hbase] using hw
  refine fails_bind _ fun key m₂ _ => ?_
  rw [member_of_isNullish hv]
  exact fails_throw _

/-- A plain method fails, after its property and its arguments have been evaluated. -/
theorem fails_plainMethod (hbase : outcome c m (expr (callVia enter) base) = (.ok v, m'))
    (hv : v.isNullish) :
    Fails c m (expr (callVia enter) (.call (.member base property false) args optional)) := by
  rw [expr]
  refine fails_bind _ fun w m₁ hw => ?_
  obtain ⟨rfl, rfl⟩ : v = w ∧ m' = m₁ := by simpa [hbase] using hw
  refine fails_bind _ fun key m₂ _ => fails_bind _ fun vs m₃ _ => ?_
  unfold callMethod
  rw [if_pos hv]
  exact fails_throw _

theorem fails_plainCall (hmember : base.isMember = false)
    (hbase : outcome c m (expr (callVia enter) base) = (.ok v, m')) (hv : v.isNullish) :
    Fails c m (expr (callVia enter) (.call base args false)) := by
  obtain ⟨check, hcall⟩ := expr_call_receiver (callVia enter) hmember args false
  rw [hcall]
  refine fails_bind _ fun w m₁ hw => ?_
  obtain ⟨rfl, rfl⟩ : v = w ∧ m' = m₁ := by simpa [hbase] using hw
  refine fails_bind _ fun vs m₂ _ => fails_bind _ fun _ m₃ _ => fails_bind _ fun _ m₄ _ => ?_
  obtain rfl | rfl := eq_of_isNullish hv <;> exact fails_throw _

/-! ## Chains -/

theorem isReceiver_call (base : Expr) (args : List Expr) (optional : Bool) (links : List Link) :
    (Expr.call base args optional).IsReceiver links :=
  fun hmember => by cases hmember

theorem isReceiver_of_noCallFirst (base : Expr) (h : NoCallFirst links) : base.IsReceiver links :=
  fun _ => h

theorem isMember_eq_false (h : base.IsReceiver (.call args optional :: links)) :
    base.isMember = false := by
  cases hmember : base.isMember with
  | false => rfl
  | true => exact (h hmember args optional links rfl).elim

/-- The error of a receiver is that of the whole chain. -/
theorem outcome_chain_error {e : ScriptError} (hreceiver : base.IsReceiver links)
    (h : outcome c m (expr (callVia enter) base) = (.error e, m')) :
    outcome c m (expr (callVia enter) (base.chain links)) = (.error e, m') := by
  induction links using Link.areSkipped.induct generalizing base with
  | case1 => exact h
  | case2 property optional args callOptional rest ih =>
    rw [Expr.chain_member, Expr.chain_call]
    refine ih (isReceiver_call _ _ _ _) ?_
    rw [expr]
    exact outcome_bind_error h
  | case3 property optional rest hnoCall ih =>
    rw [Expr.chain_member]
    refine ih (isReceiver_of_noCallFirst _ hnoCall) ?_
    rw [expr]
    exact outcome_bind_error h
  | case4 args optional rest ih =>
    obtain ⟨check, hcall⟩ :=
      expr_call_receiver (callVia enter) (isMember_eq_false hreceiver) args optional
    rw [Expr.chain_call]
    refine ih (isReceiver_call _ _ _ _) ?_
    rw [hcall]
    exact outcome_bind_error h

theorem Fails.chain (hreceiver : base.IsReceiver links) (h : Fails c m (expr (callVia enter) base)) :
    Fails c m (expr (callVia enter) (base.chain links)) := by
  obtain ⟨e, m', h⟩ := h
  exact ⟨e, m', outcome_chain_error hreceiver h⟩

/-- The links behind `undefined` or `null` are skipped, or one of them fails. -/
theorem outcome_chain (hreceiver : base.IsReceiver links)
    (hbase : outcome c m (expr (callVia enter) base) = (.ok v, m')) (hv : v.isNullish) :
    if areSkipped links then
      outcome c m (expr (callVia enter) (base.chain links)) =
        (.ok (if links.isEmpty then v else .undefined), m')
    else Fails c m (expr (callVia enter) (base.chain links)) := by
  induction links using Link.areSkipped.induct generalizing base v with
  | case1 => exact hbase
  | case2 property optional args callOptional rest ih =>
    have hnext := isReceiver_call (.member base property optional) args callOptional rest
    rw [Expr.chain_member, Expr.chain_call]
    cases optional with
    | true => simpa [areSkipped] using ih hnext (outcome_optionalMethod hbase hv) rfl
    | false => exact (fails_plainMethod hbase hv).chain hnext
  | case3 property optional rest hnoCall ih =>
    have hnext := isReceiver_of_noCallFirst (.member base property optional) hnoCall
    rw [Expr.chain_member]
    cases optional with
    | true => simpa [areSkipped] using ih hnext (outcome_optionalMember hbase hv) rfl
    | false => simpa [areSkipped] using (fails_plainMember hbase hv).chain hnext
  | case4 args optional rest ih =>
    have hmember := isMember_eq_false hreceiver
    have hnext := isReceiver_call base args optional rest
    rw [Expr.chain_call]
    cases optional with
    | true => simpa [areSkipped] using ih hnext (outcome_optionalCall hmember hbase hv) rfl
    | false => exact (fails_plainCall hmember hbase hv).chain hnext

/-- The first member that is not skipped fails, if no call is made of it. -/
theorem outcome_chain_plainMember {key : String} {front back : List Link}
    (hkey : Security.isDenied key = false)
    (hreceiver : base.IsReceiver (front ++ .member (.string key) false :: back))
    (hbase : outcome c m (expr (callVia enter) base) = (.ok v, m')) (hv : v.isNullish)
    (hfront : areSkipped front) (hback : NoCallFirst back) :
    outcome c m
        (expr (callVia enter) (base.chain (front ++ .member (.string key) false :: back))) =
      (.error ((if front.isEmpty then v else .undefined).noMembers key), m') := by
  have hlinks : base.IsReceiver front := by
    rintro hmember args optional rest rfl
    exact hreceiver hmember _ _ _ rfl
  have hskipped := outcome_chain hlinks hbase hv
  rw [if_pos hfront] at hskipped
  have hnullish : (if front.isEmpty then v else Value.undefined).isNullish := by
    split
    · exact hv
    · rfl
  rw [Expr.chain_append, Expr.chain_member]
  exact outcome_chain_error (isReceiver_of_noCallFirst _ hback)
    (outcome_plainMember hkey hskipped hnullish)

/-- **What a chain comes to whose optional link stands behind `undefined` or `null`.**  Nothing more
is evaluated, and the chain is `undefined`, if the links behind the optional one are skipped too;
otherwise the chain fails, and with the error of the first member that is not skipped unless this is
called.  An optional call of a member of an object, where there is no such member or it is
`undefined` or `null`, gives `undefined` as well, but evaluates its arguments before. -/
theorem chain_of_nullish (c : Context) (m : Machine) (enter : Call) :
    (∀ receiver v m' link rest, outcome c m (expr (callVia enter) receiver) = (.ok v, m') →
      v.isNullish → link.isOptional → receiver.IsReceiver (link :: rest) →
      (areSkipped (link :: rest) →
        outcome c m (expr (callVia enter) (receiver.chain (link :: rest))) =
          (.ok .undefined, m')) ∧
      (¬ areSkipped (link :: rest) →
        Fails c m (expr (callVia enter) (receiver.chain (link :: rest)))) ∧
      (∀ front key back, link :: rest = front ++ .member (.string key) false :: back →
        areSkipped front → NoCallFirst back → Security.isDenied key = false →
        outcome c m (expr (callVia enter) (receiver.chain (link :: rest))) =
          (.error (Value.undefined.noMembers key), m'))) ∧
    (∀ object key args rest id members vs m₁ m₂,
      outcome c m (expr (callVia enter) object) = (.ok (.object id members), m₁) →
      Security.isDenied key = false →
      outcome c m₁ (exprs (callVia enter) args) = (.ok vs, m₂) →
      (∀ f, members.lookup key = some f → f.isNullish) →
      (members.lookup key = none → Method.ofObject members key vs = none) → areSkipped rest →
      outcome c m (expr (callVia enter)
        (object.chain (.member (.string key) false :: .call args true :: rest))) =
          (.ok .undefined, m₂)) := by
  refine ⟨?_, ?_⟩
  · intro receiver v m' link rest hreceiver hv hoptional halone
    have hchain := outcome_chain halone hreceiver hv
    refine ⟨fun hskipped => ?_, fun hskipped => ?_, ?_⟩
    · rwa [if_pos hskipped] at hchain
    · rwa [if_neg hskipped] at hchain
    · intro front key back hlinks hfront hback hkey
      rw [hlinks] at halone ⊢
      have herror := outcome_chain_plainMember hkey halone hreceiver hv hfront hback
      have hnonempty : front.isEmpty = false := by
        cases front with
        | nil =>
          obtain rfl := (List.cons.inj hlinks).1
          cases hoptional
        | cons => rfl
      rwa [hnonempty] at herror
  · intro object key args rest id members vs m₁ m₂ hobject hkey hargs hfound hmissing hrest
    have hcall : outcome c m
        (expr (callVia enter) (.call (.member object (.string key) false) args true)) =
          (.ok .undefined, m₂) := by
      have hmethod : callMethod (callVia enter) object (target (callVia enter) object)
          (.object id members) key vs true = pure .undefined := by
        have hself : (Value.object id members).isNullish = false := rfl
        unfold callMethod
        cases hlookup : members.lookup key with
        | some f =>
          have hcallable : f.isCallable = false := by
            obtain rfl | rfl := eq_of_isNullish (hfound f hlookup) <;> rfl
          simp [hself, Value.members?, hlookup, hcallable, hfound f hlookup]
        | none =>
          have hinvoke : Method.invoke (callVia enter) (.object id members) key vs = pure none :=
            congrArg pure (hmissing hlookup)
          simp [hself, Value.members?, hlookup, inPlace?, Value.isArray, hinvoke]
      rw [expr]
      simp [outcome_bind, hobject, propertyKey, allowedKey, hkey, hargs, hmethod,
        Value.isNullish]
    rw [Expr.chain_member, Expr.chain_call]
    have hchain := outcome_chain (isReceiver_call _ _ _ rest) hcall rfl
    rw [if_pos hrest] at hchain
    simpa using hchain

/-- The chain `null?.a?.[++n]?.b(x)` is `undefined` where neither `n` nor `x` is bound; `null?.a.b`
fails with its second member; and `({ b: null }).b?.([])` makes its argument. -/
theorem chain_of_nullish_null :
    let c : Context := { budget := { limit := 5000 } }
    let m : Machine := { next := 0 }
    let call := callVia (Eval.enter 1)
    let skipped : List Link := [.member (.string "a") true,
      .member (.update .inc true (.name "n")) true, .member (.string "b") true,
      .call [.name "x"] false]
    let stuck : List Link := [.member (.string "a") true, .member (.string "b") false]
    let object : Expr := .object [("b", .null)]
    outcome c m (expr call .null) = (.ok .null, m) ∧ Value.null.isNullish ∧
      Expr.null.IsReceiver skipped ∧ areSkipped skipped ∧
      outcome c m (expr call (Expr.null.chain skipped)) = (.ok .undefined, m) ∧
      Expr.null.IsReceiver stuck ∧ ¬ areSkipped stuck ∧
      Fails c m (expr call (Expr.null.chain stuck)) ∧
      outcome c m (expr call (Expr.null.chain stuck)) =
        (.error (.wrongType "Cannot read properties of undefined (reading 'b')"), m) ∧
      (outcome c m (expr call object)).1 = .ok (.object 0 [("b", .null)]) ∧
      (outcome c m (expr call (object.chain
        [.member (.string "b") false, .call [.array []] true]))).1 = .ok .undefined ∧
      (outcome c m (expr call (object.chain
        [.member (.string "b") false, .call [.array []] true]))).2.next = 2 := by
  intro c m call skipped stuck object
  obtain ⟨hnullish, hmethod⟩ := chain_of_nullish c m (Eval.enter 1)
  have hnull : outcome c m (expr call .null) = (.ok .null, m) := rfl
  have hreceiver : ∀ links, Expr.null.IsReceiver links := fun _ hmember => by cases hmember
  have hskipped : areSkipped skipped := by decide
  have hstuck : ¬ areSkipped stuck := by decide
  have hargument := hmethod object "b" [.array []] [] 0 [("b", .null)] [.array 1 #[]] _ _
    rfl (by decide) rfl (fun f hf => by cases hf; rfl) (fun hnone => by cases hnone) rfl
  have hmessage : Value.undefined.noMembers "b" =
      .wrongType "Cannot read properties of undefined (reading 'b')" := by
    decide
  rw [← hmessage]
  refine ⟨hnull, rfl, hreceiver _, hskipped, ?_, hreceiver _, hstuck, ?_, ?_, rfl, ?_, ?_⟩
  · exact (hnullish .null .null m _ _ hnull rfl rfl (hreceiver skipped)).1 hskipped
  · exact (hnullish .null .null m _ _ hnull rfl rfl (hreceiver stuck)).2.1 hstuck
  · exact (hnullish .null .null m _ _ hnull rfl rfl (hreceiver stuck)).2.2
      [.member (.string "a") true] "b" [] rfl rfl (fun _ _ _ h => by cases h) (by decide)
  · exact congrArg Prod.fst hargument
  · exact congrArg (fun result => result.2.next) hargument

end Eval
end Stencil.Script
