import Stencil.Proofs.Script.MatchLogic.Natives
import Stencil.Script.Run

/-! # Expressions, statements and programs under a logic of steps that match

**A logic of steps that match holds of everything that is evaluated** (`expr`, `stmt`,
`programWith`) on trees that are alike in the sense of the mode in which they are run.  The proofs
follow the trees, one case for each construct; what a larger form does is said first of any parts
that do the same (`Evals`, `Runs`).  Calls leave the tree, and for them `enter` closes the circle by
induction on the number of calls that may still be nested.
-/
namespace Stencil.Script
open Value (argument)

namespace Eval

theorem isPlain_unary (op : UnaryOp) (v : Value) : (unary op v).isPlain := by
  cases op <;> rfl

theorem isPlain_iteratedKeys (v : Value) : ∀ u ∈ iteratedKeys v, u.isPlain := by
  unfold iteratedKeys
  split
  case h_4 => exact List.forall_mem_nil _
  all_goals
    intro u hu
    obtain ⟨c, -, rfl⟩ := List.mem_map.mp hu
    rfl

theorem changes_of_inPlace? {receiver : Expr} {self : Value} {key : String} {op : Method.InPlace}
    (h : inPlace? receiver self key = some op) : Method.changes key := by
  unfold inPlace? at h
  split at h
  · simp [Method.changes, h]
  · cases h

theorem changes_of_reorders {receiver : Expr} {self : Value} {key : String}
    (h : reorders receiver self key) : Method.changes key := by
  unfold reorders at h
  unfold Method.changes
  grind

theorem propertyKey_of_ne {property : Expr} (value : Eval Value)
    (h : ∀ s, property ≠ .string s) :
    propertyKey property value = value >>= fun v => allowedKey v.keyText := by
  cases property with
  | string s => exact (h s rfl).elim
  | _ => rfl

theorem expr_call_of_ne {call : Call} {callee : Expr} {args : List Expr} {optional : Bool}
    (hname : ∀ x, callee ≠ .name x) (hmember : ∀ o p b, callee ≠ .member o p b) :
    expr call (.call callee args optional) = (do
      let f ← expr call callee
      if optional && f.isNullish then return .undefined
      call f (← exprs call args)) := by
  cases callee with
  | name x => exact (hname x rfl).elim
  | member o p b => exact (hmember o p b rfl).elim
  | _ => rfl

theorem expr_construct_of_ne {call : Call} {callee : Expr} {args : List Expr}
    (h : ∀ x, callee ≠ .name x) :
    expr call (.construct callee args) = (do
      let _ ← exprs call args
      throw (.wrongType "expression is not a constructor")) := by
  cases callee with
  | name x => exact (h x rfl).elim
  | _ => rfl

theorem expr_unary_of_ne {call : Call} {op : UnaryOp} {operand : Expr}
    (h : op = .typeOf → ∀ x, operand ≠ .name x) :
    expr call (.unary op operand) = (do return unary op (← expr call operand)) := by
  cases op with
  | typeOf =>
    cases operand with
    | name x => exact (h rfl x rfl).elim
    | _ => rfl
  | _ => rfl

theorem target_of_ne {call : Call} {e : Expr} (hname : ∀ x, e ≠ .name x)
    (hmember : ∀ o p b, e ≠ .member o p b) :
    target call e = throw (.wrongType "Invalid assignment target") := by
  cases e with
  | name x => exact (hname x rfl).elim
  | member o p b => exact (hmember o p b rfl).elim
  | _ => rfl

end Eval

namespace MatchLogic
variable {L : MatchLogic} {A : L.Mode} {w : L.World} {n : Nat} {r : Reach}
  {call call' : Call} {v v' u u' : Value} {args args' : List Value}

/-! ## Operators and calls -/

theorem typeOfName (name : String) (h : (L.trees A).reads name) :
    L.Holds A w n r (Eval.typeOfName name) (Eval.typeOfName name) L.Match := by
  refine L.bind (L.ofCall (L.lookup? name h)) ?_
  rintro w₁ _ _ - (hv | _)
  · dsimp only [Option.map_some, Option.getD_some]
    rw [((L.resembles w₁).looks hv).typeOf]
    exact resultPlain rfl
  · exact resultPlain rfl

theorem binary (op : BinaryOp) (hv : L.Match w v v') (hu : L.Match w u u') :
    L.Holds A w n r (Eval.binary op v u) (Eval.binary op v' u') L.Match := by
  have hR := L.resembles w
  unfold Eval.binary
  simp only [hR.toNumber hv, hR.toNumber hu, hR.compare? hv hu, hR.keyText hv,
    hR.strictEquals hv hu, hR.looseEquals hv hu]
  cases op with
  | add =>
    unfold Eval.add
    rw [hR.toPrimitive hv, hR.toPrimitive hu]
    dsimp only
    split
    · exact newString _
    · exact resultPlain rfl
  | mem =>
    exact seq (ofAnswers (hR.hasMember hu v.keyText) fun _ _ h => h.symm) fun _ _ _ =>
      resultPlain rfl
  | _ => exact resultPlain rfl

theorem allowedKey (key : String) :
    L.Holds A w n r (Eval.allowedKey key) (Eval.allowedKey key) L.SameKey :=
  guard rfl fun hallowed => L.result ⟨L.allowedKeys (Bool.eq_false_iff.mpr hallowed), rfl⟩

/-- A sequence whose first step gives the key that a property denotes. -/
theorem seqProperty {α : Type} {R : L.World → α → α → Prop} {property property' : Expr}
    {value value' : Eval Value} {f f' : String → Eval α}
    (hproperty : property.Like (L.trees A) property')
    (hvalue : L.Holds A w n r value value' L.Match)
    (hf : ∀ w' key, L.Le w w' → L.Keys w' key → (∀ s, property = .string s → key = s) →
      L.Holds A w' n r (f key) (f' key) R) :
    L.Holds A w n r (Eval.propertyKey property value >>= f)
      (Eval.propertyKey property' value' >>= f') R := by
  by_cases hstring : ∃ s, property = .string s
  · obtain ⟨s, rfl⟩ := hstring
    obtain rfl := (hproperty.string_iff s).mpr rfl
    refine L.bind (P := fun w key key' => L.SameKey w key key' ∧ key = s) ?_ ?_
    · exact guard rfl fun hallowed =>
        L.result ⟨⟨L.allowedKeys (Bool.eq_false_iff.mpr hallowed), rfl⟩, rfl⟩
    · rintro w₁ key key' hw₁ ⟨⟨hkey, hsame⟩, hs⟩
      rw [hsame]
      exact hf w₁ key hw₁ hkey fun _ h => hs.trans (Expr.string.inj h)
  · have hleft := Eval.propertyKey_of_ne value fun s h => hstring ⟨s, h⟩
    have hright := Eval.propertyKey_of_ne value' fun s h =>
      hstring ⟨s, (hproperty.string_iff s).mp h⟩
    rw [hleft, hright, bind_assoc, bind_assoc]
    refine L.bind hvalue fun w₁ v v' hw₁ hv => ?_
    rw [(L.resembles w₁).keyText hv]
    refine seqKey (allowedKey _) fun w₂ key hw₂ hkey => ?_
    exact hf w₂ key (L.trans hw₁ hw₂) hkey fun s h => (hstring ⟨s, h⟩).elim

theorem checkNamedCall (name : String) (hv : L.Match w v v') (hargs : L.MatchAll w args args') :
    L.Holds A w n r (Eval.checkNamedCall name v args) (Eval.checkNamedCall name v' args')
      L.Same := by
  have hR := L.resembles w
  unfold Eval.checkNamedCall
  rw [(hR.looks hv).isCallable]
  refine guard rfl fun _ => seq (L.ofCall (L.isLocal name)) fun _ _ _ => ?_
  refine seq (L.ofCall (L.isHelper name)) fun _ _ _ => ?_
  split
  · exact seq (L.ofCall L.limits) fun _ limits _ =>
      ofAnswers (hR.checkArguments limits.arguments hargs) fun _ _ h => h.symm
  · exact same ()

/-- The method that a member of an object is. -/
theorem memberMethod (hv : L.Match w v v') (key : String) :
    Option.Rel (L.Match w) (v.members? >>= fun members => members.lookup key)
      (v'.members? >>= fun members => members.lookup key) := by
  have hmembers := ((L.resembles w).looks hv).members
  generalize v.members? = o at hmembers
  generalize v'.members? = o' at hmembers
  cases hmembers with
  | none => exact .none
  | some h => exact h.lookup key

/-- A call of a method; if this may change its receiver, the receiver may be assigned. -/
theorem callMethod (hcall : L.Calls n call call') {receiver receiver' : Expr}
    (hreceiver : receiver.Like (L.trees A) receiver') {target target' : Eval Target}
    (htarget : ∀ w, L.Holds A w n .places target target'
      (L.SameTarget ((L.trees A).Names receiver))) {self self' : Value}
    (hself : L.Match w self self') (key : String)
    (hchanges : Method.changes key → (L.trees A).Assigns receiver)
    (hargs : L.MatchAll w args args') (optional : Bool) :
    L.Holds A w n .places (Eval.callMethod call receiver target self key args optional)
      (Eval.callMethod call' receiver' target' self' key args' optional) L.Match := by
  have hR := L.resembles w
  have hlooks := hR.looks hself
  have hmethod := memberMethod hself key
  have hnone : self'.noMembers key = self.noMembers key := by
    rw [Value.noMembers, Value.noMembers, hR.text hself]
  have hplace : Eval.inPlace? receiver' self' key = Eval.inPlace? receiver self key := by
    rw [Eval.inPlace?, Eval.inPlace?, hlooks.isArray, hreceiver.isPlace]
  have horder : Eval.reorders receiver' self' key = Eval.reorders receiver self key := by
    rw [Eval.reorders, Eval.reorders, hlooks.isArray, hreceiver.isPlace]
  have hwritten : Method.changes key → ∀ w, L.Holds A w n .places target target'
      (L.SameTarget (L.trees A).Places) := fun hkey w =>
    weaken (htarget w) fun _ _ _ _ ht => ⟨ht.1.places (hchanges hkey), ht.2⟩
  unfold Eval.callMethod
  rw [hlooks.isNullish, hnone, hplace, horder, hreceiver.describe]
  refine guard rfl fun _ => ?_
  generalize (self.members? >>= fun members => members.lookup key) = o at hmethod
  generalize (self'.members? >>= fun members => members.lookup key) = o' at hmethod
  cases hmethod with
  | some hf =>
    dsimp only
    rw [(hR.looks hf).isCallable, (hR.looks hf).isNullish]
    split
    · exact hcall.apply hf hargs
    · split
      · exact resultPlain rfl
      · exact L.fail _ rfl
  | none =>
    dsimp only
    split
    · rename_i hop
      exact L.changeInPlace _ hargs (hwritten (Eval.changes_of_inPlace? hop))
    · refine L.bind (invoke hcall hself hargs key) ?_
      rintro w₁ _ _ - (hv | _)
      · dsimp only
        split
        · rename_i horders
          refine seqTarget (hwritten (Eval.changes_of_reorders horders) w₁)
            fun w₂ place hw₂ hplace hkeys => ?_
          have hv := L.mono hw₂ hv
          exact seq (L.assign place hplace hkeys hv) fun w₃ _ hw₃ => L.result (L.mono hw₃ hv)
        · exact L.result hv
      · dsimp only
        split
        · exact resultPlain rfl
        · exact L.fail _ rfl

/-- A call of what an expression gives. -/
theorem callValue (hcall : L.Calls n call call') {callee callee' : Eval Value}
    {arguments arguments' : Eval (List Value)}
    (hcallee : L.Holds A w n .places callee callee' L.Match)
    (harguments : ∀ w, L.Holds A w n .places arguments arguments' L.MatchAll) (optional : Bool) :
    L.Holds A w n .places
      (do
        let f ← callee
        if optional && f.isNullish then return .undefined
        call f (← arguments))
      (do
        let f ← callee'
        if optional && f.isNullish then return .undefined
        call' f (← arguments')) L.Match := by
  refine L.bind hcallee fun w₁ f f' _ hf => ?_
  rw [((L.resembles w₁).looks hf).isNullish]
  split
  · exact resultPlain rfl
  · exact L.bind (harguments w₁) fun w₂ vs vs' hw₂ hvs => hcall.apply (L.mono hw₂ hf) hvs

/-! ## Forms of expressions -/

/-- Two expressions do the same in every world. -/
def Evals (L : MatchLogic) (A : L.Mode) (n : Nat) (call call' : Call) (e e' : Expr) : Prop :=
  ∀ w, L.Holds A w n .places (Eval.expr call e) (Eval.expr call' e') L.Match

/-- The values of two lists of expressions are alike in every world. -/
def EvalsAll (L : MatchLogic) (A : L.Mode) (n : Nat) (call call' : Call) (es es' : List Expr) :
    Prop :=
  ∀ w, L.Holds A w n .places (Eval.exprs call es) (Eval.exprs call' es') L.MatchAll

/-- Two expressions name the same place in every world. -/
def NamesPlace (L : MatchLogic) (A : L.Mode) (n : Nat) (call call' : Call) (e e' : Expr) : Prop :=
  ∀ w, L.Holds A w n .places (Eval.target call e) (Eval.target call' e')
    (L.SameTarget ((L.trees A).Names e))

namespace Evals
variable {object object' property property' operand operand' left left' right right' test test'
  consequent consequent' alternative alternative' place place' value value' : Expr}
  {es es' : List Expr}

theorem member (hobject : L.Evals A n call call' object object')
    (hlike : property.Like (L.trees A) property')
    (hproperty : L.Evals A n call call' property property') (optional : Bool) :
    L.Evals A n call call' (.member object property optional)
      (.member object' property' optional) := by
  intro w
  unfold Eval.expr
  refine L.bind (hobject w) fun w₁ v v' _ hv => ?_
  rw [((L.resembles w₁).looks hv).isNullish]
  split
  · exact resultPlain rfl
  · refine seqProperty hlike (hproperty w₁) fun w₂ key hw₂ _ _ => ?_
    exact ofAnswers ((L.resembles w₂).member (L.mono hw₂ hv) key) fun _ _ h => h

theorem callMember (hcall : L.Calls n call call') (hlike : object.Like (L.trees A) object')
    (hobject : L.Evals A n call call' object object')
    (htarget : L.NamesPlace A n call call' object object')
    (hlike' : property.Like (L.trees A) property')
    (hproperty : L.Evals A n call call' property property')
    (hchanges : property.mayChange → (L.trees A).Assigns object)
    (hargs : L.EvalsAll A n call call' es es') (memberOptional optional : Bool) :
    L.Evals A n call call' (.call (.member object property memberOptional) es optional)
      (.call (.member object' property' memberOptional) es' optional) := by
  intro w
  unfold Eval.expr
  refine L.bind (hobject w) fun w₁ self self' _ hself => ?_
  rw [((L.resembles w₁).looks hself).isNullish]
  split
  · exact resultPlain rfl
  · refine seqProperty hlike' (hproperty w₁) fun w₂ key hw₂ _ hkey => ?_
    refine L.bind (hargs w₂) fun w₃ vs vs' hw₃ hvs => ?_
    exact callMethod hcall hlike htarget (L.mono hw₃ (L.mono hw₂ hself)) key
      (fun h => hchanges (Expr.mayChange_of_key hkey h)) hvs optional

theorem callName (hcall : L.Calls n call call') {x : String} (hx : (L.trees A).reads x)
    (hargs : L.EvalsAll A n call call' es es') (optional : Bool) :
    L.Evals A n call call' (.call (.name x) es optional) (.call (.name x) es' optional) := by
  intro w
  unfold Eval.expr
  refine L.bind (L.ofCall (L.lookup x hx)) fun w₁ f f' _ hf => ?_
  rw [((L.resembles w₁).looks hf).isNullish]
  split
  · exact resultPlain rfl
  · refine L.bind (hargs w₁) fun w₂ vs vs' hw₂ hvs => ?_
    have hf := L.mono hw₂ hf
    refine seq (checkNamedCall x hf hvs) fun w₃ _ hw₃ => ?_
    exact hcall.apply (L.mono hw₃ hf) (MatchAll.mono hvs hw₃)

theorem constructName (hcall : L.Calls n call call') (x : String)
    (hargs : L.EvalsAll A n call call' es es') :
    L.Evals A n call call' (.construct (.name x) es) (.construct (.name x) es') := by
  intro w
  unfold Eval.expr
  refine L.bind (hargs w) fun w₁ vs vs' _ hvs => ?_
  refine seq (L.ofCall (L.isLocal x)) fun w₂ isLocal hw₂ => ?_
  split
  · exact L.fail _ rfl
  · exact MatchLogic.construct hcall (MatchAll.mono hvs hw₂) x

theorem unary (op : UnaryOp) (hlike : operand.Like (L.trees A) operand')
    (hoperand : L.Evals A n call call' operand operand') :
    L.Evals A n call call' (.unary op operand) (.unary op operand') := by
  intro w
  by_cases hname : op = .typeOf ∧ ∃ x, operand = .name x
  · obtain ⟨rfl, x, rfl⟩ := hname
    obtain ⟨rfl, hx⟩ := hlike
    exact typeOfName x hx
  · rw [Eval.expr_unary_of_ne fun hop x hx => hname ⟨hop, x, hx⟩,
      Eval.expr_unary_of_ne fun hop x hx => hname ⟨hop, x, (hlike.name_iff x).mp hx⟩]
    refine L.bind (hoperand w) fun w₁ v v' _ hv => ?_
    rw [(L.resembles w₁).unary op hv]
    exact resultPlain (Eval.isPlain_unary op v)

theorem update (op : UpdateOp) (first : Bool) (hplace : L.Evals A n call call' place place')
    (htarget : L.NamesPlace A n call call' place place')
    (hassigns : (L.trees A).Assigns place) :
    L.Evals A n call call' (.update op first place) (.update op first place') := by
  intro w
  unfold Eval.expr
  refine L.bind (hplace w) fun w₁ old old' _ hold => ?_
  rw [(L.resembles w₁).toNumber hold]
  refine seqTarget (htarget w₁) fun w₂ t _ ht hkeys => ?_
  exact seq (L.assign t (ht.places hassigns) hkeys (plain rfl)) fun _ _ _ => resultPlain rfl

theorem binary (op : BinaryOp) (hleft : L.Evals A n call call' left left')
    (hright : L.Evals A n call call' right right') :
    L.Evals A n call call' (.binary op left right) (.binary op left' right') := by
  intro w
  unfold Eval.expr
  refine L.bind (hleft w) fun w₁ v v' _ hv => ?_
  exact L.bind (hright w₁) fun w₂ u u' hw₂ hu => MatchLogic.binary op (L.mono hw₂ hv) hu

theorem logical (op : LogicalOp) (hleft : L.Evals A n call call' left left')
    (hright : L.Evals A n call call' right right') :
    L.Evals A n call call' (.logical op left right) (.logical op left' right') := by
  intro w
  unfold Eval.expr
  refine L.bind (hleft w) fun w₁ v v' _ hv => ?_
  rw [(L.resembles w₁).decides op hv]
  split
  · exact L.result hv
  · exact hright w₁

theorem conditional (htest : L.Evals A n call call' test test')
    (hconsequent : L.Evals A n call call' consequent consequent')
    (halternative : L.Evals A n call call' alternative alternative') :
    L.Evals A n call call' (.conditional test consequent alternative)
      (.conditional test' consequent' alternative') := by
  intro w
  unfold Eval.expr
  refine L.bind (htest w) fun w₁ v v' _ hv => ?_
  rw [((L.resembles w₁).looks hv).truthy]
  split
  · exact hconsequent w₁
  · exact halternative w₁

theorem assign (op : AssignOp) (hplace : L.Evals A n call call' place place')
    (htarget : L.NamesPlace A n call call' place place')
    (hassigns : (L.trees A).Assigns place) (hvalue : L.Evals A n call call' value value') :
    L.Evals A n call call' (.assign op place value) (.assign op place' value') := by
  intro w
  have hput : ∀ w₁ v v', L.Match w₁ v v' → L.Holds A w₁ n .places
      (do
        Eval.assign (← Eval.target call place) v
        return v)
      (do
        Eval.assign (← Eval.target call' place') v'
        return v') L.Match := by
    intro w₁ v v' hv
    refine seqTarget (htarget w₁) fun w₂ t hw₂ ht hkeys => ?_
    have hv := L.mono hw₂ hv
    exact seq (L.assign t (ht.places hassigns) hkeys hv) fun w₃ _ hw₃ => L.result (L.mono hw₃ hv)
  unfold Eval.expr
  dsimp only
  split
  · exact L.bind (hvalue w) fun w₁ v v' _ hv => hput w₁ v v' hv
  · refine L.bind (hplace w) fun w₁ old old' _ hold => ?_
    refine L.bind (hvalue w₁) fun w₂ v v' hw₂ hv => ?_
    exact L.bind (MatchLogic.binary _ (L.mono hw₂ hold) hv) fun w₃ u u' _ hu => hput w₃ u u' hu

end Evals

/-! ## Expressions -/

mutual

/-- **Expressions that are alike do the same.** -/
theorem expr (hcall : L.Calls n call call') (w : L.World) (e : Expr) {e' : Expr}
    (h : e.Like (L.trees A) e') :
    L.Holds A w n .places (Eval.expr call e) (Eval.expr call' e') L.Match := by
  cases e with
  | number | string | bool | null | undefined =>
    obtain rfl := h
    unfold Eval.expr
    exact resultPlain rfl
  | template parts =>
    obtain ⟨parts', rfl, hparts⟩ := h
    unfold Eval.expr
    exact seq (template hcall w "" parts hparts) fun _ _ _ => newString _
  | name x =>
    obtain ⟨rfl, hx⟩ := h
    unfold Eval.expr
    exact L.ofCall (L.lookup x hx)
  | array items =>
    obtain ⟨items', rfl, hitems⟩ := h
    unfold Eval.expr
    exact L.bind (exprs hcall w items hitems) fun _ vs vs' _ hvs => newList hvs
  | object entries =>
    obtain ⟨entries', rfl, hentries⟩ := h
    unfold Eval.expr
    exact L.bind (objectMembers hcall w ⟨.nil, List.forall_mem_nil _⟩ entries hentries)
      fun w₁ ms ms' _ hms => L.ofCall (L.newObject hms)
  | member object property optional =>
    obtain ⟨object', property', rfl, hobject, hproperty⟩ := h
    exact Evals.member (fun w => expr hcall w object hobject) hproperty
      (fun w => expr hcall w property hproperty) optional w
  | call callee args optional =>
    obtain ⟨callee', args', rfl, hcallee, hargs, hcalls⟩ := h
    cases callee with
    | member object property memberOptional =>
      obtain ⟨object', property', rfl, hobject, hproperty⟩ := hcallee
      exact Evals.callMember hcall hobject (fun w => expr hcall w object hobject)
        (fun w => target hcall w object hobject) hproperty
        (fun w => expr hcall w property hproperty) hcalls (fun w => exprs hcall w args hargs)
        memberOptional optional w
    | name x =>
      obtain ⟨rfl, hx⟩ := hcallee
      exact Evals.callName hcall hx (fun w => exprs hcall w args hargs) optional w
    | _ =>
      rw [Eval.expr_call_of_ne (hcallee.ne_name nofun)
        (hcallee.ne_member nofun)]
      exact callValue hcall (expr hcall w _ hcallee) (fun w => exprs hcall w args hargs) optional
  | construct callee args =>
    obtain ⟨callee', args', rfl, hcallee, hargs⟩ := h
    cases callee with
    | name x =>
      obtain ⟨rfl, -⟩ := hcallee
      exact Evals.constructName hcall x (fun w => exprs hcall w args hargs) w
    | _ =>
      rw [Eval.expr_construct_of_ne (hcallee.ne_name nofun)]
      exact L.bind (exprs hcall w args hargs) fun w₁ vs vs' _ _ => L.fail _ rfl
  | unary op operand =>
    obtain ⟨operand', rfl, hoperand⟩ := h
    exact Evals.unary op hoperand (fun w => expr hcall w operand hoperand) w
  | update op first place =>
    obtain ⟨place', rfl, hplace, hassigns⟩ := h
    exact Evals.update op first (fun w => expr hcall w place hplace)
      (fun w => target hcall w place hplace) hassigns w
  | binary op left right =>
    obtain ⟨left', right', rfl, hleft, hright⟩ := h
    exact Evals.binary op (fun w => expr hcall w left hleft)
      (fun w => expr hcall w right hright) w
  | logical op left right =>
    obtain ⟨left', right', rfl, hleft, hright⟩ := h
    exact Evals.logical op (fun w => expr hcall w left hleft)
      (fun w => expr hcall w right hright) w
  | conditional test consequent alternative =>
    obtain ⟨test', consequent', alternative', rfl, htest, hconsequent, halternative⟩ := h
    exact Evals.conditional (fun w => expr hcall w test htest)
      (fun w => expr hcall w consequent hconsequent)
      (fun w => expr hcall w alternative halternative) w
  | assign op place value =>
    obtain ⟨place', value', rfl, hplace, hvalue, hassigns⟩ := h
    exact Evals.assign op (fun w => expr hcall w place hplace)
      (fun w => target hcall w place hplace) hassigns (fun w => expr hcall w value hvalue) w
  | function definition =>
    obtain ⟨definition', rfl, hdefinition⟩ := h
    unfold Eval.expr
    exact L.ofCall (L.newClosure hdefinition)
  | await operand =>
    obtain ⟨operand', rfl, hoperand⟩ := h
    unfold Eval.expr
    exact expr hcall w operand hoperand
  | sequence items =>
    obtain ⟨items', rfl, hitems⟩ := h
    unfold Eval.expr
    exact last hcall w (plain rfl) items hitems
termination_by structural e

theorem exprs (hcall : L.Calls n call call') (w : L.World) (es : List Expr) {es' : List Expr}
    (h : Expr.AllLike (L.trees A) es es') :
    L.Holds A w n .places (Eval.exprs call es) (Eval.exprs call' es') L.MatchAll := by
  cases es with
  | nil =>
    obtain rfl := h
    exact L.result .nil
  | cons e rest =>
    obtain ⟨e', rest', rfl, he, hrest⟩ := h
    unfold Eval.exprs
    refine L.bind (expr hcall w e he) fun w₁ v v' _ hv => ?_
    exact L.bind (exprs hcall w₁ rest hrest) fun w₂ vs vs' hw₂ hvs =>
      L.result (.cons (L.mono hw₂ hv) hvs)
termination_by structural es

theorem last (hcall : L.Calls n call call') (w : L.World) {v v' : Value} (hv : L.Match w v v')
    (es : List Expr) {es' : List Expr} (h : Expr.AllLike (L.trees A) es es') :
    L.Holds A w n .places (Eval.last call v es) (Eval.last call' v' es') L.Match := by
  cases es with
  | nil =>
    obtain rfl := h
    exact L.result hv
  | cons e rest =>
    obtain ⟨e', rest', rfl, he, hrest⟩ := h
    unfold Eval.last
    exact L.bind (expr hcall w e he) fun w₁ u u' _ hu => last hcall w₁ hu rest hrest
termination_by structural es

theorem template (hcall : L.Calls n call call') (w : L.World) (out : String)
    (parts : List TemplatePart) {parts' : List TemplatePart}
    (h : TemplatePart.AllLike (L.trees A) parts parts') :
    L.Holds A w n .places (Eval.template call out parts) (Eval.template call' out parts')
      L.Same := by
  cases parts with
  | nil =>
    obtain rfl := h
    exact same out
  | cons part rest =>
    cases part with
    | text s =>
      obtain ⟨rest', rfl, hrest⟩ := h
      exact template hcall w _ rest hrest
    | interpolation e =>
      obtain ⟨e', rest', rfl, he, hrest⟩ := h
      unfold Eval.template
      refine L.bind (expr hcall w e he) fun w₁ v v' _ hv => ?_
      rw [(L.resembles w₁).text hv]
      exact template hcall w₁ _ rest hrest
termination_by structural parts

theorem objectMembers (hcall : L.Calls n call call') (w : L.World)
    {done done' : List (String × Value)} (hdone : L.MatchMembers w done done') :
      (entries : List (String × Expr)) → {entries' : List (String × Expr)} →
    Expr.EntriesLike (L.trees A) entries entries' →
    L.Holds A w n .places (Eval.members call done entries) (Eval.members call' done' entries')
      L.MatchMembers
  | [], _, h => by
    obtain rfl := h
    exact L.result hdone
  | (key, e) :: rest, _, h => by
    obtain ⟨e', rest', rfl, he, hrest⟩ := h
    unfold Eval.members
    refine seqKey (allowedKey key) fun w₁ key hw₁ hkey => ?_
    refine L.bind (expr hcall w₁ e he) fun w₂ v v' hw₂ hv => ?_
    have hdone := MatchMembers.mono hdone (L.trans hw₁ hw₂)
    have hdone := MatchMembers.insertMember hdone (L.keysMono hw₂ hkey) hv
    exact objectMembers hcall w₂ hdone rest hrest
termination_by structural entries => entries

/-- Expressions that are alike name the same place. -/
theorem target (hcall : L.Calls n call call') (w : L.World) (e : Expr) {e' : Expr}
    (h : e.Like (L.trees A) e') :
    L.Holds A w n .places (Eval.target call e) (Eval.target call' e')
      (L.SameTarget ((L.trees A).Names e)) := by
  cases e with
  | name x =>
    obtain ⟨rfl, hx⟩ := h
    exact L.result ⟨⟨hx, fun _ => rfl, fun _ => List.forall_mem_nil _⟩, List.forall_mem_nil _, rfl⟩
  | member object property optional =>
    obtain ⟨object', property', rfl, hobject, hproperty⟩ := h
    unfold Eval.target
    refine seqTarget (target hcall w object hobject) fun w₁ t _ ht hkeys => ?_
    refine seqProperty hproperty (expr hcall w₁ property hproperty) fun w₂ key hw₂ hkey hkey' =>
      L.result ⟨⟨ht.reads, fun h => ?_, fun hamong => ?_⟩, ?_, rfl⟩
    · exact (List.append_ne_nil_of_right_ne_nil _ (List.cons_ne_nil _ _) h).elim
    · refine List.forall_mem_append.mpr ⟨ht.keys hamong.1, ?_⟩
      exact List.forall_mem_singleton.mpr (hamong.2.of_key hkey')
    · refine List.forall_mem_append.mpr ⟨fun k hk => L.keysMono hw₂ (hkeys k hk), ?_⟩
      exact List.forall_mem_singleton.mpr hkey
  | _ =>
    rw [Eval.target_of_ne (e := e') (h.ne_name nofun) (h.ne_member nofun)]
    exact L.fail _ rfl
termination_by structural e

end

/-! ## Statements -/

/-- A loop goes on after its body alike on both sides. -/
theorem afterBody {flow flow' : Flow} (h : L.MatchFlow w flow flow') :
    L.MatchEnd w (Eval.afterBody flow) (Eval.afterBody flow') := by
  cases h with
  | returned h => exact .some (.returned h)
  | broken => exact .some .normal
  | normal | continued => exact .none

/-- What a loop does after its body: it ends, or it goes on. -/
theorem goesOn {flow flow' : Flow} (hflow : L.MatchFlow w flow flow')
    {rest rest' : Eval (Option Flow)} (hrest : L.Holds A w n r rest rest' L.MatchEnd) :
    L.Holds A w n r
      (match Eval.afterBody flow with
        | some flow => pure (some flow)
        | none => rest)
      (match Eval.afterBody flow' with
        | some flow => pure (some flow)
        | none => rest') L.MatchEnd := by
  have hend := afterBody hflow
  generalize Eval.afterBody flow = o at hend
  generalize Eval.afterBody flow' = o' at hend
  cases hend with
  | none => exact hrest
  | some h => exact L.result (.some h)

theorem framed {x x' : Eval Flow} (asBody : Bool)
    (h : ∀ w, L.Holds A w n .block x x' L.MatchFlow) :
    L.Holds A w n .block (Eval.framed asBody x) (Eval.framed asBody x') L.MatchFlow := by
  have htick : L.Holds A w n .block (do Eval.tick; x) (do Eval.tick; x') L.MatchFlow :=
    seq (L.ofCall L.tick) fun w₁ _ _ => h w₁
  unfold Eval.framed
  split
  · exact L.withFrame htick
  · exact htick

theorem iterate (name : String) {body body' : Eval Flow}
    (hbody : ∀ w, L.Holds A w n .block body body' L.MatchFlow) {items items' : List Value}
    (hitems : L.MatchAll w items items') :
    L.Holds A w n .block (Eval.iterate name body items) (Eval.iterate name body' items')
      L.MatchFlow := by
  induction items generalizing w items' with
  | nil =>
    cases hitems
    exact L.result .normal
  | cons item items ih =>
    obtain _ | ⟨hitem, hitems⟩ := hitems
    unfold Eval.iterate
    refine seq (L.ofCall L.tick) fun w₁ _ hw₁ => ?_
    have hbound : L.Holds A w₁ n .block (Eval.declare name _ false) (Eval.declare name _ false)
        L.Same := L.declare L.assignable (L.mono hw₁ hitem)
    have hturn := seq hbound fun w₂ _ _ => hbody w₂
    refine L.bind (L.withFrame hturn) fun w₂ flow flow' hw₂ hflow => ?_
    have hend := afterBody hflow
    generalize Eval.afterBody flow = o at hend
    generalize Eval.afterBody flow' = o' at hend
    cases hend with
    | some h => exact L.result h
    | none => exact ih (MatchAll.mono hitems (L.trans hw₁ hw₂))

/-- A declaration that may bind the name constant on one side and not on the other. -/
theorem declareAs {kind kind' : DeclKind} {name : String}
    (hvar : kind' = .varDecl ↔ kind = .varDecl)
    (hname : (L.trees A).declares name (kind == .constDecl) (kind' == .constDecl))
    (hv : L.Match w v v') :
    L.Holds A w n .block (Eval.declareAs kind name v) (Eval.declareAs kind' name v') L.Same := by
  have hsame : (kind' != .varDecl) = (kind != .varDecl) := by
    rw [bne, bne, Bool.beq_eq_decide_eq, Bool.beq_eq_decide_eq, decide_eq_decide.mpr hvar]
  unfold Eval.declareAs
  rw [hsame]
  exact seq (L.ofCall (L.isDeclared name)) fun w₁ declared hw₁ => guard rfl fun _ =>
    L.declare hname (L.mono hw₁ hv)

/-- An expression whose value a statement goes on with. -/
theorem operand (hcall : L.Calls n call call') (w : L.World) {e e' : Expr}
    (h : e.Like (L.trees A) e') :
    L.Holds A w n .block (Eval.expr call e) (Eval.expr call' e') L.Match :=
  L.ofPlaces (expr hcall w e h)

theorem declarators (hcall : L.Calls n call call') (w : L.World) {kind kind' : DeclKind}
    (hvar : kind' = .varDecl ↔ kind = .varDecl)
    {declarators declarators' : List (String × Option Expr)}
    (h : Stmt.DeclaratorsLike (L.trees A) (kind == .constDecl) (kind' == .constDecl) declarators
      declarators') :
    L.Holds A w n .block
      (declarators.forM fun (name, init) => do
        let v ← match init with
          | some e => Eval.expr call e
          | none => pure .undefined
        Eval.declareAs kind name v)
      (declarators'.forM fun (name, init) => do
        let v ← match init with
          | some e => Eval.expr call' e
          | none => pure .undefined
        Eval.declareAs kind' name v) L.Same := by
  induction declarators generalizing w declarators' with
  | nil =>
    obtain rfl := h
    exact same ()
  | cons d rest ih =>
    obtain ⟨name, init⟩ := d
    obtain ⟨init', rest', rfl, hinit, hname, hrest⟩ := h
    refine seq ?_ fun w₁ _ _ => ih w₁ hrest
    cases init with
    | some e =>
      obtain ⟨e', rfl, he⟩ := hinit
      exact L.bind (operand hcall w he) fun w₁ v v' _ hv => declareAs hvar hname hv
    | none =>
      obtain rfl := hinit
      exact L.bind (resultPlain rfl) fun w₁ v v' _ hv => declareAs hvar hname hv

theorem someCondition (hcall : L.Calls n call call') (w : L.World) {e e' : Expr}
    (h : e.Like (L.trees A) e') :
    L.Holds A w n .block (Eval.condition call (some e)) (Eval.condition call' (some e'))
      L.Same := by
  refine L.bind (operand hcall w h) fun w₁ v v' _ hv => ?_
  rw [((L.resembles w₁).looks hv).truthy]
  exact same _

theorem condition (hcall : L.Calls n call call') (w : L.World) {e e' : Option Expr}
    (h : Expr.Like? (L.trees A) e e') :
    L.Holds A w n .block (Eval.condition call e) (Eval.condition call' e') L.Same := by
  cases e with
  | some e =>
    obtain ⟨e', rfl, he⟩ := h
    exact someCondition hcall w he
  | none =>
    obtain rfl := h
    exact same true

theorem advance (hcall : L.Calls n call call') (w : L.World) {update update' : Option Expr}
    (h : Expr.Like? (L.trees A) update update') :
    L.Holds A w n .block (Eval.advance call update) (Eval.advance call' update') L.Same := by
  cases update with
  | some e =>
    obtain ⟨e', rfl, he⟩ := h
    exact map (operand hcall w he) fun _ _ _ _ _ => rfl
  | none =>
    obtain rfl := h
    exact same ()

/-! ## Forms of statements -/

/-- Two statements do the same in every world, as bodies and in lists. -/
def Runs (L : MatchLogic) (A : L.Mode) (n : Nat) (call call' : Call) (s s' : Stmt) : Prop :=
  ∀ w asBody, L.Holds A w n .block (Eval.stmt call asBody s) (Eval.stmt call' asBody s') L.MatchFlow

namespace Runs
variable {test test' source source' : Expr} {body body' : Stmt}

theorem branch (hcall : L.Calls n call call') (htest : test.Like (L.trees A) test')
    (hbody : L.Runs A n call call' body body') {alternative alternative' : Option Stmt}
    (halternative : Option.Rel (L.Runs A n call call') alternative alternative') :
    L.Runs A n call call' (.branch test body alternative) (.branch test' body' alternative') := by
  intro w asBody
  unfold Eval.stmt
  refine framed asBody fun w => L.bind (operand hcall w htest) fun w₁ v v' _ hv => ?_
  rw [((L.resembles w₁).looks hv).truthy]
  split
  · exact hbody w₁ true
  · cases halternative with
    | some hs => exact hs w₁ true
    | none => exact L.result .normal

theorem whileLoop (hcall : L.Calls n call call') (htest : test.Like (L.trees A) test')
    (hbody : L.Runs A n call call' body body') :
    L.Runs A n call call' (.whileLoop test body) (.whileLoop test' body') := by
  intro w asBody
  unfold Eval.stmt
  refine framed asBody fun w => L.loop (fun w => someCondition hcall w htest) fun w => ?_
  exact L.bind (hbody w true) fun w₁ flow flow' _ hflow => L.result (afterBody hflow)

theorem doLoop (hcall : L.Calls n call call') (hbody : L.Runs A n call call' body body')
    (htest : test.Like (L.trees A) test') :
    L.Runs A n call call' (.doLoop body test) (.doLoop body' test') := by
  intro w asBody
  unfold Eval.stmt
  refine framed asBody fun w => L.loop (fun w => same true) fun w => ?_
  refine L.bind (hbody w true) fun w₁ flow flow' _ hflow => goesOn hflow ?_
  refine seq (someCondition hcall w₁ htest) fun w₂ go _ => ?_
  split
  · exact L.result .none
  · exact L.result (.some .normal)

theorem forLoop (hcall : L.Calls n call call') {init init' : Option Stmt}
    (hinit : Option.Rel (L.Runs A n call call') init init') {test test' update update' : Option Expr}
    (htest : Expr.Like? (L.trees A) test test') (hupdate : Expr.Like? (L.trees A) update update')
    (hbody : L.Runs A n call call' body body') :
    L.Runs A n call call' (.forLoop init test update body)
      (.forLoop init' test' update' body') := by
  intro w asBody
  have hturn : ∀ w, L.Holds A w n .block
      (do
        if ← Eval.condition call test then
          match Eval.afterBody (← Eval.stmt call true body) with
          | some flow => return some flow
          | none =>
            Eval.advance call update
            return none
        else return some .normal)
      (do
        if ← Eval.condition call' test' then
          match Eval.afterBody (← Eval.stmt call' true body') with
          | some flow => return some flow
          | none =>
            Eval.advance call' update'
            return none
        else return some .normal) L.MatchEnd := by
    intro w
    refine seq (condition hcall w htest) fun w₁ go _ => ?_
    split
    · refine L.bind (hbody w₁ true) fun w₂ flow flow' _ hflow => goesOn hflow ?_
      exact seq (advance hcall w₂ hupdate) fun _ _ _ => L.result .none
    · exact L.result (.some .normal)
  have hloop := fun w => L.loop (w := w) (fun w => same true) hturn
  unfold Eval.stmt
  refine framed asBody fun w => L.withFrame ?_
  cases hinit with
  | some hs => exact seq (map (hs w false) fun _ _ _ _ _ => rfl) fun w₁ _ _ => hloop w₁
  | none => exact hloop w

theorem forOf (hcall : L.Calls n call call') (name : String)
    (hsource : source.Like (L.trees A) source') (hbody : L.Runs A n call call' body body') :
    L.Runs A n call call' (.forOf name source body) (.forOf name source' body') := by
  intro w asBody
  unfold Eval.stmt
  refine framed asBody fun w => L.bind (operand hcall w hsource) fun w₁ v v' _ hv => ?_
  refine L.bind (P := L.MatchAll) (ofAnswers ((L.resembles w₁).iterated hv) fun _ _ h => h) ?_
  exact fun w₂ items items' _ hitems => iterate name (fun w => hbody w true) hitems

theorem forIn (hcall : L.Calls n call call') (name : String)
    (hsource : source.Like (L.trees A) source') (hbody : L.Runs A n call call' body body') :
    L.Runs A n call call' (.forIn name source body) (.forIn name source' body') := by
  intro w asBody
  unfold Eval.stmt
  refine framed asBody fun w => L.bind (operand hcall w hsource) fun w₁ v v' _ hv => ?_
  rw [(L.resembles w₁).iteratedKeys hv]
  exact iterate name (fun w => hbody w true)
    ((L.resembles w₁).forall₂_plain (Eval.isPlain_iteratedKeys v))

theorem block {body body' : List Stmt} (hscopes : (L.trees A).scopes body body')
    (hbody : ∀ w, L.Holds A w n .block (Eval.stmts call body) (Eval.stmts call' body')
      L.MatchFlow) :
    L.Runs A n call call' (.block body) (.block body') := by
  intro w asBody
  have hblock : ∀ w, L.Holds A w n .block
      (Eval.withFrame (do Eval.hoist body; Eval.stmts call body))
      (Eval.withFrame (do Eval.hoist body'; Eval.stmts call' body')) L.MatchFlow := fun w =>
    L.withFrame (seq (L.hoist hscopes) fun w₁ _ _ => hbody w₁)
  unfold Eval.stmt
  dsimp only
  split
  · exact hblock w
  · exact seq (L.ofCall L.tick) fun w₁ _ _ => hblock w₁

end Runs

mutual

/-- **Statements that are alike do the same.** -/
theorem stmt (hcall : L.Calls n call call') (w : L.World) (asBody : Bool) (s : Stmt) {s' : Stmt}
    (h : s.Like (L.trees A) s') :
    L.Holds A w n .block (Eval.stmt call asBody s) (Eval.stmt call' asBody s') L.MatchFlow := by
  cases s with
  | expr e =>
    obtain ⟨e', rfl, he⟩ := h
    unfold Eval.stmt
    refine framed asBody fun w => L.bind (operand hcall w he) fun w₁ v v' _ hv => ?_
    exact seq (L.complete hv) fun _ _ _ => L.result .normal
  | decl kind ds =>
    obtain ⟨kind', ds', rfl, hvar, hds⟩ := h
    unfold Eval.stmt
    exact framed asBody fun w => seq (declarators hcall w hvar hds) fun _ _ _ => L.result .normal
  | function =>
    obtain ⟨f', rfl⟩ := h
    exact framed asBody fun w => L.result .normal
  | empty =>
    obtain rfl := h
    exact framed asBody fun w => L.result .normal
  | «break» =>
    obtain rfl := h
    exact framed asBody fun w => L.result .broken
  | «continue» =>
    obtain rfl := h
    exact framed asBody fun w => L.result .continued
  | «return» value =>
    obtain ⟨value', rfl, hvalue⟩ := h
    cases value with
    | some e =>
      obtain ⟨e', rfl, he⟩ := hvalue
      exact framed asBody fun w => L.bind (operand hcall w he) fun _ v v' _ hv =>
        L.result (.returned hv)
    | none =>
      obtain rfl := hvalue
      exact framed asBody fun w => L.result (.returned (plain rfl))
  | branch test consequent alternative =>
    obtain ⟨test', consequent', alternative', rfl, htest, hconsequent, halternative⟩ := h
    refine Runs.branch hcall htest (fun w asBody => stmt hcall w asBody consequent hconsequent) ?_ w
      asBody
    cases alternative with
    | some s =>
      obtain ⟨s', rfl, hs⟩ := halternative
      exact .some fun w asBody => stmt hcall w asBody s hs
    | none =>
      obtain rfl := halternative
      exact .none
  | whileLoop test body =>
    obtain ⟨test', body', rfl, htest, hbody⟩ := h
    exact Runs.whileLoop hcall htest (fun w asBody => stmt hcall w asBody body hbody) w asBody
  | doLoop body test =>
    obtain ⟨body', test', rfl, hbody, htest⟩ := h
    exact Runs.doLoop hcall (fun w asBody => stmt hcall w asBody body hbody) htest w asBody
  | forLoop init test update body =>
    obtain ⟨init', test', update', body', rfl, hinit, htest, hupdate, hbody⟩ := h
    refine Runs.forLoop hcall ?_ htest hupdate (fun w asBody => stmt hcall w asBody body hbody) w
      asBody
    cases init with
    | some s =>
      obtain ⟨s', rfl, hs⟩ := hinit
      exact .some fun w asBody => stmt hcall w asBody s hs
    | none =>
      obtain rfl := hinit
      exact .none
  | forOf name source body =>
    obtain ⟨source', body', rfl, hsource, hbody⟩ := h
    exact Runs.forOf hcall name hsource (fun w asBody => stmt hcall w asBody body hbody) w asBody
  | forIn name source body =>
    obtain ⟨source', body', rfl, hsource, hbody⟩ := h
    exact Runs.forIn hcall name hsource (fun w asBody => stmt hcall w asBody body hbody) w asBody
  | block body =>
    obtain ⟨body', rfl, hscopes, hbody⟩ := h
    exact Runs.block hscopes (fun w => stmts hcall w body hbody) w asBody
  | throw e =>
    obtain ⟨e', rfl, he⟩ := h
    unfold Eval.stmt
    refine framed asBody fun w => L.bind (operand hcall w he) fun w₁ v v' _ hv => ?_
    rw [(L.resembles w₁).thrownMessage hv]
    exact L.fail _ rfl
  | «export» inner =>
    obtain ⟨inner', rfl, hexports, hinner⟩ := h
    unfold Eval.stmt
    refine framed asBody fun w => ?_
    exact seq (L.noteExport hexports) fun w₁ _ _ => stmt hcall w₁ false inner hinner
  | exportDefault e =>
    obtain ⟨e', rfl, he⟩ := h
    unfold Eval.stmt
    refine framed asBody fun w => L.bind (operand hcall w he) fun w₁ v v' _ hv => ?_
    exact seq (L.setDefault hv) fun _ _ _ => L.result .normal
termination_by structural s

/-- Statements that are alike do the same one after the other. -/
theorem stmts (hcall : L.Calls n call call') (w : L.World) (body : List Stmt) {body' : List Stmt}
    (h : Stmt.AllLike (L.trees A) body body') :
    L.Holds A w n .block (Eval.stmts call body) (Eval.stmts call' body') L.MatchFlow := by
  cases body with
  | nil =>
    obtain rfl := h
    exact L.result .normal
  | cons s rest =>
    obtain ⟨s', rest', rfl, hs, hrest⟩ := h
    unfold Eval.stmts
    refine L.bind (stmt hcall w false s hs) fun w₁ flow flow' _ hflow => ?_
    cases hflow with
    | normal => exact stmts hcall w₁ rest hrest
    | returned hv => exact L.result (.returned hv)
    | broken => exact L.result .broken
    | continued => exact L.result .continued
termination_by structural body

end

/-! ## Functions and programs -/

theorem bodyStmts (hcall : L.Calls n call call') (w : L.World) {body body' : List Stmt}
    (h : Stmt.AllLike (L.trees A) body body') :
    L.Holds A w n .block (Eval.bodyStmts call body) (Eval.bodyStmts call' body') L.Match := by
  induction body generalizing w body' with
  | nil =>
    obtain rfl := h
    exact resultPlain rfl
  | cons s rest ih =>
    obtain ⟨s', rest', rfl, hs, hrest⟩ := h
    unfold Eval.bodyStmts
    refine L.bind (stmt hcall w false s hs) fun w₁ flow flow' _ hflow => ?_
    cases hflow with
    | returned hv => exact L.result hv
    | normal | broken | continued => exact ih w₁ hrest

theorem functionBody (hcall : L.Calls n call call') (w : L.World) (body : FunctionBody)
    {body' : FunctionBody} (h : body.Like (L.trees A) body') :
    L.Holds A w n .block (Eval.functionBody call body) (Eval.functionBody call' body')
      L.Match := by
  cases body with
  | expr e =>
    obtain ⟨e', rfl, he⟩ := h
    exact operand hcall w he
  | block body =>
    obtain ⟨body', rfl, hscopes, hbody⟩ := h
    exact seq (L.hoist hscopes) fun w₁ _ _ => bodyStmts hcall w₁ hbody

/-- A call of what is no function fails alike on both sides. -/
theorem notFunction (h : L.Match w v v') :
    L.Holds A w n r (throw (.notFunction v.describe) : Eval Value)
      (throw (.notFunction v'.describe)) L.Match := by
  rw [((L.resembles w).looks h).describe]
  exact L.fail _ rfl

theorem callWith {enter enter' inner inner' : Call} (henter : L.Calls n enter enter')
    (hinner : L.Calls n inner inner') :
    L.Calls n (Eval.callWith enter inner) (Eval.callWith enter' inner') := by
  intro A w v v' args args' hv hargs
  unfold Eval.callWith
  refine seq L.tick fun w₁ _ hw₁ => ?_
  have hv := L.mono hw₁ hv
  have hargs := MatchAll.mono hargs hw₁
  cases (L.resembles w₁).looks hv with
  | native f => exact run hinner hv hargs
  | closure => exact henter A w₁ _ _ _ _ hv hargs
  | plain hplain => cases v <;> first | exact notFunction hv | cases hplain
  | array | object => exact notFunction hv

theorem callGiven {enter enter' : Call} (henter : L.Calls n enter enter') :
    L.Calls n (Eval.callGiven enter) (Eval.callGiven enter') :=
  callWith henter fun _ _ _ _ _ _ hv _ => notFunction hv

theorem callVia {enter enter' : Call} (henter : L.Calls n enter enter') :
    L.Calls n (Eval.callVia enter) (Eval.callVia enter') :=
  callWith henter (callGiven henter)

/-- **Every call of a function of a script does the same on both sides**, by induction on the number
of calls that may still be nested. -/
theorem enter : ∀ depth, L.Calls depth (Eval.enter depth) (Eval.enter depth) := by
  intro depth
  induction depth with
  | zero =>
    intro A w v v' args args' _ _
    unfold Eval.enter
    exact seq L.limits fun _ _ _ => L.fail _ rfl
  | succ depth ih =>
    intro A w v v' args args' hv hargs
    unfold Eval.enter
    cases (L.resembles w).looks hv with
    | @closure id id' f f' captured captured' siblings siblings' =>
      obtain ⟨B, hbody, hrun⟩ := L.function hv
      exact hrun hargs (functionBody (callVia ih) w f.body hbody)
    | plain hplain => cases v <;> first | exact notFunction hv | cases hplain
    | native | array | object => exact notFunction hv

theorem programStmts (hcall : L.Calls n call call') (w : L.World) {body body' : List Stmt}
    (h : Stmt.AllLike (L.trees A) body body') :
    L.Holds A w n .program (Eval.programStmts call body) (Eval.programStmts call' body')
      L.Match := by
  induction body generalizing w body' with
  | nil =>
    obtain rfl := h
    exact L.takeCompletion
  | cons s rest ih =>
    obtain ⟨s', rest', rfl, hs, hrest⟩ := h
    unfold Eval.programStmts
    refine L.bind (L.ofBlock (stmt hcall w false s hs)) fun w₁ flow flow' _ hflow => ?_
    cases hflow with
    | normal => exact ih w₁ hrest
    | returned hv => exact L.result hv
    | broken | continued => exact L.fail _ rfl

/-- **Programs that are alike do the same.** -/
theorem programWith (hcall : L.Calls n call call') (w : L.World) {body body' : List Stmt}
    (hscopes : (L.trees A).scopes body body') (h : Stmt.AllLike (L.trees A) body body') :
    L.Holds A w n .program (Eval.programWith call body) (Eval.programWith call' body') L.Match :=
  seq (L.ofBlock (L.hoist hscopes)) fun w₁ _ _ => programStmts hcall w₁ h

end MatchLogic
end Stencil.Script
