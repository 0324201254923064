import Stencil.Proofs.Script.Holding

/-! # Where denied keys come from

The **keys of a value** are the names under which the objects in it have members, at any depth
(`Value.keys`): objects in arrays, in members of objects and in what a function holds count, the
names that a function has captured do not.

Scripts may not reach members under denied names, and the steps that make and write members refuse
such keys: object literals, assignments to members, and `Object.fromEntries`.  `Object.assign` and
the other steps that copy members take over the keys that are there.

`JSON.parse` is the exception: the value of a JSON text has whatever keys the text has, denied ones
too.  It is the only one (`Eval.denied_keys_parsed`): a denied key of an object that a script holds
was there at the start, or a JSON text had it that has been parsed since.  That is a holding
(`HasOrigin.holding`), so evaluations keep it.
-/
namespace Stencil.Script

/-! ## The keys of objects -/

mutual

/-- The keys of the objects in a value, at any depth. -/
def Value.keys : Value → List String
  | .array _ ⟨items⟩ => Value.keysOfItems items
  | .object _ members => members.map (·.1) ++ Value.keysOfMembers members
  | .closure _ _ captured siblings => Value.keysOfMembers captured ++ Value.keysOfSiblings siblings
  | .undefined | .null | .bool _ | .number _ | .string _ | .date _ | .native _ => []

/-- The keys of the objects in items. -/
def Value.keysOfItems : List Value → List String
  | [] => []
  | v :: rest => v.keys ++ Value.keysOfItems rest

/-- The keys of the objects in the values of members. -/
def Value.keysOfMembers : List (String × Value) → List String
  | [] => []
  | (_, v) :: rest => v.keys ++ Value.keysOfMembers rest

/-- The keys of the objects in what the names of a module stand for. -/
def Value.keysOfSiblings : Siblings → List String
  | [] => []
  | (_, b) :: rest => b.keys ++ Value.keysOfSiblings rest

/-- The keys of the objects in what a name of a module stands for. -/
def ModuleBinding.keys : ModuleBinding → List String
  | .constant v => v.keys
  | .function _ captured => Value.keysOfMembers captured

end

variable {P P' : String → Prop}

/-- Every key of the objects in the value has the property. -/
def Value.KeysIn (P : String → Prop) (v : Value) : Prop :=
  ∀ key ∈ v.keys, P key

instance [DecidablePred P] (v : Value) : Decidable (v.KeysIn P) :=
  inferInstanceAs (Decidable (∀ key ∈ v.keys, P key))

/-- Every key of the objects in what a name of a module stands for has the property. -/
def ModuleBinding.KeysIn (P : String → Prop) (b : ModuleBinding) : Prop :=
  ∀ key ∈ b.keys, P key

namespace Value

theorem forall_keysOfItems {items : List Value} :
    (∀ key ∈ keysOfItems items, P key) ↔ ∀ v ∈ items, v.KeysIn P := by
  induction items with
  | nil => exact iff_of_true (List.forall_mem_nil _) (List.forall_mem_nil _)
  | cons v rest ih =>
    rw [keysOfItems, List.forall_mem_append, List.forall_mem_cons, ih]
    exact Iff.rfl

theorem forall_keysOfMembers {members : List (String × Value)} :
    (∀ key ∈ keysOfMembers members, P key) ↔ ∀ p ∈ members, p.2.KeysIn P := by
  induction members with
  | nil => exact iff_of_true (List.forall_mem_nil _) (List.forall_mem_nil _)
  | cons p rest ih =>
    rw [keysOfMembers, List.forall_mem_append, List.forall_mem_cons, ih]
    exact Iff.rfl

theorem forall_keysOfSiblings {siblings : Siblings} :
    (∀ key ∈ keysOfSiblings siblings, P key) ↔ ∀ p ∈ siblings, p.2.KeysIn P := by
  induction siblings with
  | nil => exact iff_of_true (List.forall_mem_nil _) (List.forall_mem_nil _)
  | cons p rest ih =>
    rw [keysOfSiblings, List.forall_mem_append, List.forall_mem_cons, ih]
    exact Iff.rfl

theorem keysIn_array {id : Identity} {items : Array Value} :
    (Value.array id items).KeysIn P ↔ ∀ v ∈ items, v.KeysIn P := by
  obtain ⟨items⟩ := items
  exact forall_keysOfItems.trans (by simp only [List.mem_toArray])

theorem keysIn_object {id : Identity} {members : List (String × Value)} :
    (Value.object id members).KeysIn P ↔ ∀ p ∈ members, P p.1 ∧ p.2.KeysIn P := by
  rw [KeysIn, keys, List.forall_mem_append, List.forall_mem_map, forall_keysOfMembers]
  exact ⟨fun h p hp => ⟨h.1 p hp, h.2 p hp⟩, fun h => ⟨fun p hp => (h p hp).1, fun p hp => (h p hp).2⟩⟩

theorem keysIn_closure {id : Identity} {f : FunctionDef} {captured : List (String × Value)}
    {siblings : Siblings} : (Value.closure id f captured siblings).KeysIn P ↔
      (∀ p ∈ captured, p.2.KeysIn P) ∧ ∀ p ∈ siblings, p.2.KeysIn P := by
  rw [KeysIn, keys, List.forall_mem_append, forall_keysOfMembers, forall_keysOfSiblings]

theorem keysIn_plain {v : Value} (h : v.isPlain) : v.KeysIn P := by
  cases v <;> first | exact List.forall_mem_nil _ | cases h

theorem keysIn_native {f : Native} : (Value.native f).KeysIn P :=
  List.forall_mem_nil _

theorem KeysIn.mono {v : Value} (h : v.KeysIn P) (hP : ∀ key, P key → P' key) : v.KeysIn P' :=
  fun key hkey => hP key (h key hkey)

end Value

theorem ModuleBinding.keysIn_function {f : FunctionDef} {captured : List (String × Value)} :
    (ModuleBinding.function f captured).KeysIn P ↔ ∀ p ∈ captured, p.2.KeysIn P :=
  Value.forall_keysOfMembers

/-! ## Global objects -/

namespace Globals

/-- The keys of built-in objects are names of built-in functions and constants. -/
theorem keysIn_modules : ∀ p ∈ modules, p.2.KeysIn fun key => Security.isDenied key = false := by
  decide

theorem keysIn_table : ∀ p ∈ table, p.2.KeysIn fun key => Security.isDenied key = false := by
  decide

end Globals

/-! ## Machines -/

/-- Every key of the objects that an activation holds has the property. -/
structure Activation.KeysIn (P : String → Prop) (a : Activation) : Prop where
  frames : ∀ frame ∈ a.frames, ∀ p ∈ frame, p.2.value.KeysIn P
  captured : ∀ p ∈ a.captured, p.2.KeysIn P
  siblings : ∀ p ∈ a.siblings, p.2.KeysIn P

/-- Every key of the objects that a machine holds has the property. -/
structure Machine.KeysIn (P : String → Prop) (m : Machine) : Prop where
  current : m.current.KeysIn P
  callers : ∀ a ∈ m.callers, a.KeysIn P
  completion : m.completion.KeysIn P
  defaultExport : ∀ v ∈ m.defaultExport, v.KeysIn P

/-- Every key of the objects that an evaluation can read outside its machine has the property, and
functions of the host answer with no keys but such and those of their arguments. -/
structure Context.KeysIn (P : String → Prop) (c : Context) : Prop where
  helpers : ∀ p ∈ c.scope.helpers, p.2.KeysIn P
  vars : ∀ p ∈ c.scope.vars, p.2.KeysIn P
  capabilities : ∀ p ∈ c.scope.capabilities, p.2.KeysIn P
  natives : ∀ name args v, c.host.natives name args = .ok v →
    ∀ key ∈ v.keys, P key ∨ ∃ a ∈ args, key ∈ a.keys

theorem Machine.KeysIn.same {m m' : Machine} (h : m.KeysIn P) (hsame : m.Same m') :
    m'.KeysIn P where
  current := hsame.current ▸ h.current
  callers := hsame.callers ▸ h.callers
  completion := hsame.completion ▸ h.completion
  defaultExport := hsame.defaultExport ▸ h.defaultExport

/-! ## Origins -/

/-- Some JSON text stands for the value. -/
def Value.IsParsed (v : Value) : Prop :=
  ∃ s json id, Json.parse s = .ok json ∧ v = (Value.ofJson id json).1

/-- A key is not denied, or it is among those given, or it is a key of a value received from a JSON
text. -/
def HasOrigin (given : String → Prop) (received : List Value) (key : String) : Prop :=
  Security.isDenied key = true → given key ∨ ∃ v ∈ received, v.IsParsed ∧ key ∈ v.keys

/-- The denied names among the keys that an evaluation starts from are given. -/
def Given (given : String → Prop) (key : String) : Prop :=
  Security.isDenied key = true → given key

section
variable {given : String → Prop} {w w' : List Value} {key : String}

theorem HasOrigin.mono (h : HasOrigin given w key) (hle : w ⊆ w') : HasOrigin given w' key :=
  fun hdenied => (h hdenied).imp id fun ⟨v, hv, hparsed⟩ => ⟨v, hle hv, hparsed⟩

theorem Given.hasOrigin (h : Given given key) : HasOrigin given w key :=
  fun hdenied => .inl (h hdenied)

theorem hasOrigin_of_allowed (h : Security.isDenied key = false) : HasOrigin given w key :=
  fun hdenied => absurd hdenied (Bool.eq_false_iff.mp h)

/-- All keys of a value received from a JSON text have an origin. -/
theorem hasOrigin_received {v : Value} (hv : v ∈ w) (hparsed : v.IsParsed) :
    v.KeysIn (HasOrigin given w) :=
  fun _ hkey _ => .inr ⟨v, hv, hparsed, hkey⟩

end

/-! ## The logic -/

/-- The sides of the logic: what has been received is known, and identities stay as they are. -/
def HasOrigin.sides (given : String → Prop) : Sides where
  World := List Value
  Le w w' := w ⊆ w'
  refl _ _ h := h
  trans h h' _ hv := h' (h hv)
  rename := id
  Fits w v := v.KeysIn (HasOrigin given w)
  Keys w := HasOrigin given w

/-- All denied keys that a machine holds have an origin. -/
def HasOrigin.tracking (given : String → Prop) : Tracking where
  toSides := HasOrigin.sides given
  Tracks w m := m.received = w ∧ m.KeysIn (HasOrigin given w)
  same hsame _ hreceived hm := ⟨hreceived.trans hm.1, hm.2.same hsame⟩

/-- The step keeps origins: all denied keys of the machine that it leaves and of its results have
one if those of the machine before have. -/
abbrev Traces (c : Context) (given : String → Prop) {α : Type} (w : List Value) (x : Eval α)
    (Q : List Value → α → Prop) : Prop :=
  Learns (HasOrigin.tracking given) c w x Q

namespace Traces

/-- The denied keys of the value have an origin. -/
abbrev Fits (given : String → Prop) (w : List Value) (v : Value) : Prop :=
  v.KeysIn (HasOrigin given w)

end Traces

/-- **Values whose denied keys have an origin** may be held. -/
def HasOrigin.holding (given : String → Prop) : Holding where
  Fits := Traces.Fits given
  Binds w b := b.KeysIn (HasOrigin given w)
  Arrays _ _ := True
  Keys := HasOrigin given
  definitions _ := True
  writable _ := True
  mono hle h := h.mono fun _ hkey => hkey.mono hle
  bindsMono hle h key hkey := (h key hkey).mono hle
  keysMono hle h := h.mono hle
  plain := Value.keysIn_plain
  native := Value.keysIn_native
  array := Value.keysIn_array.trans (iff_of_eq (true_and _)).symm
  object := Value.keysIn_object
  closure := Value.keysIn_closure.trans (iff_of_eq (true_and _)).symm
  constant := Iff.rfl
  function := ModuleBinding.keysIn_function.trans (iff_of_eq (true_and _)).symm

section
variable {c : Context} {given : String → Prop} {w : List Value} {α : Type} {x : Eval α}
  {Q : List Value → α → Prop}

/-- A value that the host answers with, or that stands for a JSON text, is received with its keys. -/
theorem HasOrigin.suits (hc : c.KeysIn (Given given)) : (HasOrigin.holding given).Suits c where
  scope {w name v} hv := by
    simp only [Scope.lookup?, Option.orElse_eq_orElse, Option.orElse_eq_or, Option.or_eq_some_iff]
      at hv
    rcases hv with hv | ⟨-, hv | ⟨-, hv | ⟨-, hv⟩⟩⟩
    · exact (hc.helpers _ (mem_of_lookup hv)).mono fun _ => Given.hasOrigin
    · exact (hc.vars _ (mem_of_lookup hv)).mono fun _ => Given.hasOrigin
    · exact (hc.capabilities _ (mem_of_lookup hv)).mono fun _ => Given.hasOrigin
    · exact (Globals.keysIn_table _ (mem_of_lookup hv)).mono fun _ => hasOrigin_of_allowed
  modules p hp := (Globals.keysIn_modules p hp).mono fun _ => hasOrigin_of_allowed
  parsed {_ s json _} hjson := hasOrigin_received List.mem_cons_self ⟨s, json, _, hjson, rfl⟩
  answers {w name args v} hanswer hargs key hkey := by
    rcases hc.natives name args v hanswer key hkey with hgiven | ⟨a, ha, hkey⟩
    · exact hgiven.hasOrigin
    · exact (hargs a ha key hkey).mono (List.subset_cons_self v w)
  made _ := trivial
  pair _ _ := trivial
  listed _ := trivial
  grown _ _ := trivial
  allowed := hasOrigin_of_allowed
  inner _ _ _ _ := trivial
  writes := FunctionDef.writesAmong_true

/-- A machine holds keys with an origin only if all its values may be held. -/
theorem Machine.conforms_iff {m : Machine} :
    m.Conforms (HasOrigin.holding given) w ↔ m.KeysIn (HasOrigin given w) := by
  have hactivation : ∀ a : Activation,
      a.Conforms (HasOrigin.holding given) w ↔ a.KeysIn (HasOrigin given w) :=
    fun a => ⟨fun h => ⟨h.frames, h.captured, h.siblings⟩,
      fun h => ⟨h.frames, h.captured, h.siblings⟩⟩
  constructor
  · intro h
    exact ⟨(hactivation _).mp h.current, fun a ha => (hactivation a).mp (h.callers a ha),
      h.completion, h.defaultExport⟩
  · intro h
    exact ⟨(hactivation _).mpr h.current, fun a ha => (hactivation a).mpr (h.callers a ha),
      h.completion, h.defaultExport⟩

theorem traces_iff_retains :
    Traces c given w x Q ↔ Retains (HasOrigin.holding given) c w x Q := by
  have htracks : ∀ w m, (HasOrigin.tracking given).Tracks w m ↔
      (HasOrigin.holding given).tracking.Tracks w m := fun w m =>
    and_congr_right' Machine.conforms_iff.symm
  constructor
  · intro h m hm
    obtain ⟨w', hle, hm', hQ⟩ := h m ((htracks w m).mpr hm)
    exact ⟨w', hle, (htracks w' _).mp hm', hQ⟩
  · intro h m hm
    obtain ⟨w', hle, hm', hQ⟩ := h m ((htracks w m).mp hm)
    exact ⟨w', hle, (htracks w' _).mpr hm', hQ⟩

end

/-! ## What is refused, and what is not -/

/-- The members of a JSON object become members under the same keys. -/
theorem Value.ofJsonMembers_keys (members : List (String × Json)) (next : Identity)
    (done : List (String × Value)) :
    (Value.ofJsonMembers next done members).1.map (·.1) =
      (done.map (·.1)).reverse ++ members.map (·.1) := by
  induction members generalizing next done with
  | nil => simp [Value.ofJsonMembers]
  | cons p rest ih =>
    rw [Value.ofJsonMembers]
    simp [ih]

namespace Eval
variable {c : Context} {m m' : Machine} {call : Call} {key : String}

theorem outcome_allowedKey (h : Security.isDenied key = true) :
    (allowedKey key).outcome c m = (.error (.deniedName key), m) := by
  rw [allowedKey, if_pos h]
  rfl

theorem allowedKey_ok {k : String} (h : ((allowedKey key).outcome c m).1 = .ok k) :
    Security.isDenied k = false := by
  by_cases hkey : Security.isDenied key = true
  · rw [outcome_allowedKey hkey] at h
    cases h
  · rw [allowedKey, if_neg hkey] at h
    cases h
    exact Bool.eq_false_iff.mpr hkey

theorem propertyKey_ok {property : Expr} {value : Eval Value} {k : String}
    (h : ((propertyKey property value).outcome c m).1 = .ok k) : Security.isDenied k = false := by
  unfold propertyKey at h
  split at h
  · exact allowedKey_ok h
  · rw [outcome_bind] at h
    split at h
    · exact allowedKey_ok h
    · cases h

/-- The places that expressions name have no denied keys. -/
theorem target_keys_allowed {t : Target} : ∀ {m : Machine} (place : Expr),
    ((target call place).outcome c m).1 = .ok t → ∀ k ∈ t.keys, Security.isDenied k = false
  | m, .name x, h => by
    rw [target] at h
    cases h
    exact List.forall_mem_nil _
  | m, .member object property _, h => by
    rw [target, outcome_bind] at h
    split at h
    case h_2 => cases h
    rename_i inner m₁ hinner
    rw [outcome_bind] at h
    split at h
    case h_2 => cases h
    rename_i k m₂ hk
    cases h
    have houter := target_keys_allowed object (congrArg Prod.fst hinner)
    exact List.forall_mem_append.mpr
      ⟨houter, List.forall_mem_singleton.mpr (propertyKey_ok (congrArg Prod.fst hk))⟩
  | m, .number _, h | m, .string _, h | m, .bool _, h | m, .null, h | m, .undefined, h
  | m, .template _, h | m, .array _, h | m, .object _, h | m, .call .., h | m, .construct .., h
  | m, .unary .., h | m, .update .., h | m, .binary .., h | m, .logical .., h
  | m, .conditional .., h | m, .assign .., h | m, .function _, h | m, .await _, h
  | m, .sequence _, h => by
    simp [target] at h

/-- The members in front of a denied key are evaluated, the key is refused, and the members behind
it are not looked at. -/
theorem outcome_members_denied {done made : List (String × Value)}
    {before rest : List (String × Expr)} {e : Expr}
    (h : (members call done before).outcome c m = (.ok made, m'))
    (hkey : Security.isDenied key = true) :
    (members call done (before ++ (key, e) :: rest)).outcome c m =
      (.error (.deniedName key), m') := by
  induction before generalizing done m with
  | nil =>
    rw [members] at h
    cases h
    rw [List.nil_append, members, outcome_bind, outcome_allowedKey hkey]
  | cons p before ih =>
    rw [members, outcome_bind] at h
    rw [List.cons_append, members, outcome_bind]
    split at h
    case h_2 => cases h
    rename_i k m₁ hk
    rw [outcome_bind] at h
    split at h
    case h_2 => cases h
    rename_i v m₂ hv
    rw [outcome_bind, hv]
    exact ih h

/-- A member is not written under a denied key. -/
theorem outcome_target_denied {object property : Expr} {optional : Bool} {t : Target} {v : Value}
    {m₁ : Machine} (hobject : (target call object).outcome c m = (.ok t, m₁))
    (hproperty : (expr call property).outcome c m₁ = (.ok v, m'))
    (hkey : Security.isDenied v.keyText = true) :
    (target call (.member object property optional)).outcome c m =
      (.error (.deniedName v.keyText), m') := by
  have hrefused : (propertyKey property (expr call property)).outcome c m₁ =
      (.error (.deniedName v.keyText), m') := by
    unfold propertyKey
    split
    · rw [expr] at hproperty
      cases hproperty
      exact outcome_allowedKey hkey
    · rw [outcome_bind, hproperty]
      exact outcome_allowedKey hkey
  rw [target, outcome_bind, hobject]
  dsimp only
  rw [outcome_bind, hrefused]

/-- No object is made of pairs of which one has a denied key. -/
theorem outcome_fromEntries_denied {before rest more : List Value} {id pair : Identity}
    {kv : Array Value} {made : List (String × Value)}
    (hbefore : before.foldlM Native.addPair [] = .ok made)
    (hkey : Security.isDenied ((kv[0]?.map Value.text).getD "") = true) :
    (Native.runBuiltin call .fromEntries
        (.array id (before ++ .array pair kv :: rest).toArray :: more)).outcome c m =
      (.error (.deniedName ((kv[0]?.map Value.text).getD "")), m) := by
  have hpair : Native.addPair made (.array pair kv) =
      .error (.deniedName ((kv[0]?.map Value.text).getD "")) := if_pos hkey
  have hpairs : (before ++ .array pair kv :: rest).foldlM Native.addPair [] =
      .error (.deniedName ((kv[0]?.map Value.text).getD "")) := by
    rw [List.foldlM_append, hbefore]
    show List.foldlM Native.addPair made (.array pair kv :: rest) = _
    rw [List.foldlM_cons, hpair]
    rfl
  have hitems : ((Value.argument (.array id (before ++ .array pair kv :: rest).toArray :: more)
      0).items?.getD #[]).toList = before ++ .array pair kv :: rest := rfl
  unfold Native.runBuiltin
  dsimp only
  rw [outcome_bind, outcome_ofExcept, hitems, hpairs]

/-! ## The main result -/

/-- **Denied keys come from JSON texts only.**

Let `given` have the denied keys of the objects that an evaluation can read at the start, and let
functions of the host answer with no denied keys but such and those of their arguments.  Whatever is
run, be it a call, an expression, a statement, a program or a module, by whoever calls it, leaves a
machine in which every denied key of an object is given or is a key of a value received from a JSON
text; so it is in its result.  An object literal, a write of a member and `Object.fromEntries` fail
at the first denied key.  A JSON text, however, stands for an object with the keys of the text,
whatever they are. -/
theorem denied_keys_parsed (c : Context) (given : String → Prop) (hc : c.KeysIn (Given given)) :
    let Fits := Traces.Fits given
    let Calls := fun call : Call => ∀ f args w, Fits w f → (∀ v ∈ args, Fits w v) →
      Traces c given w (call f args) Fits
    (∀ depth, Calls (callVia (enter depth)) ∧ Calls (callGiven (enter depth))) ∧
    (∀ call, Calls call →
      (∀ w e, Traces c given w (expr call e) Fits) ∧
      (∀ w asBody s, Traces c given w (stmt call asBody s) (HasOrigin.sides given).FitsFlow) ∧
      ∀ w body, Traces c given w (programWith call body) Fits) ∧
    (∀ next body,
      let ran := (program body).outcome c { next }
      (∀ v ∈ ran.2.values, Fits ran.2.received v) ∧ ∀ v, ran.1 = .ok v → Fits ran.2.received v) ∧
    (∀ next body,
      let ran := (module body).outcome c { next }
      (∀ v ∈ ran.2.values, Fits ran.2.received v) ∧
        ∀ out, ran.1 = .ok out → ∀ p ∈ out.bindings ++ out.exports, Fits ran.2.received p.2) ∧
    (∀ (call : Call) m m',
      (∀ before key e rest made, (members call [] before).outcome c m = (.ok made, m') →
        Security.isDenied key = true →
        (expr call (.object (before ++ (key, e) :: rest))).outcome c m =
          (.error (.deniedName key), m')) ∧
      (∀ object property optional t m₁ v, (target call object).outcome c m = (.ok t, m₁) →
        (expr call property).outcome c m₁ = (.ok v, m') → Security.isDenied v.keyText = true →
        (target call (.member object property optional)).outcome c m =
          (.error (.deniedName v.keyText), m')) ∧
      ∀ before pair (kv : Array Value) rest id more made,
        before.foldlM Native.addPair [] = .ok made →
        let key := (kv[0]?.map Value.text).getD ""
        Security.isDenied key = true →
        (Native.runBuiltin call .fromEntries
            (.array id (before ++ .array pair kv :: rest).toArray :: more)).outcome c m =
          (.error (.deniedName key), m)) ∧
    ∀ s members m, Json.parse s = .ok (.object members) →
      ∃ id values, ((Native.parseJson s).outcome c m).1 = .ok (.object id values) ∧
        values.map (·.1) = members.map (·.1) := by
  intro Fits Calls
  have hsuits := HasOrigin.suits hc
  let L := PairLogic.holding (HasOrigin.holding given) c hsuits
  have hcalls : ∀ {call : Call} {n : Nat}, Calls call ↔ L.Calls n call call :=
    ⟨fun h w f args hf hargs => Learns.paired (traces_iff_retains.mp (h f args w hf hargs)),
      fun h f args w hf hargs => traces_iff_retains.mpr (Learns.ofPaired (h w f args hf hargs))⟩
  have hnew : ∀ next, (HasOrigin.holding given).tracking.Tracks [] { next } := fun next =>
    ⟨rfl, Machine.conforms_new next⟩
  refine ⟨fun depth => ?_, fun call hcall => ?_, ?_, ?_, fun call m m' => ⟨?_, ?_, ?_⟩, ?_⟩
  · have henter := PairLogic.enter (L := L) depth
    exact ⟨hcalls.mpr (PairLogic.callVia henter), hcalls.mpr (PairLogic.callGiven henter)⟩
  · have hcall' : L.Calls 0 call call := hcalls.mp hcall
    refine ⟨fun w e => ?_, fun w asBody s => ?_, fun w body => ?_⟩
    · exact traces_iff_retains.mpr
        (Learns.ofPaired (PairLogic.expr hcall' w e fun _ _ => trivial))
    · refine traces_iff_retains.mpr
        (Learns.weaken (PairLogic.stmt hcall' w asBody s fun _ _ => trivial) ?_)
      exact fun _ _ _ ⟨_, hflow, _⟩ => hflow
    · exact traces_iff_retains.mpr
        (Learns.ofPaired (PairLogic.programWith hcall' w fun _ _ => trivial))
  · intro next body ran
    obtain ⟨w, -, ⟨hreceived, hm⟩, hv⟩ := Retains.program hsuits body
      (fun _ _ => trivial) (fun d _ => d.writesAmong_of_forall fun _ => trivial) _ (hnew next)
    obtain rfl : ran.2.received = w := hreceived
    exact ⟨hm.values, hv⟩
  · intro next body ran
    obtain ⟨w, -, ⟨hreceived, hm⟩, hout⟩ := Retains.module hsuits body
      (fun _ _ => trivial) (fun d _ => d.writesAmong_of_forall fun _ => trivial) _ (hnew next)
    obtain rfl : ran.2.received = w := hreceived
    refine ⟨hm.values, fun out h => ?_⟩
    obtain ⟨hbindings, hexports⟩ := hout out h
    exact List.forall_mem_append.mpr ⟨hbindings, hexports⟩
  · intro before key e rest made hbefore hkey
    rw [expr, outcome_bind, outcome_members_denied hbefore hkey]
  · intro object property optional t m₁ v
    exact outcome_target_denied
  · intro before pair kv rest id more made
    exact outcome_fromEntries_denied
  · intro s members m hparse
    refine ⟨m.next, (Value.ofJsonMembers (m.next + 1) [] members).1, ?_, ?_⟩
    · rw [outcome_parseJson, hparse]
      rfl
    · rw [Value.ofJsonMembers_keys]
      rfl

/-- A program that takes a denied key over from a JSON text. -/
def overlaidProgram : List Stmt :=
  let parsed := Expr.call (.member (.name "JSON") (.string "parse") false)
    [.string "\x7b\"constructor\":null\x7d"] false
  [.expr (.call (.member (.name "Object") (.string "assign") false) [.object [], parsed] false)]

/-- A result with a denied key where none is given. -/
theorem parsed_of_keys {ran : Except ScriptError Value × Machine} {key : String}
    (h : ∀ v, ran.1 = .ok v → Traces.Fits (fun _ => False) ran.2.received v)
    (hkeys : ran.1.toOption.map Value.keys = some [key]) (hkey : Security.isDenied key = true) :
    ∃ v ∈ ran.2.received, v.IsParsed ∧ key ∈ v.keys := by
  rcases ran with ⟨_ | v, m⟩
  · cases hkeys
  · have hmem : key ∈ v.keys := (Option.some.inj hkeys : v.keys = [key]) ▸ List.mem_cons_self
    rcases h v rfl key hmem hkey with hgiven | hparsed
    · exact hgiven.elim
    · exact hparsed

/-- The object that `Object.assign` makes has a denied key, and so has a value received from a JSON
text. -/
theorem denied_keys_parsed_assign :
    let c : Context := { budget := { limit := 5000 } }
    let ran := (program overlaidProgram).outcome c { next := Globals.firstIdentity }
    ran.1.toOption.map Value.keys = some ["constructor"] ∧
      ∃ v ∈ ran.2.received, v.IsParsed ∧ "constructor" ∈ v.keys := by
  intro c
  have hc : c.KeysIn (Given fun _ => False) :=
    { helpers := List.forall_mem_nil _
      vars := List.forall_mem_nil _
      capabilities := List.forall_mem_nil _
      natives := fun _ _ v hv key hkey => by
        obtain rfl : .undefined = v := Except.ok.inj hv
        cases hkey }
  obtain ⟨-, -, hprogram, -⟩ := denied_keys_parsed c (fun _ => False) hc
  obtain ⟨-, hresult⟩ := hprogram Globals.firstIdentity overlaidProgram
  have hkeys : ((program overlaidProgram).outcome c
      { next := Globals.firstIdentity }).1.toOption.map Value.keys = some ["constructor"] := by
    decide +kernel
  exact ⟨hkeys, parsed_of_keys hresult hkeys (by decide)⟩

end Eval
end Stencil.Script
