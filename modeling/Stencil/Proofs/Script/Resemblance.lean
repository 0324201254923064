import Mathlib.Data.List.Forall2
import Stencil.Script.Eval

/-! # Values that scripts cannot tell apart

Scripts see the items of an array and the members of an object, but of a function only its name and
how many parameters it has; of identities they see whether two are the same.  A relation between
values is a **resemblance** if related values look alike in this sense, with related contents, and if
it does not confuse identities (`Resemblance`).

Whatever scripts can observe of values is then the same for related ones: the text, the number, the
kind of value it is, the JSON, which values are equal.  What is taken out of related values is
related.
-/
namespace Stencil

/-- Whether an error is that a name is not bound. -/
def ScriptError.isUnbound : ScriptError → Bool
  | .unbound _ => true
  | _ => false

namespace Script
open Value (argument)

/-- A value that has neither an identity nor content. -/
def Value.isPlain : Value → Bool
  | .undefined | .null | .bool _ | .number _ | .string _ | .date _ => true
  | .array .. | .object .. | .closure .. | .native _ => false

/-- Of two answers that are related both are there or none is. -/
theorem isSome_eq_of_rel {α β : Type} {r : α → β → Prop} {o : Option α} {o' : Option β}
    (h : Option.Rel r o o') : o'.isSome = o.isSome := by
  cases h <;> rfl

/-- Items that are related stand at the same places. -/
theorem forall₂_zipIdx {α β : Type} {r : α → β → Prop} {xs : List α} {ys : List β}
    (h : List.Forall₂ r xs ys) (k : Nat) :
    List.Forall₂ (fun p p' => p'.2 = p.2 ∧ r p.1 p'.1) (xs.zipIdx k) (ys.zipIdx k) := by
  induction h generalizing k with
  | nil => exact .nil
  | cons hx _ ih => exact .cons ⟨rfl, hx⟩ (ih (k + 1))

theorem rel_getElem? {α β : Type} {r : α → β → Prop} {xs : List α} {ys : List β}
    (h : List.Forall₂ r xs ys) (i : Nat) : Option.Rel r xs[i]? ys[i]? := by
  induction h generalizing i with
  | nil => exact .none
  | cons hx _ ih =>
    cases i with
    | zero => exact .some hx
    | succ i => exact ih i

variable {R : Value → Value → Prop}

/-- Pure steps that both answer, with related answers, or both fail with the same error, which is not
that a name is not bound. -/
inductive Answers {α : Type} (Q : α → α → Prop) :
    Except ScriptError α → Except ScriptError α → Prop
  | ok {a a' : α} (h : Q a a') : Answers Q (.ok a) (.ok a')
  | error (e : ScriptError) (h : e.isUnbound = false) : Answers Q (.error e) (.error e)

namespace Answers
variable {α β : Type} {Q : α → α → Prop} {x x' : Except ScriptError α}

theorem cases (h : Answers Q x x') : (∃ a a', x = .ok a ∧ x' = .ok a' ∧ Q a a') ∨
    ∃ e, x = .error e ∧ x' = .error e ∧ e.isUnbound = false := by
  cases h with
  | ok h => exact .inl ⟨_, _, rfl, rfl, h⟩
  | error e h => exact .inr ⟨e, rfl, rfl, h⟩

theorem map {P : β → β → Prop} {f f' : α → β} (h : Answers Q x x')
    (hf : ∀ {a a'}, Q a a' → P (f a) (f' a')) : Answers P (x.map f) (x'.map f') := by
  cases h with
  | ok h => exact .ok (hf h)
  | error e h => exact .error e h

/-- A check in front of a pure step. -/
theorem guard {c : Prop} [Decidable c] {e : ScriptError} (he : e.isUnbound = false)
    (h : Answers Q x x') :
    Answers Q (if c then .error e else x) (if c then .error e else x') := by
  split
  · exact .error e he
  · exact h

end Answers

/-- Members with the same keys, in the same order, whose values are related. -/
def SameMembers (R : Value → Value → Prop) : List (String × Value) → List (String × Value) → Prop :=
  List.Forall₂ fun p p' => p'.1 = p.1 ∧ R p.2 p'.2

/-- Two values that look alike from outside and whose contents are related. -/
inductive Value.Looks (R : Value → Value → Prop) : Value → Value → Prop
  | plain {v : Value} (h : v.isPlain) : Looks R v v
  | native (f : Native) : Looks R (.native f) (.native f)
  | array {id id' : Identity} {items items' : Array Value}
    (h : List.Forall₂ R items.toList items'.toList) : Looks R (.array id items) (.array id' items')
  | object {id id' : Identity} {members members' : List (String × Value)}
    (h : SameMembers R members members') : Looks R (.object id members) (.object id' members')
  | closure {id id' : Identity} {f f' : FunctionDef} {captured captured' : List (String × Value)}
    {siblings siblings' : Siblings} (hname : f'.name = f.name) (hparams : f'.params = f.params) :
    Looks R (.closure id f captured siblings) (.closure id' f' captured' siblings')

/-- A relation between values that scripts cannot tell apart. -/
structure Resemblance (R : Value → Value → Prop) : Prop where
  looks : ∀ {v v'}, R v v' → v.Looks R v'
  plain : ∀ {v}, v.isPlain → R v v
  /-- Two values have the same identity if and only if the related ones do. -/
  identity : ∀ {v v' u u' a a' b b'}, R v v' → R u u' → v.identity? = some a →
    v'.identity? = some a' → u.identity? = some b → u'.identity? = some b' → (a' = b' ↔ a = b)

/-! ## Members -/

namespace SameMembers
variable {members members' : List (String × Value)}

/-- Under a key both have related values, or none. -/
theorem lookup (h : SameMembers R members members') (key : String) :
    Option.Rel R (members.lookup key) (members'.lookup key) := by
  induction h with
  | nil => exact .none
  | @cons p p' rest rest' hp _ ih =>
    rw [List.lookup_cons, List.lookup_cons, hp.1]
    cases key == p.1 with
    | true => exact .some hp.2
    | false => exact ih

/-- Members are added on both sides unless their names have been found. -/
theorem foldl_found {found found' : List (String × Value)} (h : SameMembers R members members')
    (hfound : SameMembers R found found') :
    SameMembers R
      (members.foldl (fun found (p : String × Value) =>
        if (found.lookup p.1).isSome then found else (p.1, p.2) :: found) found)
      (members'.foldl (fun found (p : String × Value) =>
        if (found.lookup p.1).isSome then found else (p.1, p.2) :: found) found') := by
  refine List.rel_foldl (fun found found' (hfound : SameMembers R found found') p p' hp => ?_)
    hfound h
  rw [hp.1, isSome_eq_of_rel (hfound.lookup p.1)]
  split
  · exact hfound
  · exact .cons ⟨rfl, hp.2⟩ hfound

theorem insertMember (h : SameMembers R members members') (key : String) {v v' : Value}
    (hv : R v v') : SameMembers R (Json.insertMember key v members)
      (Json.insertMember key v' members') := by
  induction h with
  | nil => exact .cons ⟨rfl, hv⟩ .nil
  | @cons p p' rest rest' hp hrest ih =>
    rw [Json.insertMember, Json.insertMember, hp.1]
    split
    · exact .cons ⟨rfl, hv⟩ hrest
    · exact .cons ⟨rfl, hp.2⟩ ih

/-- Members put onto others, one after the other. -/
theorem overlay {onto onto' : List (String × Value)} (honto : SameMembers R onto onto')
    (h : SameMembers R members members') :
    SameMembers R (members.foldl (fun ms p => Json.insertMember p.1 p.2 ms) onto)
      (members'.foldl (fun ms p => Json.insertMember p.1 p.2 ms) onto') := by
  induction h generalizing onto onto' with
  | nil => exact honto
  | @cons p p' rest rest' hp _ ih =>
    rw [List.foldl_cons, List.foldl_cons, hp.1]
    exact ih (honto.insertMember p.1 hp.2)

theorem keys (h : SameMembers R members members') : members'.map (·.1) = members.map (·.1) := by
  induction h with
  | nil => rfl
  | cons hp _ ih => rw [List.map_cons, List.map_cons, hp.1, ih]

theorem values (h : SameMembers R members members') :
    List.Forall₂ R (members.map (·.2)) (members'.map (·.2)) :=
  List.rel_map (fun _ _ hp => hp.2) h

end SameMembers

/-! ## What a value is -/

namespace Value.Looks
variable {v v' : Value} (h : v.Looks R v')
include h

theorem isNullish : v'.isNullish = v.isNullish := by cases h <;> rfl
theorem isUndefined : v'.isUndefined = v.isUndefined := by cases h <;> rfl
theorem isCallable : v'.isCallable = v.isCallable := by cases h <;> rfl
theorem isArray : v'.isArray = v.isArray := by cases h <;> rfl
theorem truthy : v'.truthy = v.truthy := by cases h <;> rfl
theorem typeOf : v'.typeOf = v.typeOf := by cases h <;> rfl
theorem describe : v'.describe = v.describe := by cases h <;> rfl
theorem isOmitted : v'.isOmitted = v.isOmitted := by cases h <;> rfl

theorem items : List.Forall₂ R (v.items?.getD #[]).toList (v'.items?.getD #[]).toList := by
  cases h with
  | array h => exact h
  | plain h => cases v <;> first | exact .nil | cases h
  | _ => exact .nil

theorem members : Option.Rel (SameMembers R) v.members? v'.members? := by
  cases h with
  | object h => exact .some h
  | plain h => cases v <;> first | exact .none | cases h
  | _ => exact .none

end Value.Looks

namespace Resemblance
variable (hR : Resemblance R) {v v' u u' : Value} {args args' items items' : List Value}
include hR

theorem argument (h : List.Forall₂ R args args') (i : Nat) :
    R (argument args i) (argument args' i) := by
  induction h generalizing i with
  | nil => exact hR.plain rfl
  | cons hv _ ih =>
    cases i with
    | zero => exact hv
    | succ i => exact ih i

theorem getD {o o' : Option Value} (h : Option.Rel R o o') :
    R (o.getD .undefined) (o'.getD .undefined) := by
  cases h with
  | some h => exact h
  | none => exact hR.plain rfl

theorem forall₂_plain {vs : List Value} (h : ∀ v ∈ vs, v.isPlain) : List.Forall₂ R vs vs :=
  List.forall₂_same.mpr fun v hv => hR.plain (h v hv)

/-! ### Inversion -/

theorem array {id : Identity} {items : Array Value} (h : R (.array id items) v') :
    ∃ id' items', v' = .array id' items' ∧ List.Forall₂ R items.toList items'.toList := by
  cases hR.looks h with
  | plain hplain => cases hplain
  | array hitems => exact ⟨_, _, rfl, hitems⟩

theorem object {id : Identity} {members : List (String × Value)} (h : R (.object id members) v') :
    ∃ id' members', v' = .object id' members' ∧ SameMembers R members members' := by
  cases hR.looks h with
  | plain hplain => cases hplain
  | object hmembers => exact ⟨_, _, rfl, hmembers⟩

theorem closure {id : Identity} {f : FunctionDef} {captured : List (String × Value)}
    {siblings : Siblings} (h : R (.closure id f captured siblings) v') :
    ∃ id' f' captured' siblings', v' = .closure id' f' captured' siblings' ∧ f'.name = f.name ∧
      f'.params = f.params := by
  cases hR.looks h with
  | plain hplain => cases hplain
  | closure hname hparams => exact ⟨_, _, _, _, rfl, hname, hparams⟩

/-! ## Texts and numbers -/

mutual

theorem textOnto (depth : Nat) (out : String) :
    ∀ v v' : Value, R v v' → Value.textOnto depth out v' = Value.textOnto depth out v
  | .array id ⟨items⟩, v', h => by
    obtain ⟨id', ⟨items'⟩, rfl, hitems⟩ := hR.array h
    rw [Value.textOnto, Value.textOnto, itemsOnto depth out true items items' hitems]
  | .undefined, _, h | .null, _, h | .bool _, _, h | .number _, _, h | .string _, _, h
  | .date _, _, h | .native _, _, h | .object .., _, h => by cases hR.looks h <;> rfl
  | .closure .., _, h => by
    obtain ⟨_, _, _, _, rfl, hname, -⟩ := hR.closure h
    simp only [Value.textOnto, Value.closureName, hname]

theorem itemsOnto (depth : Nat) (out : String) (first : Bool) :
    ∀ items items' : List Value, List.Forall₂ R items items' →
      Value.itemsOnto depth out first items' = Value.itemsOnto depth out first items
  | [], _, h => by
    cases h
    rfl
  | v :: rest, _, h => by
    obtain _ | ⟨hv, hrest⟩ := h
    rw [Value.itemsOnto, Value.itemsOnto, (hR.looks hv).isNullish]
    simp only [textOnto _ _ v _ hv, itemsOnto _ _ _ rest _ hrest]

end

theorem text (h : R v v') : v'.text = v.text :=
  hR.textOnto 0 "" v v' h

theorem keyText (h : R v v') : v'.keyText = v.keyText := by
  have htext := hR.text h
  cases hR.looks h with
  | plain | native => rfl
  | array | object | closure => exact htext

theorem toNumber : ∀ {v v' : Value}, R v v' → v'.toNumber = v.toNumber
  | .array id ⟨[]⟩, v', h => by
    obtain ⟨id', ⟨items'⟩, rfl, hitems⟩ := hR.array h
    cases hitems
    rfl
  | .array id ⟨[v]⟩, v', h => by
    obtain ⟨id', ⟨items'⟩, rfl, _ | ⟨hv, _ | _⟩⟩ := hR.array h
    rw [Value.toNumber, Value.toNumber, toNumber hv]
  | .array id ⟨_ :: _ :: _⟩, v', h => by
    obtain ⟨id', ⟨items'⟩, rfl, _ | ⟨_, _ | _⟩⟩ := hR.array h
    rfl
  | .undefined, _, h | .null, _, h | .bool _, _, h | .number _, _, h | .string _, _, h
  | .date _, _, h | .native _, _, h | .object .., _, h | .closure .., _, h => by
    cases hR.looks h <;> rfl

theorem map_toNumber (h : List.Forall₂ R args args') :
    args'.map Value.toNumber = args.map Value.toNumber := by
  induction h with
  | nil => rfl
  | cons hv _ ih => rw [List.map_cons, List.map_cons, hR.toNumber hv, ih]

/-! ## Comparisons -/

theorem toPrimitive (h : R v v') : v'.toPrimitive = v.toPrimitive := by
  have htext := hR.text h
  cases hR.looks h with
  | plain | native => rfl
  | array | object | closure => exact congrArg Value.string htext

theorem compare? (h : R v v') (hu : R u u') : v'.compare? u' = v.compare? u := by
  unfold Value.compare?
  rw [hR.toPrimitive h, hR.toPrimitive hu]

theorem hasMember (h : R v v') (key : String) :
    Answers Eq (v.hasMember key) (v'.hasMember key) := by
  have htext := hR.text h
  cases hR.looks h with
  | plain hplain => cases v <;> first | exact .error _ rfl | cases hplain
  | native => exact .error _ rfl
  | array hitems =>
    have hsize := hitems.length_eq
    rw [Array.length_toList, Array.length_toList] at hsize
    unfold Value.hasMember
    dsimp only
    rw [hsize]
    exact .ok rfl
  | object hmembers => exact .ok (isSome_eq_of_rel (hmembers.lookup key)).symm
  | closure hname =>
    unfold Value.hasMember
    dsimp only
    rw [htext]
    exact .error _ rfl

theorem comparedAsNumbers (h : R v v') (hu : R u u') :
    Value.comparedAsNumbers v' u' = Value.comparedAsNumbers v u := by
  cases hR.looks h with
  | plain hv =>
    cases hR.looks hu with
    | plain | native => rfl
    | array | object | closure => cases v <;> rfl
  | native => cases hR.looks hu <;> rfl
  | array | object | closure =>
    cases hR.looks hu with
    | plain => cases u <;> rfl
    | _ => rfl

theorem strictEquals (h : R v v') (hu : R u u') : v'.strictEquals u' = v.strictEquals u := by
  have hid : ∀ {a a' b b' : Identity}, v.identity? = some a → v'.identity? = some a' →
      u.identity? = some b → u'.identity? = some b' → (a' == b') = (a == b) := by
    intro a a' b b' ha ha' hb hb'
    rw [Bool.eq_iff_iff, beq_iff_eq, beq_iff_eq, hR.identity h hu ha ha' hb hb']
  cases hR.looks h with
  | plain hv =>
    cases hR.looks hu with
    | plain | native => rfl
    | array | object | closure => cases v <;> first | rfl | cases hv
  | native =>
    cases hR.looks hu <;> rfl
  | array =>
    cases hR.looks hu with
    | array => exact hid rfl rfl rfl rfl
    | plain hplain => cases u <;> first | rfl | cases hplain
    | _ => rfl
  | object =>
    cases hR.looks hu with
    | object => exact hid rfl rfl rfl rfl
    | plain hplain => cases u <;> first | rfl | cases hplain
    | _ => rfl
  | closure =>
    cases hR.looks hu with
    | closure => exact hid rfl rfl rfl rfl
    | plain hplain => cases u <;> first | rfl | cases hplain
    | _ => rfl

theorem looseEquals (h : R v v') (hu : R u u') : v'.looseEquals u' = v.looseEquals u := by
  unfold Value.looseEquals
  rw [(hR.looks h).isNullish, (hR.looks hu).isNullish, hR.comparedAsNumbers h hu, hR.toNumber h,
    hR.toNumber hu, hR.strictEquals h hu]

end Resemblance

/-! ## JSON -/

namespace Resemblance

mutual

theorem jsonNode (hR : Resemblance R) (depth nodes : Nat) : ∀ v v' : Value, R v v' →
    Answers Eq (Value.jsonNode depth nodes v) (Value.jsonNode depth nodes v')
  | .array id ⟨items⟩, v', h => by
    obtain ⟨id', ⟨items'⟩, rfl, hitems⟩ := hR.array h
    rw [Value.jsonNode, Value.jsonNode]
    refine .guard rfl (.guard rfl ?_)
    rcases (hR.jsonItems (depth + 1) (nodes + 1) [] items items' hitems).cases with
      ⟨a, _, ha, ha', rfl⟩ | ⟨e, ha, ha', he⟩
    · rw [ha, ha']
      exact .ok rfl
    · rw [ha, ha']
      exact .error e he
  | .object id members, v', h => by
    obtain ⟨id', members', rfl, hmembers⟩ := hR.object h
    rw [Value.jsonNode, Value.jsonNode]
    refine .guard rfl (.guard rfl ?_)
    rcases (hR.jsonMembers (depth + 1) (nodes + 1) [] members members' hmembers).cases with
      ⟨a, _, ha, ha', rfl⟩ | ⟨e, ha, ha', he⟩
    · rw [ha, ha']
      exact .ok rfl
    · rw [ha, ha']
      exact .error e he
  | .undefined, v', h | .null, v', h | .bool _, v', h | .number _, v', h | .string _, v', h
  | .date _, v', h | .native _, v', h | .closure .., v', h => by
    cases hR.looks h <;>
      (unfold Value.jsonNode; exact .guard rfl (.guard rfl (.ok rfl)))

theorem jsonItems (hR : Resemblance R) (depth nodes : Nat) (done : List Json) :
    ∀ items items' : List Value, List.Forall₂ R items items' →
      Answers Eq (Value.jsonItems depth nodes done items)
        (Value.jsonItems depth nodes done items')
  | [], _, h => by
    cases h
    exact .ok rfl
  | v :: rest, _, h => by
    obtain _ | @⟨_, v', _, rest', hv, hrest⟩ := h
    rw [Value.jsonItems, Value.jsonItems]
    rcases (hR.jsonNode depth nodes v v' hv).cases with ⟨a, _, ha, ha', rfl⟩ | ⟨e, ha, ha', he⟩
    · rw [ha, ha']
      exact hR.jsonItems depth a.2 (a.1 :: done) rest rest' hrest
    · rw [ha, ha']
      exact .error e he

theorem jsonMembers (hR : Resemblance R) (depth nodes : Nat) (done : List (String × Json)) :
    ∀ members members' : List (String × Value), SameMembers R members members' →
      Answers Eq (Value.jsonMembers depth nodes done members)
        (Value.jsonMembers depth nodes done members')
  | [], _, h => by
    cases h
    exact .ok rfl
  | (_, v) :: rest, _, h => by
    obtain _ | @⟨_, ⟨_, v'⟩, _, rest', ⟨rfl, hv⟩, hrest⟩ := h
    rw [Value.jsonMembers, Value.jsonMembers, (hR.looks hv).isOmitted]
    split
    · exact hR.jsonMembers depth nodes done rest rest' hrest
    · rcases (hR.jsonNode depth nodes v v' hv).cases with ⟨a, _, ha, ha', rfl⟩ | ⟨e, ha, ha', he⟩
      · rw [ha, ha']
        exact hR.jsonMembers depth a.2 ((_, a.1) :: done) rest rest' hrest
      · rw [ha, ha']
        exact .error e he

end

theorem toJson (hR : Resemblance R) {v v' : Value} (h : R v v') : Answers Eq v.toJson v'.toJson :=
  (hR.jsonNode 0 0 v v' h).map fun h => congrArg Prod.fst h

end Resemblance

/-- Walks that have met as much, and the same containers. -/
structure MetAlike (R : Value → Value → Prop) (w w' : Walk) : Prop where
  nodes : w'.nodes = w.nodes
  visited : ∀ {v v' id id'}, R v v' → v.identity? = some id → v'.identity? = some id' →
    w'.visited.contains id' = w.visited.contains id

theorem MetAlike.count {w w' : Walk} (h : MetAlike R w w') (limits : ArgumentLimits)
    (depth : Nat) : Answers (MetAlike R) (w.count limits depth) (w'.count limits depth) := by
  unfold Walk.count
  rw [h.nodes]
  split
  · exact .error _ rfl
  · split
    · exact .error _ rfl
    · exact .ok ⟨rfl, h.visited⟩

namespace Resemblance

theorem visit (hR : Resemblance R) {w w' : Walk} (h : MetAlike R w w') {v v' : Value}
    {id id' : Identity} (hv : R v v') (hid : v.identity? = some id) (hid' : v'.identity? = some id') :
    MetAlike R (w.visit id) (w'.visit id') := by
  refine ⟨h.nodes, fun {u u' k k'} hu hk hk' => ?_⟩
  simp only [Walk.visit, Std.HashSet.contains_insert, h.visited hu hk hk']
  congr 1
  rw [Bool.eq_iff_iff, beq_iff_eq, beq_iff_eq, hR.identity hv hu hid hid' hk hk']

mutual

theorem walk (hR : Resemblance R) (limits : ArgumentLimits) (depth : Nat) :
    ∀ (v v' : Value) {w w' : Walk}, R v v' → MetAlike R w w' →
      Answers (MetAlike R) (Script.walk limits depth w v) (Script.walk limits depth w' v')
  | .array id ⟨items⟩, v', w, w', h, hw => by
    obtain ⟨id', ⟨items'⟩, rfl, hitems⟩ := hR.array h
    rw [Script.walk, Script.walk]
    rcases (hw.count limits depth).cases with ⟨t, t', ht, ht', hsame⟩ | ⟨e, ht, ht', he⟩
    · rw [ht, ht']
      dsimp only
      rw [hsame.visited h rfl rfl]
      split
      · exact .ok hsame
      · exact hR.walkItems limits (depth + 1) items items' hitems (hR.visit hsame h rfl rfl)
    · rw [ht, ht']
      exact .error e he
  | .object id members, v', w, w', h, hw => by
    obtain ⟨id', members', rfl, hmembers⟩ := hR.object h
    rw [Script.walk, Script.walk]
    rcases (hw.count limits depth).cases with ⟨t, t', ht, ht', hsame⟩ | ⟨e, ht, ht', he⟩
    · rw [ht, ht']
      dsimp only
      rw [hsame.visited h rfl rfl]
      split
      · exact .ok hsame
      · exact hR.walkMembers limits (depth + 1) members members' hmembers
          (hR.visit hsame h rfl rfl)
    · rw [ht, ht']
      exact .error e he
  | .undefined, v', w, w', h, hw | .null, v', w, w', h, hw | .bool _, v', w, w', h, hw
  | .number _, v', w, w', h, hw | .string _, v', w, w', h, hw | .date _, v', w, w', h, hw
  | .native _, v', w, w', h, hw | .closure .., v', w, w', h, hw => by
    rcases (hw.count limits depth).cases with ⟨t, t', ht, ht', hsame⟩ | ⟨e, ht, ht', he⟩
    · cases hR.looks h <;>
        (rw [Script.walk, Script.walk, ht, ht']; exact .ok hsame)
    · cases hR.looks h <;>
        (rw [Script.walk, Script.walk, ht, ht']; exact .error e he)

theorem walkItems (hR : Resemblance R) (limits : ArgumentLimits) (depth : Nat) :
    ∀ (items items' : List Value) {w w' : Walk}, List.Forall₂ R items items' → MetAlike R w w' →
      Answers (MetAlike R) (Script.walkItems limits depth w items)
        (Script.walkItems limits depth w' items')
  | [], _, w, w', h, hw => by
    cases h
    exact .ok hw
  | v :: rest, _, w, w', h, hw => by
    obtain _ | @⟨_, v', _, rest', hv, hrest⟩ := h
    rw [Script.walkItems, Script.walkItems]
    rcases (hR.walk limits depth v v' hv hw).cases with ⟨t, t', ht, ht', hsame⟩ | ⟨e, ht, ht', he⟩
    · rw [ht, ht']
      exact hR.walkItems limits depth rest rest' hrest hsame
    · rw [ht, ht']
      exact .error e he

theorem walkMembers (hR : Resemblance R) (limits : ArgumentLimits) (depth : Nat) :
    ∀ (members members' : List (String × Value)) {w w' : Walk}, SameMembers R members members' →
      MetAlike R w w' → Answers (MetAlike R) (Script.walkMembers limits depth w members)
        (Script.walkMembers limits depth w' members')
  | [], _, w, w', h, hw => by
    cases h
    exact .ok hw
  | (key, v) :: rest, _, w, w', h, hw => by
    obtain _ | @⟨_, ⟨key', v'⟩, _, rest', ⟨rfl, hv⟩, hrest⟩ := h
    rw [Script.walkMembers, Script.walkMembers]
    split
    · exact .error _ rfl
    · rcases (hR.walk limits depth v v' hv hw).cases with ⟨t, t', ht, ht', hsame⟩ | ⟨e, ht, ht', he⟩
      · rw [ht, ht']
        exact hR.walkMembers limits depth rest rest' hrest hsame
      · rw [ht, ht']
        exact .error e he

end

variable (hR : Resemblance R) {v v' u u' : Value} {args args' items items' : List Value}
include hR

theorem checkArguments (limits : ArgumentLimits) (h : List.Forall₂ R args args') :
    Answers Eq (Script.checkArguments limits args) (Script.checkArguments limits args') := by
  have hstart : MetAlike R {} {} := ⟨rfl, fun _ _ _ => by simp⟩
  exact (hR.walkItems limits 0 args args' h hstart).map fun _ => rfl

/-! ## Members and items -/

theorem member (h : R v v') (key : String) : Answers R (v.member key) (v'.member key) := by
  have htext := hR.text h
  unfold Value.member
  split
  · exact .error _ rfl
  · cases hR.looks h with
    | plain hplain =>
      cases v with
      | undefined | null => exact .error _ rfl
      | bool | number | date => exact .ok (hR.plain rfl)
      | string s =>
        dsimp only
        split
        · exact .ok (hR.plain rfl)
        · refine .ok (hR.plain ?_)
          cases Number.index? key >>= fun i => s.toList[i]? <;> rfl
      | array | object | closure | native => cases hplain
    | native f =>
      dsimp only
      split
      · exact .ok (hR.plain rfl)
      · split <;> exact .ok (hR.plain rfl)
    | @array _ _ items items' hitems =>
      have hsize := hitems.length_eq
      rw [Array.length_toList, Array.length_toList] at hsize
      dsimp only
      rw [hsize]
      split
      · exact .ok (hR.plain rfl)
      · refine .ok (hR.getD ?_)
        cases Number.index? key with
        | none => exact .none
        | some i =>
          have hi := rel_getElem? hitems i
          rwa [Array.getElem?_toList, Array.getElem?_toList] at hi
    | object hmembers => exact .ok (hR.getD (hmembers.lookup key))
    | closure hname hparams =>
      dsimp only
      rw [hname, hparams]
      split
      · exact .ok (hR.plain rfl)
      · split <;> exact .ok (hR.plain rfl)

theorem iterated (h : R v v') : Answers (List.Forall₂ R) (Eval.iterated v) (Eval.iterated v') := by
  cases hR.looks h with
  | plain hplain =>
    cases v with
    | string s =>
      refine .ok (hR.forall₂_plain fun u hu => ?_)
      obtain ⟨c, -, rfl⟩ := List.mem_map.mp hu
      rfl
    | array | object | closure | native => cases hplain
    | _ => exact .error _ rfl
  | array hitems => exact .ok hitems
  | native | object | closure => exact .error _ rfl

theorem iteratedKeys (h : R v v') : Eval.iteratedKeys v' = Eval.iteratedKeys v := by
  cases hR.looks h with
  | plain | native | closure => rfl
  | array hitems =>
    have hsize := hitems.length_eq
    rw [Array.length_toList, Array.length_toList] at hsize
    unfold Eval.iteratedKeys
    dsimp only
    rw [hsize]
  | object hmembers =>
    have hkeys := congrArg (List.map Value.string) hmembers.keys
    rwa [List.map_map, List.map_map] at hkeys

theorem thrownMessage (h : R v v') : Eval.thrownMessage v' = Eval.thrownMessage v := by
  have htext := hR.text h
  cases hR.looks h with
  | plain | native => rfl
  | array | closure => exact htext
  | object hmembers =>
    have hmessage := hmembers.lookup "message"
    unfold Eval.thrownMessage
    dsimp only
    rw [htext]
    generalize List.lookup "message" _ = o at hmessage
    generalize List.lookup "message" _ = o' at hmessage
    cases hmessage with
    | some hv => exact hR.text hv
    | none => rfl

theorem unary (op : UnaryOp) (h : R v v') : Eval.unary op v' = Eval.unary op v := by
  unfold Eval.unary
  rw [(hR.looks h).truthy, (hR.looks h).typeOf, hR.toNumber h]

theorem decides (op : LogicalOp) (h : R v v') : Eval.decides op v' = Eval.decides op v := by
  unfold Eval.decides
  rw [(hR.looks h).truthy, (hR.looks h).isNullish]

/-! ## Methods and built-in functions -/

theorem textArgument (h : List.Forall₂ R args args') (i : Nat) :
    Method.textArgument args' i = Method.textArgument args i :=
  hR.text (hR.argument h i)

theorem textOr (h : R v v') (default : String) :
    Method.textOr default v' = Method.textOr default v := by
  unfold Method.textOr
  rw [(hR.looks h).isUndefined, hR.text h]

theorem relativeIndex (h : R v v') (length default : Nat) :
    Method.relativeIndex v' length default = Method.relativeIndex v length default := by
  unfold Method.relativeIndex
  rw [(hR.looks h).isNullish, hR.toNumber h]

theorem relativePlace? (h : R v v') (length : Nat) :
    Method.relativePlace? v' length = Method.relativePlace? v length := by
  unfold Method.relativePlace?
  rw [hR.toNumber h]

theorem clampedIndex (h : R v v') (length default : Nat) :
    Method.clampedIndex v' length default = Method.clampedIndex v length default := by
  unfold Method.clampedIndex
  rw [(hR.looks h).isNullish, hR.toNumber h]

theorem pieces (h : R v v') (s : String) : Method.pieces s v' = Method.pieces s v := by
  unfold Method.pieces
  rw [(hR.looks h).isUndefined, hR.text h]

theorem defaultBefore (h : R v v') (hu : R u u') :
    Method.defaultBefore v' u' = Method.defaultBefore v u := by
  unfold Method.defaultBefore
  rw [(hR.looks h).isUndefined, (hR.looks hu).isUndefined, hR.text h, hR.text hu]

theorem flatDepth (h : R v v') : Method.flatDepth v' = Method.flatDepth v := by
  unfold Method.flatDepth
  rw [(hR.looks h).isUndefined, hR.toNumber h]

theorem spread (h : R v v') : List.Forall₂ R (Method.spread v) (Method.spread v') := by
  cases hR.looks h with
  | array hitems => exact hitems
  | plain hplain => cases v <;> first | exact .cons h .nil | cases hplain
  | native | object | closure => exact .cons h .nil

theorem flatten (depth : Nat) (h : List.Forall₂ R items items') :
    List.Forall₂ R (Method.flatten depth items) (Method.flatten depth items') := by
  induction depth generalizing items items' with
  | zero => exact h
  | succ depth ih =>
    refine List.rel_flatMap h fun v v' hv => ?_
    cases hR.looks hv with
    | array hitems => exact ih hitems
    | plain hplain => cases v <;> first | exact .cons hv .nil | cases hplain
    | native | object | closure => exact .cons hv .nil

theorem joined (h : List.Forall₂ R items items') (separator : String) :
    Method.joined separator items' = Method.joined separator items := by
  unfold Method.joined
  congr 1
  induction h with
  | nil => rfl
  | cons hv _ ih => rw [List.map_cons, List.map_cons, (hR.looks hv).isNullish, hR.text hv, ih]

theorem isItem (h : R v v') (hu : R u u') : Method.isItem v' u' = Method.isItem v u := by
  unfold Method.isItem
  rw [hR.strictEquals hu h]
  congr 1
  cases hR.looks h with
  | plain =>
    cases hR.looks hu with
    | plain | native => rfl
    | _ => cases v <;> rfl
  | _ => cases hR.looks hu <;> first | rfl | (cases u <;> rfl)

theorem any_isItem (h : List.Forall₂ R items items') (hv : R v v') :
    items'.any (Method.isItem v') = items.any (Method.isItem v) := by
  induction h with
  | nil => rfl
  | cons hu _ ih => rw [List.any_cons, List.any_cons, hR.isItem hv hu, ih]

theorem findIdx?_strictEquals (h : List.Forall₂ R items items') (hv : R v v') :
    items'.findIdx? (·.strictEquals v') = items.findIdx? (·.strictEquals v) := by
  induction h with
  | nil => rfl
  | cons hu _ ih => rw [List.findIdx?_cons, List.findIdx?_cons, hR.strictEquals hu hv, ih]

theorem ofNumber (h : List.Forall₂ R args args') (x : Float) (name : String) :
    Method.ofNumber x name args' = Method.ofNumber x name args := by
  have hfirst := hR.argument h 0
  have hnumber := hR.toNumber hfirst
  unfold Method.ofNumber
  generalize Value.argument args 0 = base at hfirst hnumber
  generalize Value.argument args' 0 = base' at hfirst hnumber
  rw [hnumber]
  split
  · rfl
  · cases hR.looks hfirst with
    | plain => rfl
    | _ => exact congrArg (fun n => some (Value.string (Number.radixText x (Number.toCount n)))) hnumber
  · rfl
  · rfl
  · rfl

theorem ofObject {members members' : List (String × Value)} (hm : SameMembers R members members')
    (h : List.Forall₂ R args args') (name : String) :
    Method.ofObject members' name args' = Method.ofObject members name args := by
  unfold Method.ofObject
  rw [hR.textArgument h, isSome_eq_of_rel (hm.lookup _)]

theorem indentation (h : R v v') : Native.indentation v' = Native.indentation v := by
  cases hR.looks h <;> rfl

theorem membersOf (h : R v v') : SameMembers R (Native.membersOf v) (Native.membersOf v') := by
  cases hR.looks h with
  | plain hplain => cases v <;> first | exact .nil | cases hplain
  | native | closure => exact .nil
  | object hmembers => exact hmembers
  | @array _ _ items items' hitems =>
    exact List.rel_map (fun p p' hp => ⟨congrArg toString hp.1, hp.2⟩) (forall₂_zipIdx hitems 0)

theorem addPair {members members' : List (String × Value)} (hm : SameMembers R members members')
    (h : R v v') :
    Answers (SameMembers R) (Native.addPair members v) (Native.addPair members' v') := by
  cases hR.looks h with
  | plain hplain => cases v <;> first | exact .ok hm | cases hplain
  | native | object | closure => exact .ok hm
  | @array _ _ items items' hitems =>
    have hget : ∀ i : Nat, Option.Rel R items[i]? items'[i]? := by
      intro i
      have hi := rel_getElem? hitems i
      rwa [Array.getElem?_toList, Array.getElem?_toList] at hi
    have hkey : (items'[0]?.map Value.text).getD "" = (items[0]?.map Value.text).getD "" := by
      have hfirst := hget 0
      generalize items[0]? = o at hfirst
      generalize items'[0]? = o' at hfirst
      cases hfirst with
      | none => rfl
      | some hv => exact hR.text hv
    unfold Native.addPair
    dsimp only
    rw [hkey]
    split
    · exact .error _ rfl
    · exact .ok (hm.insertMember _ (hR.getD (hget 1)))

theorem addPairs {members members' : List (String × Value)} (hm : SameMembers R members members')
    (h : List.Forall₂ R items items') :
    Answers (SameMembers R) (items.foldlM Native.addPair members)
      (items'.foldlM Native.addPair members') := by
  induction h generalizing members members' with
  | nil => exact .ok hm
  | cons hv _ ih =>
    rw [List.foldlM_cons, List.foldlM_cons]
    rcases (hR.addPair hm hv).cases with ⟨ms, ms', h, h', hms⟩ | ⟨e, h, h', he⟩
    · rw [h, h']
      exact ih hms
    · rw [h, h']
      exact .error e he

theorem newInstant? (h : List.Forall₂ R args args') (now : Calendar.Instant) :
    Native.newInstant? now args' = Native.newInstant? now args := by
  cases h with
  | nil => rfl
  | @cons v _ _ _ hv _ =>
    cases hR.looks hv with
    | plain => cases v <;> rfl
    | _ => rfl

end Resemblance
end Script
end Stencil
