import Mathlib.Data.List.Forall2
import Stencil.Proofs.Script.Height
import Stencil.Script.Value.Json

/-! # Values as JSON, and back

What a JSON tree **shows** of a value is said by one rule for each kind of value (`Value.Shows`):
items and members stand where they stood, only members that are `undefined` or functions are left
out, and what JSON has no form for is `null`.

The conversion counts the nodes of the tree and the levels that they stand on.  It **ends** in one of
three ways (`Value.Ends`): with a tree that shows the value and is within both limits, or with the
error of the limit that the value does not keep to.  Sizes add up along a list and levels do not, so
one rule for what follows on something else carries this through items and members
(`ends_jsonNode`).  Hence a value is converted exactly if it is within the limits
(`exists_toJson_iff`), and what it is converted to shows it.

A value that consists of **data** only (`Value.IsData`) is left whole, and what is made of its tree
is **alike** to it: it differs in identities and in the sign of zeros (`json_round_trip`).
-/
namespace Stencil.Script.Value

/-! ## What a tree shows -/

/-- The members that JSON shows. -/
def shownMembers (members : List (String × Value)) : List (String × Value) :=
  members.filter fun p => !p.2.isOmitted

/-- The tree shows the value. -/
inductive Shows : Value → Json → Prop where
  | nothing {v : Value} (h : v.isNullish || v.isCallable) : Shows v .null
  | bool (b : Bool) : Shows (.bool b) (.bool b)
  | notFinite {x : Float} (h : Number.isFinite x = false) : Shows (.number x) .null
  | number {x : Float} {n : Json.Number} (h : Number.isFinite x = true)
    (hn : numberJson x = .number n) : Shows (.number x) (.number n)
  | string (s : String) : Shows (.string s) (.string s)
  | date (i : Calendar.Instant) : Shows (.date i) (.string i.isoText)
  | array {id : Identity} {items : Array Value} {js : List Json}
    (h : List.Forall₂ Shows items.toList js) : Shows (.array id items) (.array js)
  | object {id : Identity} {members : List (String × Value)} {ms : List (String × Json)}
    (keys : ms.map (·.1) = (shownMembers members).map (·.1))
    (values : List.Forall₂ Shows ((shownMembers members).map (·.2)) (ms.map (·.2))) :
    Shows (.object id members) (.object ms)

theorem shows_number (x : Float) : (Value.number x).Shows (numberJson x) := by
  cases hfinite : Number.isFinite x with
  | false =>
    rw [numberJson, hfinite]
    exact .notFinite hfinite
  | true =>
    obtain ⟨n, hn⟩ : ∃ n, numberJson x = .number n := by
      rw [numberJson, hfinite]
      split
      · contradiction
      · split <;> exact ⟨_, rfl⟩
    rw [hn]
    exact .number hfinite hn

mutual

/-- How many nodes the tree has that shows a value. -/
def jsonSize : Value → Nat
  | .array _ ⟨items⟩ => itemsJsonSize items + 1
  | .object _ members => membersJsonSize members + 1
  | _ => 1

/-- How many nodes the trees of items have. -/
def itemsJsonSize : List Value → Nat
  | [] => 0
  | v :: rest => v.jsonSize + itemsJsonSize rest

/-- How many nodes the trees of members have. -/
def membersJsonSize : List (String × Value) → Nat
  | [] => 0
  | (_, v) :: rest => (if v.isOmitted then 0 else v.jsonSize) + membersJsonSize rest

end

mutual

/-- On how many levels the nodes of the tree stand that shows a value. -/
def jsonLevels : Value → Nat
  | .array _ ⟨items⟩ => itemsJsonLevels items + 1
  | .object _ members => membersJsonLevels members + 1
  | _ => 1

/-- On how many levels the nodes of the trees of items stand. -/
def itemsJsonLevels : List Value → Nat
  | [] => 0
  | v :: rest => max v.jsonLevels (itemsJsonLevels rest)

/-- On how many levels the nodes of the trees of members stand. -/
def membersJsonLevels : List (String × Value) → Nat
  | [] => 0
  | (_, v) :: rest => max (if v.isOmitted then 0 else v.jsonLevels) (membersJsonLevels rest)

end

/-! ## How conversion ends -/

/-- The error of a value that needs too many nodes. -/
def tooManyNodes : ScriptError :=
  .outOfRange s!"Value has more than {maxJsonNodes} JSON nodes"

variable {α β : Type} {depth nodes size levels : Nat}

/-- How the conversion of something ends that needs so many nodes and levels, if it stands `depth`
containers deep and so many nodes have been made before. -/
inductive Ends (depth nodes size levels : Nat) (wanted : α → Prop) :
    Except ScriptError (α × Nat) → Prop where
  | within {a : α} {n : Nat} (h : wanted a) (hn : n = nodes + size) (hsize : n ≤ maxJsonNodes)
    (hlevels : depth + levels ≤ maxNesting) : Ends depth nodes size levels wanted (.ok (a, n))
  | tooMany (h : maxJsonNodes < nodes + size) :
    Ends depth nodes size levels wanted (.error tooManyNodes)
  | tooDeep (h : maxNesting < depth + levels) :
    Ends depth nodes size levels wanted (.error (Value.tooDeep maxNesting))

namespace Ends
variable {wanted : α → Prop} {wanted' : β → Prop} {x : Except ScriptError (α × Nat)}

theorem nothing {a : α} (h : wanted a) (hnodes : nodes ≤ maxJsonNodes) (hdepth : depth ≤ maxNesting) :
    Ends depth nodes 0 0 wanted (.ok (a, nodes)) :=
  .within h rfl hnodes hdepth

/-- The two checks in front of every node. -/
theorem node (h : nodes + 1 ≤ maxJsonNodes → depth + 1 ≤ maxNesting →
      Ends (depth + 1) (nodes + 1) size levels wanted x) :
    Ends depth nodes (size + 1) (levels + 1) wanted
      (if maxJsonNodes < nodes + 1 then .error tooManyNodes
      else if maxNesting ≤ depth then .error (Value.tooDeep maxNesting) else x) := by
  split
  · exact .tooMany (by omega)
  split
  · exact .tooDeep (by omega)
  cases h (by omega) (by omega) with
  | within ha hn hsize hlevels => exact .within ha (by omega) hsize (by omega)
  | tooMany h => exact .tooMany (by omega)
  | tooDeep h => exact .tooDeep (by omega)

theorem mono (h : Ends depth nodes size levels wanted x) {wanted' : α → Prop}
    (hwanted : ∀ a, wanted a → wanted' a) : Ends depth nodes size levels wanted' x := by
  cases h with
  | within ha hn hsize hlevels => exact .within (hwanted _ ha) hn hsize hlevels
  | tooMany h => exact .tooMany h
  | tooDeep h => exact .tooDeep h

/-- What is made of something else. -/
theorem map (h : Ends depth nodes size levels wanted x) {f : α → β}
    (hf : ∀ a, wanted a → wanted' (f a)) :
    Ends depth nodes size levels wanted' (x.map fun x => (f x.1, x.2)) := by
  cases h with
  | within ha hn hsize hlevels => exact .within (hf _ ha) hn hsize hlevels
  | tooMany h => exact .tooMany h
  | tooDeep h => exact .tooDeep h

/-- What follows on something else. -/
theorem bind (h : Ends depth nodes size levels wanted x) {size' levels' : Nat}
    {f : α × Nat → Except ScriptError (β × Nat)} (hf : ∀ a n, wanted a → n ≤ maxJsonNodes →
      Ends depth n size' levels' wanted' (f (a, n))) :
    Ends depth nodes (size + size') (max levels levels') wanted' (x >>= f) := by
  cases h with
  | @within a n ha hn hsize hlevels =>
    have hrest := hf a n ha hsize
    change Ends _ _ _ _ _ (f (a, n))
    generalize f (a, n) = y at hrest ⊢
    cases hrest with
    | within hb hn' hsize hlevels' => exact .within hb (by omega) hsize (by omega)
    | tooMany h => exact .tooMany (by omega)
    | tooDeep h => exact .tooDeep (by omega)
  | tooMany h => exact .tooMany (by omega)
  | tooDeep h => exact .tooDeep (by omega)

end Ends

/-- The trees show the items, behind those that are done. -/
def ShowItems (done : List Json) (items : List Value) (js : List Json) : Prop :=
  ∃ made, js = done.reverse ++ made ∧ List.Forall₂ Shows items made

/-- The trees show the members, behind those that are done. -/
def ShowMembers (done : List (String × Json)) (members : List (String × Value))
    (ms : List (String × Json)) : Prop :=
  ∃ made, ms = done.reverse ++ made ∧ made.map (·.1) = (shownMembers members).map (·.1) ∧
    List.Forall₂ Shows ((shownMembers members).map (·.2)) (made.map (·.2))

theorem jsonNode_array (depth nodes : Nat) (id : Identity) (items : List Value) :
    jsonNode depth nodes (.array id ⟨items⟩) =
      if maxJsonNodes < nodes + 1 then .error tooManyNodes
      else if maxNesting ≤ depth then .error (tooDeep maxNesting)
      else (jsonItems (depth + 1) (nodes + 1) [] items).map fun x => (.array x.1, x.2) := by
  rw [jsonNode]
  cases jsonItems (depth + 1) (nodes + 1) [] items <;> rfl

theorem jsonNode_object (depth nodes : Nat) (id : Identity) (members : List (String × Value)) :
    jsonNode depth nodes (.object id members) =
      if maxJsonNodes < nodes + 1 then .error tooManyNodes
      else if maxNesting ≤ depth then .error (tooDeep maxNesting)
      else (jsonMembers (depth + 1) (nodes + 1) [] members).map fun x => (.object x.1, x.2) := by
  rw [jsonNode]
  cases jsonMembers (depth + 1) (nodes + 1) [] members <;> rfl

theorem jsonItems_cons (depth nodes : Nat) (done : List Json) (v : Value) (rest : List Value) :
    jsonItems depth nodes done (v :: rest) =
      jsonNode depth nodes v >>= fun x => jsonItems depth x.2 (x.1 :: done) rest := by
  rw [jsonItems]
  cases jsonNode depth nodes v <;> rfl

theorem jsonMembers_cons (depth nodes : Nat) (done : List (String × Json)) (key : String) (v : Value)
    (rest : List (String × Value)) :
    jsonMembers depth nodes done ((key, v) :: rest) =
      if v.isOmitted then jsonMembers depth nodes done rest
      else jsonNode depth nodes v >>= fun x => jsonMembers depth x.2 ((key, x.1) :: done) rest := by
  rw [jsonMembers]
  cases jsonNode depth nodes v <;> rfl

mutual

theorem ends_jsonNode (depth nodes : Nat) : ∀ v : Value,
    Ends depth nodes v.jsonSize v.jsonLevels v.Shows (jsonNode depth nodes v)
  | .array id ⟨items⟩ => by
    rw [jsonNode_array, jsonSize, jsonLevels]
    refine .node fun hnodes hdepth => (ends_jsonItems _ _ [] items hnodes hdepth).map ?_
    rintro js ⟨made, rfl, hmade⟩
    exact .array hmade
  | .object id members => by
    rw [jsonNode_object, jsonSize, jsonLevels]
    refine .node fun hnodes hdepth => (ends_jsonMembers _ _ [] members hnodes hdepth).map ?_
    rintro ms ⟨made, rfl, hkeys, hvalues⟩
    exact .object hkeys hvalues
  | .undefined | .null | .closure .. | .native _ => .node (.nothing (.nothing rfl))
  | .bool b => .node (.nothing (.bool b))
  | .number x => .node (.nothing (shows_number x))
  | .string s => .node (.nothing (.string s))
  | .date i => .node (.nothing (.date i))

theorem ends_jsonItems (depth nodes : Nat) (done : List Json) : ∀ items : List Value,
    nodes ≤ maxJsonNodes → depth ≤ maxNesting →
      Ends depth nodes (itemsJsonSize items) (itemsJsonLevels items) (ShowItems done items)
        (jsonItems depth nodes done items)
  | [], hnodes, hdepth => .nothing ⟨[], (List.append_nil _).symm, .nil⟩ hnodes hdepth
  | v :: rest, hnodes, hdepth => by
    rw [jsonItems_cons, itemsJsonSize, itemsJsonLevels]
    refine (ends_jsonNode depth nodes v).bind fun j n hj hn => ?_
    refine (ends_jsonItems depth n (j :: done) rest hn hdepth).mono ?_
    rintro js ⟨made, rfl, hmade⟩
    exact ⟨j :: made, by simp, .cons hj hmade⟩

theorem ends_jsonMembers (depth nodes : Nat) (done : List (String × Json)) :
    ∀ members : List (String × Value), nodes ≤ maxJsonNodes → depth ≤ maxNesting →
      Ends depth nodes (membersJsonSize members) (membersJsonLevels members)
        (ShowMembers done members) (jsonMembers depth nodes done members)
  | [], hnodes, hdepth => .nothing ⟨[], (List.append_nil _).symm, rfl, .nil⟩ hnodes hdepth
  | (key, v) :: rest, hnodes, hdepth => by
    rw [jsonMembers_cons, membersJsonSize, membersJsonLevels]
    cases homitted : v.isOmitted with
    | true =>
      rw [if_pos rfl, if_pos rfl, if_pos rfl, Nat.zero_add, Nat.zero_max]
      refine (ends_jsonMembers depth nodes done rest hnodes hdepth).mono fun ms h => ?_
      rwa [ShowMembers, shownMembers, List.filter_cons_of_neg (by simp [homitted])]
    | false =>
      simp only [Bool.false_eq_true, if_false]
      refine (ends_jsonNode depth nodes v).bind fun j n hj hn => ?_
      refine (ends_jsonMembers depth n ((key, j) :: done) rest hn hdepth).mono ?_
      rintro ms ⟨made, rfl, hkeys, hvalues⟩
      rw [ShowMembers, shownMembers, List.filter_cons_of_pos (by simp [homitted])]
      exact ⟨(key, j) :: made, by simp, congrArg (key :: ·) hkeys, .cons hj hvalues⟩

end

variable {v : Value} {j : Json}

/-- A value is converted exactly if it is within both limits. -/
theorem exists_toJson_iff :
    (∃ j, v.toJson = .ok j) ↔ v.jsonSize ≤ maxJsonNodes ∧ v.jsonLevels ≤ maxNesting := by
  have hends := ends_jsonNode 0 0 v
  unfold toJson
  generalize jsonNode 0 0 v = x at hends
  cases hends with
  | within _ hn hsize hlevels => exact ⟨fun _ => by omega, fun _ => ⟨_, rfl⟩⟩
  | tooMany h => exact ⟨nofun, by omega⟩
  | tooDeep h => exact ⟨nofun, by omega⟩

/-- If a value is not converted, the error tells which limit it is not within. -/
theorem toJson_eq_error {e : ScriptError} (h : v.toJson = .error e) :
    e = tooManyNodes ∧ maxJsonNodes < v.jsonSize ∨
      e = tooDeep maxNesting ∧ maxNesting < v.jsonLevels := by
  have hends := ends_jsonNode 0 0 v
  unfold toJson at h
  generalize jsonNode 0 0 v = x at h hends
  cases hends with
  | within => cases h
  | tooMany hsize =>
    cases h
    exact .inl ⟨rfl, by omega⟩
  | tooDeep hlevels =>
    cases h
    exact .inr ⟨rfl, by omega⟩

/-! ## Data -/

/-- A value of which JSON shows everything. -/
inductive IsData : Value → Prop where
  | null : IsData .null
  | bool (b : Bool) : IsData (.bool b)
  | number {x : Float} (h : Number.isFinite x = true) : IsData (.number x)
  | string (s : String) : IsData (.string s)
  | array {id : Identity} {items : Array Value} (h : ∀ v ∈ items.toList, IsData v) :
    IsData (.array id items)
  | object {id : Identity} {members : List (String × Value)} (h : ∀ p ∈ members, IsData p.2) :
    IsData (.object id members)

/-- The finite numbers in a value are shown by JSON numbers that stand for them, but for the sign of
zero. -/
def KeepsNumbers (v : Value) : Prop :=
  ∀ x : Float, (Value.number x).OccursIn v → Number.isFinite x = true →
    ∃ n, numberJson x = .number n ∧ (jsonNumber n == x) = true

/-- Two values with the same content in the same order.  They may differ in identities and in the
sign of zeros. -/
inductive Alike : Value → Value → Prop where
  | null : Alike .null .null
  | bool (b : Bool) : Alike (.bool b) (.bool b)
  | number {x y : Float} (h : (y == x) = true) : Alike (.number x) (.number y)
  | string (s : String) : Alike (.string s) (.string s)
  | array {id id' : Identity} {items items' : Array Value}
    (h : List.Forall₂ Alike items.toList items'.toList) : Alike (.array id items) (.array id' items')
  | object {id id' : Identity} {members members' : List (String × Value)}
    (keys : members'.map (·.1) = members.map (·.1))
    (values : List.Forall₂ Alike (members.map (·.2)) (members'.map (·.2))) :
    Alike (.object id members) (.object id' members')

theorem IsData.isOmitted (h : v.IsData) : v.isOmitted = false := by
  cases h <;> rfl

theorem shownMembers_of_isData {members : List (String × Value)} (h : ∀ p ∈ members, p.2.IsData) :
    shownMembers members = members :=
  List.filter_eq_self.mpr fun p hp => by rw [(h p hp).isOmitted]; rfl

theorem keepsNumbers_array {id : Identity} {items : List Value} :
    (Value.array id ⟨items⟩).KeepsNumbers ↔ ∀ v ∈ items, v.KeepsNumbers := by
  constructor
  · exact fun h v hv x hx => h x (.item (Array.mem_def.mpr hv) hx)
  · intro h x hx
    cases hx with
    | item hv hx => exact h _ (Array.mem_def.mp hv) x hx

theorem keepsNumbers_object {id : Identity} {members : List (String × Value)} :
    (Value.object id members).KeepsNumbers ↔ ∀ p ∈ members, p.2.KeepsNumbers := by
  constructor
  · exact fun h p hp x hx => h x (.member hp hx)
  · intro h x hx
    cases hx with
    | member hp hx => exact h _ hp x hx

theorem alike_number {x : Float} {j : Json} (next : Identity) (hfinite : Number.isFinite x = true)
    (hnumbers : (Value.number x).KeepsNumbers) (h : (Value.number x).Shows j) :
    (Value.number x).Alike (ofJson next j).1 := by
  obtain ⟨n, hn, hkept⟩ := hnumbers x .self hfinite
  cases h with
  | nothing h => cases h
  | notFinite h => exact absurd (h.symm.trans hfinite) Bool.false_ne_true
  | number _ hn' =>
    cases hn.symm.trans hn'
    exact .number hkept

mutual

theorem alike_ofJson (next : Identity) : ∀ (v : Value) (j : Json), v.IsData → v.KeepsNumbers →
    v.Shows j → v.Alike (ofJson next j).1
  | .null, _, _, _, .nothing _ => .null
  | .bool b, _, _, _, .bool _ => .bool b
  | .string s, _, _, _, .string _ => .string s
  | .number x, _, .number hfinite, hnumbers, hshows => alike_number next hfinite hnumbers hshows
  | .array id ⟨items⟩, _, .array hdata, hnumbers, @Shows.array _ _ js hshows => by
    obtain ⟨values, hvalues, halike⟩ := alike_ofJsonItems (next + 1) #[] items js hdata
      (keepsNumbers_array.mp hnumbers) hshows
    rw [List.nil_append] at hvalues
    rw [ofJson]
    exact .array (hvalues ▸ halike)
  | .object id members, _, .object hdata, hnumbers, @Shows.object _ _ ms hkeys hvalues => by
    rw [shownMembers_of_isData hdata] at hkeys hvalues
    obtain ⟨made, hmade, hkeys', halike⟩ := alike_ofJsonMembers (next + 1) [] members ms hdata
      (keepsNumbers_object.mp hnumbers) hkeys hvalues
    rw [List.reverse_nil, List.nil_append] at hmade
    rw [ofJson]
    exact .object (hmade ▸ hkeys') (hmade ▸ halike)

theorem alike_ofJsonItems (next : Identity) (done : Array Value) :
    ∀ (items : List Value) (js : List Json), (∀ v ∈ items, v.IsData) →
      (∀ v ∈ items, v.KeepsNumbers) → List.Forall₂ Shows items js →
      ∃ values, (ofJsonItems next done js).1.toList = done.toList ++ values ∧
        List.Forall₂ Alike items values
  | [], _, _, _, .nil => ⟨[], by rw [ofJsonItems, List.append_nil], .nil⟩
  | v :: rest, j :: js, hdata, hnumbers, .cons hj hjs => by
    obtain ⟨hv, hdata⟩ := List.forall_mem_cons.mp hdata
    obtain ⟨hkept, hnumbers⟩ := List.forall_mem_cons.mp hnumbers
    obtain ⟨values, hvalues, halike⟩ := alike_ofJsonItems (ofJson next j).2
      (done.push (ofJson next j).1) rest js hdata hnumbers hjs
    refine ⟨(ofJson next j).1 :: values, ?_, .cons (alike_ofJson next v j hv hkept hj) halike⟩
    rw [ofJsonItems, hvalues]
    simp

theorem alike_ofJsonMembers (next : Identity) (done : List (String × Value)) :
    ∀ (members : List (String × Value)) (ms : List (String × Json)), (∀ p ∈ members, p.2.IsData) →
      (∀ p ∈ members, p.2.KeepsNumbers) → ms.map (·.1) = members.map (·.1) →
      List.Forall₂ Shows (members.map (·.2)) (ms.map (·.2)) →
      ∃ made, (ofJsonMembers next done ms).1 = done.reverse ++ made ∧
        made.map (·.1) = members.map (·.1) ∧
        List.Forall₂ Alike (members.map (·.2)) (made.map (·.2))
  | [], [], _, _, _, .nil => ⟨[], by rw [ofJsonMembers, List.append_nil], rfl, .nil⟩
  | (key, v) :: rest, (key', j) :: ms, hdata, hnumbers, hkeys, .cons hj hjs => by
    obtain ⟨hv, hdata⟩ := List.forall_mem_cons.mp hdata
    obtain ⟨hkept, hnumbers⟩ := List.forall_mem_cons.mp hnumbers
    obtain ⟨hkey, hkeys⟩ := List.cons.inj hkeys
    obtain ⟨made, hmade, hkeys', halike⟩ := alike_ofJsonMembers (ofJson next j).2
      ((key', (ofJson next j).1) :: done) rest ms hdata hnumbers hkeys hjs
    refine ⟨(key', (ofJson next j).1) :: made, ?_, ?_, .cons (alike_ofJson next v j hv hkept hj) halike⟩
    · rw [ofJsonMembers, hmade]
      simp
    · rw [List.map_cons, List.map_cons, hkeys']
      exact congrArg (· :: _) hkey

end

end Stencil.Script.Value
