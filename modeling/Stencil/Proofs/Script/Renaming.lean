import Stencil.Proofs.Script.Resemblance

/-! # Renaming identities

`v.rename ρ` is the value `v` with other identities for its containers and its functions, at every
depth; identities of functions of the host stay.  The measurement of heights compares identities,
so two measurements agree where the renaming is injective; the methods that work in place compare
none.  A renaming that leaves the identities below the first one of a run alone leaves the global
objects as they are.
-/
namespace Stencil.Script
open Value (argument)

/-! ## Maps on the values of members -/

section MapMembers
variable {α β : Type} (f : α → β)

/-- Members with a function applied to their values. -/
def mapMembers (members : List (String × α)) : List (String × β) :=
  members.map fun p => (p.1, f p.2)

variable {f}

@[simp]
theorem mapMembers_nil : mapMembers f [] = [] := rfl

@[simp]
theorem mapMembers_cons (p : String × α) (rest : List (String × α)) :
    mapMembers f (p :: rest) = (p.1, f p.2) :: mapMembers f rest := rfl

@[simp]
theorem mapMembers_append (xs ys : List (String × α)) :
    mapMembers f (xs ++ ys) = mapMembers f xs ++ mapMembers f ys := List.map_append

@[simp]
theorem length_mapMembers (members : List (String × α)) :
    (mapMembers f members).length = members.length := List.length_map _

@[simp]
theorem lookup_mapMembers (key : String) (members : List (String × α)) :
    (mapMembers f members).lookup key = (members.lookup key).map f := by
  induction members with
  | nil => rfl
  | cons p rest ih =>
    rw [mapMembers_cons, List.lookup_cons, List.lookup_cons, ih]
    cases key == p.1 <;> rfl

theorem map_snd_mapMembers (members : List (String × α)) :
    (mapMembers f members).map Prod.snd = (members.map Prod.snd).map f := by
  rw [mapMembers, List.map_map, List.map_map]
  rfl

theorem insertMember_mapMembers (key : String) (a : α) (members : List (String × α)) :
    Json.insertMember key (f a) (mapMembers f members) =
      mapMembers f (Json.insertMember key a members) := by
  induction members with
  | nil => rfl
  | cons p rest ih =>
    rw [mapMembers_cons, Json.insertMember, Json.insertMember]
    split
    · rfl
    · rw [ih, mapMembers_cons]

/-- Members put onto others, one after the other. -/
theorem overlay_mapMembers (onto members : List (String × α)) :
    (mapMembers f members).foldl (fun ms p => Json.insertMember p.1 p.2 ms) (mapMembers f onto) =
      mapMembers f (members.foldl (fun ms p => Json.insertMember p.1 p.2 ms) onto) := by
  induction members generalizing onto with
  | nil => rfl
  | cons p rest ih =>
    rw [mapMembers_cons, List.foldl_cons, List.foldl_cons]
    dsimp only
    rw [insertMember_mapMembers, ih]

end MapMembers

/-! ## Values under a renaming -/

section Rename
variable (ρ : Identity → Identity)

mutual

/-- The value with its identities renamed. -/
def Value.rename : Value → Value
  | .array id ⟨items⟩ => .array (ρ id) ⟨Value.renameItems items⟩
  | .object id members => .object (ρ id) (Value.renameMembers members)
  | .closure id f captured siblings =>
    .closure (ρ id) f (Value.renameMembers captured) (Value.renameSiblings siblings)
  | .undefined => .undefined
  | .null => .null
  | .bool b => .bool b
  | .number x => .number x
  | .string s => .string s
  | .date i => .date i
  | .native f => .native f

/-- Items with their identities renamed. -/
def Value.renameItems : List Value → List Value
  | [] => []
  | v :: rest => v.rename :: Value.renameItems rest

/-- Members with their identities renamed. -/
def Value.renameMembers : List (String × Value) → List (String × Value)
  | [] => []
  | (key, v) :: rest => (key, v.rename) :: Value.renameMembers rest

/-- The names of a module with the identities renamed. -/
def Value.renameSiblings : Siblings → Siblings
  | [] => []
  | (name, b) :: rest => (name, b.rename) :: Value.renameSiblings rest

/-- What a name of a module stands for, with the identities renamed. -/
def ModuleBinding.rename : ModuleBinding → ModuleBinding
  | .constant v => .constant v.rename
  | .function f captured => .function f (Value.renameMembers captured)

end

theorem Value.renameItems_eq_map (items : List Value) :
    Value.renameItems ρ items = items.map (Value.rename ρ) := by
  induction items with
  | nil => rfl
  | cons v rest ih => rw [Value.renameItems, ih, List.map_cons]

theorem Value.renameMembers_eq_map (members : List (String × Value)) :
    Value.renameMembers ρ members = mapMembers (Value.rename ρ) members := by
  induction members with
  | nil => rfl
  | cons p rest ih => rw [Value.renameMembers, ih, mapMembers_cons]

theorem Value.renameSiblings_eq_map (siblings : Siblings) :
    Value.renameSiblings ρ siblings = mapMembers (ModuleBinding.rename ρ) siblings := by
  induction siblings with
  | nil => rfl
  | cons p rest ih => rw [Value.renameSiblings, ih, mapMembers_cons]

end Rename

namespace Value
variable {ρ : Identity → Identity}

@[simp]
theorem rename_array (id : Identity) (items : Array Value) :
    (Value.array id items).rename ρ = .array (ρ id) (items.map (rename ρ)) := by
  obtain ⟨items⟩ := items
  simp only [rename, renameItems_eq_map, List.map_toArray]

@[simp]
theorem rename_object (id : Identity) (members : List (String × Value)) :
    (Value.object id members).rename ρ = .object (ρ id) (mapMembers (rename ρ) members) := by
  rw [rename, renameMembers_eq_map]

@[simp]
theorem rename_closure (id : Identity) (f : FunctionDef) (captured : List (String × Value))
    (siblings : Siblings) : (Value.closure id f captured siblings).rename ρ =
      .closure (ρ id) f (mapMembers (rename ρ) captured)
        (mapMembers (ModuleBinding.rename ρ) siblings) := by
  rw [rename, renameMembers_eq_map, renameSiblings_eq_map]

@[simp]
theorem rename_undefined : Value.undefined.rename ρ = .undefined := rfl

@[simp]
theorem rename_null : Value.null.rename ρ = .null := rfl

@[simp]
theorem rename_bool (b : Bool) : (Value.bool b).rename ρ = .bool b := rfl

@[simp]
theorem rename_number (x : Float) : (Value.number x).rename ρ = .number x := rfl

@[simp]
theorem rename_string (s : String) : (Value.string s).rename ρ = .string s := rfl

@[simp]
theorem rename_date (i : Calendar.Instant) : (Value.date i).rename ρ = .date i := rfl

@[simp]
theorem rename_native (f : Native) : (Value.native f).rename ρ = .native f := rfl

/-- A plain value has no identities. -/
theorem rename_plain {v : Value} (h : v.isPlain) : v.rename ρ = v := by
  cases v <;> first | rfl | cases h

theorem map_rename_plain {vs : List Value} (h : ∀ v ∈ vs, v.isPlain) : vs.map (rename ρ) = vs :=
  (List.map_congr_left fun v hv => rename_plain (h v hv)).trans (List.map_id _)

theorem identity?_rename (v : Value) : (v.rename ρ).identity? = v.identity?.map ρ := by
  cases v <;> simp [identity?]

@[simp]
theorem isCallable_rename (v : Value) : (v.rename ρ).isCallable = v.isCallable := by
  cases v <;> simp [isCallable]

end Value

@[simp]
theorem ModuleBinding.rename_constant {ρ : Identity → Identity} (v : Value) :
    (ModuleBinding.constant v).rename ρ = .constant (v.rename ρ) := rfl

@[simp]
theorem ModuleBinding.rename_function {ρ : Identity → Identity} (f : FunctionDef)
    (captured : List (String × Value)) : (ModuleBinding.function f captured).rename ρ =
      .function f (mapMembers (Value.rename ρ) captured) := by
  rw [ModuleBinding.rename, Value.renameMembers_eq_map]

namespace Value
variable {ρ : Identity → Identity}

@[simp]
theorem argument_rename (args : List Value) (i : Nat) :
    argument (args.map (rename ρ)) i = (argument args i).rename ρ := by
  simp only [argument, List.getD_eq_getElem?_getD, List.getElem?_map]
  cases args[i]? <;> rfl

theorem rename_getD (o : Option Value) :
    (o.map (rename ρ)).getD .undefined = (o.getD .undefined).rename ρ := by
  cases o <;> rfl

/-! ## Heights -/

section Injective
variable (hρ : Function.Injective ρ)

/-- Heights that are noted under the identities and under the renamed ones. -/
def SameHeights (ρ : Identity → Identity) (seen seen' : Heights) : Prop :=
  ∀ id : Identity, seen'[ρ id]? = seen[id]?

/-- Measurements that agree, and note the same. -/
def SameMeasure (ρ : Identity → Identity) (x x' : Except ScriptError (Nat × Heights)) : Prop :=
  match x, x' with
  | .ok (h, seen), .ok (h', seen') => h' = h ∧ SameHeights ρ seen seen'
  | .error e, .error e' => e' = e
  | _, _ => False

/-- Two continuations of measurements that agree. -/
theorem SameMeasure.cases {x x' : Except ScriptError (Nat × Heights)} (h : SameMeasure ρ x x') :
    (∃ n seen seen', x = .ok (n, seen) ∧ x' = .ok (n, seen') ∧ SameHeights ρ seen seen') ∨
      ∃ e, x = .error e ∧ x' = .error e := by
  rcases x with e | ⟨n, seen⟩ <;> rcases x' with e' | ⟨n', seen'⟩
  · exact .inr ⟨e, rfl, congrArg _ h⟩
  · exact h.elim
  · exact h.elim
  · obtain ⟨rfl, hseen⟩ := h
    exact .inl ⟨n', seen, seen', rfl, rfl, hseen⟩

theorem sameHeights_empty : SameHeights ρ ∅ ∅ := fun id => by
  rw [Std.HashMap.getElem?_empty, Std.HashMap.getElem?_empty]

include hρ in
theorem SameHeights.insert {seen seen' : Heights} (h : SameHeights ρ seen seen') (id : Identity)
    (n : Nat) : SameHeights ρ (seen.insert id n) (seen'.insert (ρ id) n) := by
  intro id'
  rw [Std.HashMap.getElem?_insert, Std.HashMap.getElem?_insert, h id']
  simp only [beq_iff_eq, hρ.eq_iff]

/-- A container is measured alike if its content is. -/
theorem sameMeasure_container (limit level : Nat) {seen seen' : Heights} {id : Identity}
    (hseen : SameHeights ρ seen seen') {x x' : Except ScriptError (Nat × Heights)}
    (hρ : Function.Injective ρ) (hx : SameMeasure ρ x x') :
    SameMeasure ρ
      (match known limit level seen id with
        | some answer => answer
        | none => x.map (noted id))
      (match known limit level seen' (ρ id) with
        | some answer => answer
        | none => x'.map (noted (ρ id))) := by
  have hknown : known limit level seen' (ρ id) =
      if limit ≤ level then some (.error (tooDeep limit))
      else seen[id]?.map fun h =>
        if limit < level + h then .error (tooDeep limit) else .ok (h, seen') := by
    rw [known, hseen id]
  rw [hknown, known]
  by_cases hlevel : limit ≤ level
  · rw [if_pos hlevel, if_pos hlevel]
    rfl
  rw [if_neg hlevel, if_neg hlevel]
  cases seen[id]? with
  | some h =>
    by_cases hdeep : limit < level + h
    · simp only [Option.map_some, if_pos hdeep]
      rfl
    · simp only [Option.map_some, if_neg hdeep]
      exact ⟨rfl, hseen⟩
  | none =>
    rcases hx.cases with ⟨n, t, t', rfl, rfl, ht⟩ | ⟨e, rfl, rfl⟩
    · exact ⟨rfl, ht.insert hρ id (n + 1)⟩
    · rfl

mutual

theorem measure_rename (hρ : Function.Injective ρ) (limit level : Nat) {seen seen' : Heights}
    (hseen : SameHeights ρ seen seen') : ∀ v : Value,
      SameMeasure ρ (measure limit level seen v) (measure limit level seen' (v.rename ρ))
  | .array id ⟨items⟩ => by
    rw [rename, measure, measure]
    exact sameMeasure_container limit level hseen hρ
      (measureItems_rename hρ limit (level + 1) 0 hseen items)
  | .object id members => by
    rw [rename, measure, measure]
    exact sameMeasure_container limit level hseen hρ
      (measureMembers_rename hρ limit (level + 1) 0 hseen members)
  | .closure id f captured siblings => by
    rw [rename, measure, measure]
    exact sameMeasure_container limit level hseen hρ
      (measureMembers_rename hρ limit (level + 1) 0 hseen captured)
  | .undefined | .null | .bool _ | .number _ | .string _ | .date _ | .native _ => ⟨rfl, hseen⟩

theorem measureItems_rename (hρ : Function.Injective ρ) (limit level highest : Nat)
    {seen seen' : Heights} (hseen : SameHeights ρ seen seen') : ∀ items : List Value,
      SameMeasure ρ (measureItems limit level highest seen items)
        (measureItems limit level highest seen' (renameItems ρ items))
  | [] => ⟨rfl, hseen⟩
  | v :: rest => by
    rw [renameItems, measureItems, measureItems]
    rcases (measure_rename hρ limit level hseen v).cases with ⟨n, t, t', h, h', ht⟩ | ⟨e, h, h'⟩
    · rw [h, h']
      exact measureItems_rename hρ limit level _ ht rest
    · rw [h, h']
      rfl

theorem measureMembers_rename (hρ : Function.Injective ρ) (limit level highest : Nat)
    {seen seen' : Heights} (hseen : SameHeights ρ seen seen') :
    ∀ members : List (String × Value),
      SameMeasure ρ (measureMembers limit level highest seen members)
        (measureMembers limit level highest seen' (renameMembers ρ members))
  | [] => ⟨rfl, hseen⟩
  | (_, v) :: rest => by
    rw [renameMembers, measureMembers, measureMembers]
    rcases (measure_rename hρ limit level hseen v).cases with ⟨n, t, t', h, h', ht⟩ | ⟨e, h, h'⟩
    · rw [h, h']
      exact measureMembers_rename hρ limit level _ ht rest
    · rw [h, h']
      rfl

end

theorem checkHeights_rename (hρ : Function.Injective ρ) (limit level : Nat) (vs : List Value) :
    checkHeights limit level (vs.map (rename ρ)) = checkHeights limit level vs := by
  have h := measureItems_rename hρ limit level 0 sameHeights_empty vs
  rw [renameItems_eq_map] at h
  unfold checkHeights
  rcases h.cases with ⟨n, t, t', h, h', -⟩ | ⟨e, h, h'⟩
  · rw [h, h']
    rfl
  · rw [h, h']

end Injective
end Value

/-! ## Methods that work in place -/

namespace Method
variable {ρ : Identity → Identity}

@[simp]
theorem rename_count (n : Nat) : (count n).rename ρ = count n := rfl

theorem apply_rename (op : InPlace) (args : List Value) (items : Array Value) :
    op.apply (args.map (Value.rename ρ)) (items.map (Value.rename ρ)) =
      Prod.map (Value.rename ρ) (Array.map (Value.rename ρ)) (op.apply args items) := by
  cases op with
  | push =>
    have happend : items.map (Value.rename ρ) ++ args.map (Value.rename ρ) =
        (items ++ args).map (Value.rename ρ) := by
      apply Array.toList_inj.mp
      simp
    simp [InPlace.apply, happend]
  | pop => simp [InPlace.apply, Value.rename_getD]
  | shift => simp [InPlace.apply, Value.rename_getD]
  | unshift => simp [InPlace.apply]

end Method

/-! ## Global names -/

namespace Globals
variable {ρ : Identity → Identity}

theorem rename_members (bs : List Builtin) :
    mapMembers (Value.rename ρ) (bs.map member) = bs.map member := by
  rw [mapMembers, List.map_map]
  rfl

section
variable (hρ : ∀ id < firstIdentity, ρ id = id)
include hρ

theorem rename_object {id : Identity} (hid : id < firstIdentity) (bs : List Builtin) :
    (Value.object id (bs.map member)).rename ρ = .object id (bs.map member) := by
  rw [Value.rename_object, rename_members, hρ id hid]

theorem rename_math : math.rename ρ = math := by
  have hfunctions : mapMembers (Value.rename ρ) (mathFunctions.map fun f => member (.math f)) =
      mathFunctions.map fun f => member (.math f) := by
    rw [mapMembers, List.map_map]
    rfl
  unfold math
  rw [Value.rename_object, hρ 0 (by decide), mapMembers_append, mapMembers_append, rename_members,
    hfunctions]
  rfl

/-- A renaming that leaves the global objects alone leaves the modules alone that `require`
gives. -/
theorem rename_modules : ∀ p ∈ modules, p.2.rename ρ = p.2 := by
  simp only [modules, List.forall_mem_cons]
  exact ⟨rename_math hρ, rename_object hρ (by decide) _, rename_object hρ (by decide) _,
    rename_object hρ (by decide) _, List.forall_mem_nil _⟩

/-- It leaves the global names alone, too. -/
theorem rename_table : ∀ p ∈ table, p.2.rename ρ = p.2 := by
  refine List.forall_mem_append.mpr ⟨?_, fun p hp => ?_⟩
  · simp only [List.forall_mem_cons]
    exact ⟨rename_math hρ, rename_object hρ (by decide) _, rename_object hρ (by decide) _, rfl, rfl,
      rfl, rename_object hρ (by decide) _, rename_object hρ (by decide) _, List.forall_mem_nil _⟩
  · obtain ⟨b, -, rfl⟩ := List.mem_map.mp hp
    rfl

end
end Globals
end Stencil.Script
