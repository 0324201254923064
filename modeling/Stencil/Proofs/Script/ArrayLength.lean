import Stencil.Proofs.Script.Height
import Stencil.Proofs.Script.Holding
import Stencil.Proofs.Script.Steps

/-! # The limit on the length of arrays

**An array that is made anew, and one that a method changes in place, obeys the limit; one that is
written past its end does not** (`array_limit`).

Literals, most methods of arrays and texts and most built-in functions make their arrays with
`newArray`, which fails if there are too many items.  Not so the built-in function `words`,
`JSON.parse` and the method `keys` of arrays, which make theirs as long as it comes.  The methods
that change an array in place fail if it becomes too long, and leave `undefined` in its place.

A write to an index looks at the gap alone: it fails beyond `maxGap` items past the end and otherwise
makes the array as long as the index asks for, whatever the limit.  So a program can end with an
array that is longer than the limit (`program_past_limit`).

If items are written neither by a program nor by functions that it can get hold of, its run leaves no
arrays beyond the limit but those that `words` and `keys` make, and those that come from outside, be
it from a JSON text (`Context.Admits`).  That is a holding (`Holding.admitting`), so evaluations keep
it.
-/
namespace Stencil.Script

/-! ## Writing an item -/

section Update
variable {α : Type}

/-- The array is filled up to the index, so that the step is run on the item there, and what the
step leaves is put back. -/
theorem onItem_eq (i : Nat) (step : SlotStep α) (items : Array Value) :
    let filled := items ++ Array.replicate (i + 1 - items.size) Value.undefined
    let (r, v) := step (items[i]?.getD .undefined)
    onItem i step items = (r, filled.setIfInBounds i v) := by
  have hfilled : i < (items ++ Array.replicate (i + 1 - items.size) Value.undefined).size := by
    rw [Array.size_append, Array.size_replicate]
    omega
  have hitem : (items ++ Array.replicate (i + 1 - items.size) Value.undefined)[i] =
      items[i]?.getD .undefined := by
    rw [Array.getElem_append]
    split
    · rename_i hi
      simp [hi]
    · rename_i hi
      simp [Array.getElem?_eq_none (Nat.le_of_not_lt hi)]
  unfold onItem
  simp only [dif_pos hfilled, hitem]
  refine Prod.ext rfl (Array.ext_getElem? fun j => ?_)
  simp only [Array.getElem?_setIfInBounds, Array.getElem?_set, Array.size_set]
  split <;> rfl

/-- A write to an index makes the array as long as the index asks for. -/
theorem size_onItem (i : Nat) (step : SlotStep α) (items : Array Value) :
    (onItem i step items).2.size = max items.size (i + 1) := by
  rw [onItem_eq]
  simp only [Array.size_setIfInBounds, Array.size_append, Array.size_replicate]
  omega

theorem fst_onItem (i : Nat) (step : SlotStep α) (items : Array Value) :
    (onItem i step items).1 = (step (items[i]?.getD .undefined)).1 := by
  rw [onItem_eq]

/-- The step works on the innermost binding of the name, and changes no other one. -/
theorem onBinding_split (step : SlotStep α) {name : String} {frames : List Frame} {b : Binding}
    (h : findBinding? name frames = some b) :
    ∃ inner front rest outer, frames = inner ++ (front ++ (name, b) :: rest) :: outer ∧
      onBinding name step frames = (some (step b.value).1,
        inner ++ (front ++ (name, { b with value := (step b.value).2 }) :: rest) :: outer) ∧
      ∀ b', findBinding? name (inner ++ (front ++ (name, b') :: rest) :: outer) = some b' := by
  have hframe : ∀ frame : Frame,
      (frame.lookup name = none → onBinding.inFrame name step frame = (none, frame)) ∧
      ∀ b, frame.lookup name = some b → ∃ front rest, frame = front ++ (name, b) :: rest ∧
        onBinding.inFrame name step frame = (some (step b.value).1,
          front ++ (name, { b with value := (step b.value).2 }) :: rest) ∧
        ∀ b' : Binding, (front ++ (name, b') :: rest).lookup name = some b' := by
    intro frame
    induction frame with
    | nil => exact ⟨fun _ => rfl, fun _ h => absurd h (by simp)⟩
    | cons p frame ih =>
      obtain ⟨key, b⟩ := p
      unfold onBinding.inFrame
      rw [List.lookup_cons]
      by_cases hkey : key = name
      · subst hkey
        rw [if_pos rfl, BEq.rfl]
        refine ⟨fun h => absurd h (by simp), fun b' hb => ?_⟩
        obtain rfl := Option.some.inj hb
        exact ⟨[], frame, rfl, rfl, fun b' => List.lookup_cons_self⟩
      · have hne : (name == key) = false := beq_false_of_ne (Ne.symm hkey)
        rw [if_neg hkey, hne]
        refine ⟨fun h => by rw [ih.1 h], fun b' hb => ?_⟩
        obtain ⟨front, rest, rfl, hin, hafter⟩ := ih.2 b' hb
        refine ⟨(key, b) :: front, rest, rfl, by rw [hin]; rfl, fun b' => ?_⟩
        rw [List.cons_append, List.lookup_cons, hne]
        exact hafter b'
  induction frames with
  | nil => cases h
  | cons frame frames ih =>
    unfold findBinding? at h
    rw [List.findSome?_cons] at h
    unfold onBinding
    cases hlookup : frame.lookup name with
    | none =>
      rw [hlookup] at h
      rw [(hframe frame).1 hlookup]
      obtain ⟨inner, front, rest, outer, rfl, hon, hafter⟩ := ih h
      refine ⟨frame :: inner, front, rest, outer, rfl, by rw [hon]; rfl, fun b' => ?_⟩
      rw [List.cons_append, findBinding?, List.findSome?_cons, hlookup]
      exact hafter b'
    | some b' =>
      rw [hlookup] at h
      obtain rfl := Option.some.inj h
      obtain ⟨front, rest, rfl, hin, hafter⟩ := (hframe frame).2 b' hlookup
      refine ⟨[], front, rest, frames, rfl, by rw [hin]; rfl, fun b => ?_⟩
      rw [List.nil_append, findBinding?, List.findSome?_cons, hafter b]

/-- What a step on the value of a bound name answers, and what the name stands for afterwards. -/
theorem onBinding_of_findBinding? (step : SlotStep α) {name : String} {frames : List Frame}
    {b : Binding} (h : findBinding? name frames = some b) :
    (onBinding name step frames).1 = some (step b.value).1 ∧
      findBinding? name (onBinding name step frames).2 =
        some { b with value := (step b.value).2 } := by
  obtain ⟨inner, front, rest, outer, -, hon, hafter⟩ := onBinding_split step h
  rw [hon]
  exact ⟨rfl, hafter _⟩

end Update

/-! ## The arrays in values -/

/-- The items of every array that occurs in the value have the property. -/
def Value.ArraysIn (A : Array Value → Prop) (v : Value) : Prop :=
  ∀ id items, (Value.array id items).OccursIn v → A items

/-- So have those in what a name of a module stands for. -/
def ModuleBinding.ArraysIn (A : Array Value → Prop) : ModuleBinding → Prop
  | .constant v => v.ArraysIn A
  | .function _ captured => ∀ p ∈ captured, p.2.ArraysIn A

section Arrays
variable {A A' : Array Value → Prop}

namespace Value

theorem arraysIn_array {id : Identity} {items : Array Value} :
    (array id items).ArraysIn A ↔ A items ∧ ∀ v ∈ items, v.ArraysIn A := by
  constructor
  · exact fun h => ⟨h id items .self, fun v hv id' items' hoccurs => h id' items' (.item hv hoccurs)⟩
  · rintro ⟨hitems, h⟩ id' items' hoccurs
    cases hoccurs with
    | self => exact hitems
    | item hv hoccurs => exact h _ hv id' items' hoccurs

theorem arraysIn_object {id : Identity} {members : List (String × Value)} :
    (object id members).ArraysIn A ↔ ∀ p ∈ members, p.2.ArraysIn A := by
  constructor
  · exact fun h p hp id' items hoccurs => h id' items (.member hp hoccurs)
  · intro h id' items hoccurs
    cases hoccurs with
    | member hp hoccurs => exact h _ hp id' items hoccurs

theorem arraysIn_closure {id : Identity} {f : FunctionDef} {captured : List (String × Value)}
    {siblings : Siblings} : (closure id f captured siblings).ArraysIn A ↔
      (∀ p ∈ captured, p.2.ArraysIn A) ∧ ∀ p ∈ siblings, p.2.ArraysIn A := by
  constructor
  · refine fun h => ⟨fun p hp id' items hoccurs => h id' items (.captured hp hoccurs), ?_⟩
    rintro ⟨name, b⟩ hb
    cases b with
    | constant v => exact fun id' items hoccurs => h id' items (.constant hb hoccurs)
    | function g inner => exact fun p hp id' items hoccurs => h id' items (.function hb hp hoccurs)
  · rintro ⟨hcaptured, hsiblings⟩ id' items hoccurs
    cases hoccurs with
    | captured hp hoccurs => exact hcaptured _ hp id' items hoccurs
    | constant hb hoccurs => exact hsiblings _ hb id' items hoccurs
    | function hb hp hoccurs => exact hsiblings _ hb _ hp id' items hoccurs

theorem arraysIn_plain {v : Value} (h : v.isPlain) : v.ArraysIn A := by
  intro id items hoccurs
  cases hoccurs <;> cases h

theorem arraysIn_native {f : Native} : (native f).ArraysIn A := nofun

theorem ArraysIn.mono {v : Value} (h : v.ArraysIn A) (hA : ∀ items, A items → A' items) :
    v.ArraysIn A' :=
  fun id items hoccurs => hA items (h id items hoccurs)

end Value

theorem ModuleBinding.ArraysIn.mono {b : ModuleBinding} (h : b.ArraysIn A)
    (hA : ∀ items, A items → A' items) : b.ArraysIn A' := by
  cases b with
  | constant v => exact Value.ArraysIn.mono h hA
  | function f captured => exact fun p hp => (h p hp).mono hA

/-- There are no arrays in the modules that `require` gives. -/
theorem Globals.arraysIn_modules : ∀ p ∈ modules, p.2.ArraysIn A := by
  have hobject : ∀ (id : Identity) (bs : List Builtin),
      (Value.object id (bs.map member)).ArraysIn A := fun id bs => by
    refine Value.arraysIn_object.mpr (List.forall_mem_map.mpr fun b _ => ?_)
    exact Value.arraysIn_native
  have hmath : math.ArraysIn A := by
    refine Value.arraysIn_object.mpr fun p hp => ?_
    rcases List.mem_append.mp hp with hp | hp
    · rcases List.mem_append.mp hp with hp | hp
      · simp only [mathConstants, List.mem_cons, List.not_mem_nil, or_false] at hp
        rcases hp with rfl | rfl | rfl | rfl | rfl <;> exact Value.arraysIn_plain rfl
      · obtain ⟨f, -, rfl⟩ := List.mem_map.mp hp
        exact Value.arraysIn_native
    · obtain ⟨b, -, rfl⟩ := List.mem_map.mp hp
      exact Value.arraysIn_native
  simp only [modules, List.forall_mem_cons]
  exact ⟨hmath, hobject _ _, hobject _ _, hobject _ _, List.forall_mem_nil _⟩

end Arrays

/-! ## Runs that write no items -/

/-- The keys that are no indices. -/
def Number.NoIndex (key : String) : Prop :=
  Number.index? key = none

/-- Neither the function nor one that is written in it writes items: no member is written under an
index, nor under a key that is not known before it is evaluated. -/
def FunctionDef.SparesItems (f : FunctionDef) : Prop :=
  ∀ g ∈ f.functions, ∀ d ∈ g.parts, d.WritesAmong Number.NoIndex

theorem FunctionDef.SparesItems.inner {f g : FunctionDef} (h : f.SparesItems)
    (hg : g ∈ f.body.functions) : g.SparesItems := by
  obtain ⟨name, params, body, arrow⟩ := f
  have hmem : g ∈ (mk name params body arrow).functions := List.mem_cons_of_mem _ hg
  intro k hk
  obtain ⟨name', params', body', arrow'⟩ := g
  rcases List.mem_cons.mp hk with rfl | hk
  · exact h _ hmem
  · exact h k (functions_trans hk _ hmem)

/-- Neither the statements nor functions that are written in them write items. -/
structure Stmt.SpareItems (body : List Stmt) : Prop where
  functions : ∀ f ∈ Stmt.functionsOf body, f.SparesItems
  parts : ∀ d ∈ Stmt.partsOf body, d.WritesAmong Number.NoIndex

/-- An array obeys the limit, or is a pair; or it lists words or places; or it stands in a value that
was received or that the context gives. -/
def Context.Admits (c : Context) (received : List Value) (items : Array Value) : Prop :=
  items.size ≤ max c.limits.arrayLength 2 ∨ Value.Listed items ∨
    ∃ v, (v ∈ received ∨ ∃ name, c.scope.lookup? name = some v) ∧
      ∃ id, (Value.array id items).OccursIn v

theorem Context.Admits.mono {c : Context} {w w' : List Value} (hle : w ⊆ w') {items : Array Value}
    (h : c.Admits w items) : c.Admits w' items :=
  h.imp id (Or.imp id fun ⟨v, hv, hitems⟩ => ⟨v, hv.imp (@hle v) id, hitems⟩)

/-- **Values whose arrays obey the limit with these exceptions** may be held, if their functions write
no items. -/
def Holding.admitting (c : Context) : Holding where
  Fits w v := v.Within FunctionDef.SparesItems (fun _ => True) ∧ v.ArraysIn (c.Admits w)
  Binds w b := b.Within FunctionDef.SparesItems (fun _ => True) ∧ b.ArraysIn (c.Admits w)
  Arrays := c.Admits
  Keys _ _ := True
  definitions := FunctionDef.SparesItems
  writable := Number.NoIndex
  mono hle h := ⟨h.1, h.2.mono fun _ => Context.Admits.mono hle⟩
  bindsMono hle h := ⟨h.1, h.2.mono fun _ => Context.Admits.mono hle⟩
  keysMono _ h := h
  plain h := ⟨Value.within_plain h, Value.arraysIn_plain h⟩
  native := ⟨Value.within_native.mpr trivial, Value.arraysIn_native⟩
  array := by
    intro w id items
    rw [Value.within_array, Value.arraysIn_array]
    exact ⟨fun h => ⟨h.2.1, fun v hv => ⟨h.1 v hv, h.2.2 v hv⟩⟩,
      fun h => ⟨fun v hv => (h.2 v hv).1, h.1, fun v hv => (h.2 v hv).2⟩⟩
  object := by
    intro w id members
    rw [Value.within_object, Value.arraysIn_object]
    exact ⟨fun h p hp => ⟨trivial, h.1 p hp, h.2 p hp⟩,
      fun h => ⟨fun p hp => (h p hp).2.1, fun p hp => (h p hp).2.2⟩⟩
  closure := by
    intro w id f captured siblings
    rw [Value.within_closure, Value.arraysIn_closure]
    exact ⟨fun h => ⟨h.1.1, fun p hp => ⟨h.1.2.1 p hp, h.2.1 p hp⟩,
        fun p hp => ⟨h.1.2.2 p hp, h.2.2 p hp⟩⟩,
      fun h => ⟨⟨h.1, fun p hp => (h.2.1 p hp).1, fun p hp => (h.2.2 p hp).1⟩,
        fun p hp => (h.2.1 p hp).2, fun p hp => (h.2.2 p hp).2⟩⟩
  constant := Iff.rfl
  function := by
    intro w f captured
    rw [ModuleBinding.within_function]
    exact ⟨fun h => ⟨h.1.1, fun p hp => ⟨h.1.2 p hp, h.2 p hp⟩⟩,
      fun h => ⟨⟨h.1, fun p hp => (h.2 p hp).1⟩, fun p hp => (h.2 p hp).2⟩⟩

theorem Holding.admitting_suits {c : Context}
    (hc : c.Within FunctionDef.SparesItems fun _ => True) : (Holding.admitting c).Suits c where
  scope hv := ⟨within_scope (fun _ => trivial) hc hv, fun id _ hoccurs =>
    .inr (.inr ⟨_, .inr ⟨_, hv⟩, id, hoccurs⟩)⟩
  modules p hp := ⟨Globals.within_modules (fun _ => trivial) p hp, Globals.arraysIn_modules p hp⟩
  parsed _ := ⟨Value.within_ofJson _ _, fun id _ hoccurs =>
    .inr (.inr ⟨_, .inl List.mem_cons_self, id, hoccurs⟩)⟩
  answers {_ name args v} hanswer hargs :=
    ⟨hc.natives 0 name 0 args v trivial (fun a ha => (hargs a ha).1) hanswer,
      fun id _ hoccurs => .inr (.inr ⟨v, .inl List.mem_cons_self, id, hoccurs⟩)⟩
  made h := .inl (Nat.le_trans h (Nat.le_max_left _ _))
  pair _ _ := .inl (Nat.le_max_right _ _)
  listed h := .inr (.inl h)
  grown hkey hi := nomatch hi.symm.trans hkey
  allowed _ := trivial
  inner _ hf _ := hf.inner
  writes f hf := f.parts_body ▸ hf f f.mem_functions

namespace Eval
variable (c : Context) (m : Machine)

/-! ## Arrays that are written -/

/-- A write to an index of an array that a local name stands for. -/
theorem outcome_assign_index {x key : String} {i : Nat} {b : Binding} {id : Identity}
    {items : Array Value} {v : Value} (hb : findBinding? x m.current.frames = some b)
    (harray : b.value = .array id items) (hi : Number.index? key = some i)
    (hv : Value.checkHeights c.limits.valueDepth 1 [v] = .ok ()) :
    let after := (assign ⟨x, [key]⟩ v).outcome c m
    (items.size + maxGap < i → after.1 = .error invalidLength) ∧
    (i ≤ items.size + maxGap → after.1 = .ok () ∧
      ∃ items',
        findBinding? x after.2.current.frames = some { b with value := .array m.next items' } ∧
        items'.size = max items.size (i + 1)) := by
  have hwritable : (checkWritable ⟨x, [key]⟩).outcome c m = (.ok (), m) := by
    simp [checkWritable, outcome_bind, hb]
  unfold assign onPlace
  simp only [outcome_bind, outcome_limits, hwritable, outcome_modifyGet, List.length_singleton,
    hv, Nat.one_ne_zero, if_false]
  obtain ⟨hanswer, hafter⟩ :=
    onBinding_of_findBinding? (onPath (fun _ => (.ok (), v)) m.next [key]) hb
  rw [harray] at hanswer hafter
  rw [hanswer]
  simp only [onPath, hi] at hafter ⊢
  constructor
  · intro hgap
    rw [if_pos hgap]
    rfl
  · intro hgap
    have hle : ¬ items.size + maxGap < i := Nat.not_lt.mpr hgap
    rw [if_neg hle] at hafter ⊢
    simp only [outcome_ofExcept]
    exact ⟨fst_onItem i _ items, _, hafter, size_onItem i _ items⟩

/-! ## Arrays that runs leave -/

section Admitted
variable {c} (hc : c.Within FunctionDef.SparesItems fun _ => True) (next : Identity)
  {body : List Stmt} (hbody : Stmt.SpareItems body)
include hc hbody

theorem admitted_program :
    let ran := (program body).outcome c { next }
    let Admitted := Value.ArraysIn (c.Admits ran.2.received)
    (∀ v ∈ ran.2.values, Admitted v) ∧ ∀ v, ran.1 = .ok v → Admitted v := by
  intro ran Admitted
  obtain ⟨w, -, ⟨hreceived, hm⟩, hv⟩ := Retains.program (Holding.admitting_suits hc)
    body hbody.functions hbody.parts { next } ⟨rfl, Machine.conforms_new next⟩
  obtain rfl : ran.2.received = w := hreceived
  exact ⟨fun v h => (hm.values v h).2, fun v h => (hv v h).2⟩

theorem admitted_module :
    let ran := (module body).outcome c { next }
    let Admitted := Value.ArraysIn (c.Admits ran.2.received)
    (∀ v ∈ ran.2.values, Admitted v) ∧
      ∀ out, ran.1 = .ok out → ∀ p ∈ out.bindings ++ out.exports, Admitted p.2 := by
  intro ran Admitted
  obtain ⟨w, -, ⟨hreceived, hm⟩, hout⟩ := Retains.module (Holding.admitting_suits hc)
    body hbody.functions hbody.parts { next } ⟨rfl, Machine.conforms_new next⟩
  obtain rfl : ran.2.received = w := hreceived
  refine ⟨fun v h => (hm.values v h).2, fun out h => ?_⟩
  obtain ⟨hbindings, hexports⟩ := hout out h
  exact List.forall_mem_append.mpr
    ⟨fun p hp => (hbindings p hp).2, fun p hp => (hexports p hp).2⟩

end Admitted

/-! ## The main result -/

/-- **Which arrays obey the limit.**  A new array is made only if its items are within the limit,
and otherwise the step fails at once; a method that changes an array in place does the same.  A
write to an index of an array that a local name stands for fails only if the index is more than
`maxGap` beyond the end, and otherwise makes the array as long as the index asks for, whatever the
limit.

If items are written neither by what is run nor by functions that it is given, a program and a module
leave no arrays beyond the limit, and answer with none, but for pairs, for arrays that list words or
places, and for those that came from outside. -/
theorem array_limit (c : Context) (m : Machine) :
    (∀ items, c.limits.arrayLength < items.size →
      ((newArray items).outcome c m).1 = .error invalidLength) ∧
    (∀ items v, ((newArray items).outcome c m).1 = .ok v →
      v = .array m.next items ∧ items.size ≤ c.limits.arrayLength) ∧
    (∀ op args id v, (Method.InPlace.onSlot op args id c.limits.arrayLength v).2 = .undefined ∨
      ∃ items, (Method.InPlace.onSlot op args id c.limits.arrayLength v).2 = .array id items ∧
        items.size ≤ c.limits.arrayLength) ∧
    (∀ op args id old items, c.limits.arrayLength < (Method.InPlace.apply op args items).2.size →
      Method.InPlace.onSlot op args id c.limits.arrayLength (.array old items) =
        (.error invalidLength, .undefined)) ∧
    (∀ x key i b id items v, findBinding? x m.current.frames = some b →
      b.value = .array id items → Number.index? key = some i →
      Value.checkHeights c.limits.valueDepth 1 [v] = .ok () →
      let after := (assign ⟨x, [key]⟩ v).outcome c m
      (items.size + maxGap < i → after.1 = .error invalidLength) ∧
      (i ≤ items.size + maxGap → after.1 = .ok () ∧ ∃ items',
        findBinding? x after.2.current.frames = some { b with value := .array m.next items' } ∧
          items'.size = max items.size (i + 1))) ∧
    (c.Within FunctionDef.SparesItems (fun _ => True) → ∀ next body, Stmt.SpareItems body →
      (let ran := (program body).outcome c { next }
        let Admitted := Value.ArraysIn (c.Admits ran.2.received)
        (∀ v ∈ ran.2.values, Admitted v) ∧ ∀ v, ran.1 = .ok v → Admitted v) ∧
      (let ran := (module body).outcome c { next }
        let Admitted := Value.ArraysIn (c.Admits ran.2.received)
        (∀ v ∈ ran.2.values, Admitted v) ∧
          ∀ out, ran.1 = .ok out → ∀ p ∈ out.bindings ++ out.exports, Admitted p.2)) := by
  refine ⟨?_, ?_, ?_, ?_, fun x key i b id items v => outcome_assign_index c m, ?_⟩
  · intro items hlong
    rw [outcome_newArray, if_pos hlong]
  · intro items v hv
    rw [outcome_newArray] at hv
    split at hv
    · cases hv
    · rename_i hlong
      split at hv
      · cases hv
      · cases hcheck : Value.checkHeights c.limits.valueDepth 1 items.toList with
        | error e =>
          rw [hcheck] at hv
          cases hv
        | ok u =>
          rw [hcheck] at hv
          exact ⟨(Except.ok.inj hv).symm, Nat.le_of_not_lt hlong⟩
  · intro op args id v
    unfold Method.InPlace.onSlot
    split
    · dsimp only
      split
      · exact .inl rfl
      · rename_i hlong
        exact .inr ⟨_, rfl, Nat.le_of_not_lt hlong⟩
    · exact .inl rfl
  · intro op args id old items hlong
    simp only [Method.InPlace.onSlot, if_pos hlong]
  · intro hc next body hbody
    exact ⟨admitted_program hc next hbody, admitted_module hc next hbody⟩

/-- The program `let a = [1]; a.push(2); require("strings").words("a b c d")`, which writes no
items. -/
def listWords : List Stmt :=
  let strings := Expr.call (.name "require") [.string "strings"] false
  [.decl .letDecl [("a", some (.array [.number 1]))],
    .expr (.call (.member (.name "a") (.string "push") false) [.number 2] false),
    .expr (.call (.member strings (.string "words") false) [.string "a b c d"] false)]

/-- An empty array becomes six items long under a limit of three, when an item is written.  A program
that writes none ends with four words, which are listed, and with no other array beyond the limit. -/
theorem array_limit_passed :
    let c : Context := { limits := { arrayLength := 3 }, budget := { limit := 5000 } }
    let m : Machine := { current := ⟨[[("a", ⟨.array 6 #[], false⟩)]], [], []⟩, next := 7 }
    let after := (assign ⟨"a", ["5"]⟩ (.number 1)).outcome c m
    (after.1 = .ok () ∧ ∃ items, findBinding? "a" after.2.current.frames =
      some ⟨.array 7 items, false⟩ ∧ c.limits.arrayLength < items.size) ∧
    let ran := (program listWords).outcome c { next := 6 }
    (ran.1.toOption.map fun v => v.items?.map Array.size) = some (some 4) ∧
      (∀ v ∈ ran.2.values, v.ArraysIn (c.Admits ran.2.received)) ∧
      ∀ v, ran.1 = .ok v → v.ArraysIn (c.Admits ran.2.received) := by
  intro c m after
  obtain ⟨-, -, -, -, hindex, hrun⟩ := array_limit c m
  obtain ⟨hok, items, hbound, hsize⟩ :=
    (hindex "a" "5" 5 _ 6 #[] (.number 1) rfl rfl (by decide) rfl).2 (by decide)
  have hc : c.Within FunctionDef.SparesItems fun _ => True :=
    { helpers := List.forall_mem_nil _
      vars := List.forall_mem_nil _
      capabilities := List.forall_mem_nil _
      natives := fun _ _ _ _ v _ _ hv => Except.ok.inj hv ▸ Value.within_undefined }
  have hbody : Stmt.SpareItems listWords :=
    { functions := List.forall_mem_nil _
      parts := by
        simp [listWords, Stmt.partsOf, Stmt.parts, Stmt.partsOfDeclarators, Expr.partsOf?,
          Expr.parts, Expr.partsOf, Expr.WritesAmong, Expr.KeysAmong] }
  obtain ⟨hprogram, -⟩ := hrun hc 6 listWords hbody
  exact ⟨⟨hok, items, hbound, by rw [hsize]; decide⟩, by decide +kernel, hprogram⟩

/-- The program `let a = []; a["5"] = 1; a`. -/
def writePastEnd : List Stmt :=
  [.decl .letDecl [("a", some (.array []))],
    .expr (.assign .assign (.member (.name "a") (.string "5") false) (.number 1)),
    .expr (.name "a")]

/-- So a program ends with an array that is longer than the limit. -/
theorem program_past_limit :
    let c : Context := { limits := { arrayLength := 3 }, budget := { limit := 5000 } }
    ((runProgram c 6 writePastEnd).1.map fun v => v.items?.map Array.size) = .ok (some 6) :=
  rfl

end Eval
end Stencil.Script
