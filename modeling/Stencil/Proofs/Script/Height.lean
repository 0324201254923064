import Stencil.Proofs.Script.Content

/-! # Heights and their measurement

A value **occurs in** another one if it is that value itself, or if it stands somewhere in its
items, its members, the locals that it captured or the names of its module (`Value.OccursIn`).  What
bounds the height of a value bounds the heights of its items, members and captured locals; the names
of a module count nothing, so `Value.Bounded` asks for their heights as well, at every place.

`Value.measure` looks at a container only once and then goes by its identity.  It measures what it
should if identities tell heights, that is if some table has the height of every container that
occurs (`Value.Known`).  What passes it then fits below the limit (`Value.checkHeights_cases`).

What is remembered of a container is its height, which is the same wherever it stands, and not the
level that it was found at.  So a second occurrence that stands deeper is checked against the limit
by itself, and what was remembered in earlier measurements (`Value.Remembered`) changes no answer
(`Value.measure_exact`).  Levels count the keys of a path, and heights containers that are in memory
inside each other, so that no sum of the two comes near what a machine word holds.
-/
namespace Stencil.Script

/-- The height of what a name of a module stands for; a function has the height of the closure that
is made of it. -/
def ModuleBinding.height : ModuleBinding → Nat
  | .constant v => v.height
  | .function _ captured => Value.membersHeight captured + 1

namespace Value

/-- The names of the module of a function of a script. -/
def siblings : Value → Siblings
  | .closure _ _ _ siblings => siblings
  | _ => []

/-- The value `u` is the given one or occurs in its content, at any depth. -/
inductive OccursIn (u : Value) : Value → Prop where
  | self : OccursIn u u
  | item {id items v} : v ∈ items → OccursIn u v → OccursIn u (.array id items)
  | member {id members p} : p ∈ members → OccursIn u p.2 → OccursIn u (.object id members)
  | captured {id f captured siblings p} : p ∈ captured → OccursIn u p.2 →
      OccursIn u (.closure id f captured siblings)
  | constant {id f captured siblings name v} : (name, .constant v) ∈ siblings → OccursIn u v →
      OccursIn u (.closure id f captured siblings)
  | function {id f captured siblings name g inner p} : (name, .function g inner) ∈ siblings →
      p ∈ inner → OccursIn u p.2 → OccursIn u (.closure id f captured siblings)

/-! ## Heights of contents -/

@[simp]
theorem height_array (id : Identity) (items : Array Value) :
    (array id items).height = itemsHeight items.toList + 1 := rfl

@[simp]
theorem height_object (id : Identity) (members : List (String × Value)) :
    (object id members).height = membersHeight members + 1 := rfl

@[simp]
theorem height_closure (id : Identity) (f : FunctionDef) (captured : List (String × Value))
    (siblings : Siblings) :
    (closure id f captured siblings).height = membersHeight captured + 1 := rfl

theorem itemsHeight_le {items : List Value} {n : Nat} :
    itemsHeight items ≤ n ↔ ∀ v ∈ items, v.height ≤ n := by
  induction items with
  | nil => simp [itemsHeight]
  | cons v rest ih => rw [itemsHeight, Nat.max_le, ih, List.forall_mem_cons]

theorem membersHeight_eq (members : List (String × Value)) :
    membersHeight members = itemsHeight (members.map (·.2)) := by
  induction members with
  | nil => rfl
  | cons p rest ih => rw [membersHeight, List.map_cons, itemsHeight, ih]

theorem membersHeight_le {members : List (String × Value)} {n : Nat} :
    membersHeight members ≤ n ↔ ∀ p ∈ members, p.2.height ≤ n := by
  rw [membersHeight_eq, itemsHeight_le, List.forall_mem_map]

/-- A value without an identity has no height. -/
theorem height_of_identity?_eq_none {v : Value} (h : v.identity? = none) : v.height = 0 := by
  cases v <;> first | rfl | cases h

/-! ## Tables of heights -/

/-- The table has the height of every container that occurs in the value. -/
def Known (heightOf : Identity → Option Nat) (v : Value) : Prop :=
  ∀ u : Value, u.OccursIn v → ∀ id ∈ u.identity?, heightOf id = some u.height

/-- Nothing that occurs in the value is taller than `bound`, and neither is what the names of
modules there stand for. -/
def Bounded (bound : Nat) (v : Value) : Prop :=
  ∀ u : Value, u.OccursIn v → u.height ≤ bound ∧ ∀ p ∈ u.siblings, p.2.height ≤ bound

end Value

/-- The table has the height of every container in what a name of a module stands for. -/
def ModuleBinding.Known (heightOf : Identity → Option Nat) : ModuleBinding → Prop
  | .constant v => v.Known heightOf
  | .function _ captured => ∀ p ∈ captured, p.2.Known heightOf

/-- What a name of a module stands for is no taller than `bound`, and neither is what occurs in
it. -/
def ModuleBinding.Bounded (bound : Nat) : ModuleBinding → Prop
  | .constant v => v.Bounded bound
  | .function _ captured =>
    Value.membersHeight captured + 1 ≤ bound ∧ ∀ p ∈ captured, p.2.Bounded bound

namespace Value

section Known
variable {heightOf heightOf' : Identity → Option Nat} {v : Value}

theorem Known.mono (h : v.Known heightOf) (hle : ∀ id n, heightOf id = some n →
    heightOf' id = some n) : v.Known heightOf' :=
  fun u hu id hid => hle id _ (h u hu id hid)

theorem Known.height (h : v.Known heightOf) {id : Identity} (hid : id ∈ v.identity?) :
    heightOf id = some v.height :=
  h v .self id hid

/-- Only what has neither an identity nor content occurs in what has none. -/
theorem OccursIn.eq_of_identity? {u : Value} (h : u.OccursIn v) (hv : v.identity? = none) :
    u = v := by
  cases h <;> first | rfl | cases hv

theorem known_of_identity? (h : v.identity? = none) : v.Known heightOf := by
  intro u hu id hid
  rw [hu.eq_of_identity? h, h] at hid
  cases hid

theorem known_array {id : Identity} {items : Array Value} :
    (array id items).Known heightOf ↔
      heightOf id = some (itemsHeight items.toList + 1) ∧ ∀ v ∈ items, v.Known heightOf := by
  refine ⟨fun h => ⟨h _ .self id rfl, fun v hv u hu => h u (.item hv hu)⟩, ?_⟩
  rintro ⟨hid, hitems⟩ u (- | ⟨hv, hu⟩)
  · rintro _ ⟨⟩
    exact hid
  · exact hitems _ hv u hu

theorem known_object {id : Identity} {members : List (String × Value)} :
    (object id members).Known heightOf ↔
      heightOf id = some (membersHeight members + 1) ∧ ∀ p ∈ members, p.2.Known heightOf := by
  refine ⟨fun h => ⟨h _ .self id rfl, fun p hp u hu => h u (.member hp hu)⟩, ?_⟩
  rintro ⟨hid, hmembers⟩ u (- | - | ⟨hp, hu⟩)
  · rintro _ ⟨⟩
    exact hid
  · exact hmembers _ hp u hu

/-- The closure, the locals that it captured and the names of its module. -/
theorem known_closure {id : Identity} {f : FunctionDef} {captured : List (String × Value)}
    {siblings : Siblings} :
    (closure id f captured siblings).Known heightOf ↔
      heightOf id = some (membersHeight captured + 1) ∧ (∀ p ∈ captured, p.2.Known heightOf) ∧
        ∀ p ∈ siblings, p.2.Known heightOf := by
  constructor
  · refine fun h => ⟨h _ .self id rfl, fun p hp u hu => h u (.captured hp hu), ?_⟩
    rintro ⟨name, v | ⟨g, inner⟩⟩ hp
    · exact fun u hu => h u (.constant hp hu)
    · exact fun q hq u hu => h u (.function hp hq hu)
  · rintro ⟨hid, hcaptured, hsiblings⟩ u (- | - | - | ⟨hp, hu⟩ | ⟨hp, hu⟩ | ⟨hp, hq, hu⟩)
    · rintro _ ⟨⟩
      exact hid
    · exact hcaptured _ hp u hu
    · exact hsiblings _ hp u hu
    · exact hsiblings _ hp _ hq u hu

end Known

section Bounded
variable {bound bound' : Nat} {v : Value}

theorem Bounded.mono (h : v.Bounded bound) (hle : bound ≤ bound') : v.Bounded bound' :=
  fun u hu => ⟨Nat.le_trans (h u hu).1 hle, fun p hp => Nat.le_trans ((h u hu).2 p hp) hle⟩

theorem Bounded.height_le (h : v.Bounded bound) : v.height ≤ bound :=
  (h v .self).1

theorem bounded_of_identity? (h : v.identity? = none) : v.Bounded bound := by
  intro u hu
  rw [hu.eq_of_identity? h]
  refine ⟨by rw [height_of_identity?_eq_none h]; exact Nat.zero_le _, ?_⟩
  cases v <;> first | exact List.forall_mem_nil _ | cases h

theorem bounded_array {id : Identity} {items : Array Value} :
    (array id items).Bounded bound ↔
      (array id items).height ≤ bound ∧ ∀ v ∈ items, v.Bounded bound := by
  refine ⟨fun h => ⟨h.height_le, fun v hv u hu => h u (.item hv hu)⟩, ?_⟩
  rintro ⟨hheight, hitems⟩ u (- | ⟨hv, hu⟩)
  · exact ⟨hheight, List.forall_mem_nil _⟩
  · exact hitems _ hv u hu

theorem bounded_object {id : Identity} {members : List (String × Value)} :
    (object id members).Bounded bound ↔
      (object id members).height ≤ bound ∧ ∀ p ∈ members, p.2.Bounded bound := by
  refine ⟨fun h => ⟨h.height_le, fun p hp u hu => h u (.member hp hu)⟩, ?_⟩
  rintro ⟨hheight, hmembers⟩ u (- | - | ⟨hp, hu⟩)
  · exact ⟨hheight, List.forall_mem_nil _⟩
  · exact hmembers _ hp u hu

theorem height_le_of_bounded {b : ModuleBinding} (h : b.Bounded bound) : b.height ≤ bound := by
  cases b with
  | constant v => exact Value.Bounded.height_le h
  | function f captured => exact h.1

theorem bounded_closure {id : Identity} {f : FunctionDef} {captured : List (String × Value)}
    {siblings : Siblings} :
    (closure id f captured siblings).Bounded bound ↔
      (closure id f captured siblings).height ≤ bound ∧ (∀ p ∈ captured, p.2.Bounded bound) ∧
        ∀ p ∈ siblings, p.2.Bounded bound := by
  constructor
  · refine fun h => ⟨h.height_le, fun p hp u hu => h u (.captured hp hu), ?_⟩
    rintro ⟨name, v | ⟨g, inner⟩⟩ hp
    · exact fun u hu => h u (.constant hp hu)
    · exact ⟨(h _ .self).2 _ hp, fun q hq u hu => h u (.function hp hq hu)⟩
  · rintro ⟨hheight, hcaptured, hsiblings⟩ u (- | - | - | ⟨hp, hu⟩ | ⟨hp, hu⟩ | ⟨hp, hq, hu⟩)
    · exact ⟨hheight, fun p hp => height_le_of_bounded (hsiblings p hp)⟩
    · exact hcaptured _ hp u hu
    · exact hsiblings _ hp u hu
    · exact (hsiblings _ hp).2 _ hq u hu

end Bounded

/-! ## What is measured -/

/-- The value fits `level` containers below a binding. -/
def FitsBelow (limit level : Nat) (v : Value) : Prop :=
  v.height = 0 ∨ level + v.height ≤ limit

/-- What has been measured is as the table says. -/
def Noted (heightOf : Identity → Option Nat) (seen : Heights) : Prop :=
  ∀ id n, seen[id]? = some n → heightOf id = some n

/-- A measurement that gives `n` if what is measured fits, and fails otherwise. -/
def Measured (heightOf : Identity → Option Nat) (limit n : Nat) (fits : Prop) :
    Except ScriptError (Nat × Heights) → Prop
  | .ok (h, seen) => h = n ∧ Noted heightOf seen ∧ fits
  | .error e => e = tooDeep limit ∧ ¬ fits

section Measure
variable {heightOf : Identity → Option Nat} {limit level n : Nat} {seen : Heights} {fits : Prop}
  {x : Except ScriptError (Nat × Heights)}

theorem Measured.cases (h : Measured heightOf limit n fits x) :
    (∃ seen, x = .ok (n, seen) ∧ Noted heightOf seen ∧ fits) ∨
      x = .error (tooDeep limit) ∧ ¬ fits := by
  rcases x with e | ⟨h', seen⟩
  · exact .inr ⟨congrArg Except.error h.1, h.2⟩
  · obtain ⟨rfl, hseen, hfits⟩ := h
    exact .inl ⟨seen, rfl, hseen, hfits⟩

theorem Measured.congr {fits' : Prop} (h : Measured heightOf limit n fits x)
    (hfits : fits ↔ fits') : Measured heightOf limit n fits' x :=
  propext hfits ▸ h

theorem noted_empty : Noted heightOf ∅ := fun id n h => by
  rw [Std.HashMap.getElem?_empty] at h
  cases h

theorem Noted.insert (h : Noted heightOf seen) {id : Identity} (hid : heightOf id = some n) :
    Noted heightOf (seen.insert id n) := by
  intro id' n' hn'
  rw [Std.HashMap.getElem?_insert] at hn'
  split at hn'
  · rename_i heq
    rw [← eq_of_beq heq, hid, hn']
  · exact h id' n' hn'

/-- A container that is known is measured if its content is. -/
theorem measured_container (hseen : Noted heightOf seen) {id : Identity}
    (hid : heightOf id = some (n + 1))
    (hx : level < limit → Measured heightOf limit n (level + 1 + n ≤ limit) x) :
    Measured heightOf limit (n + 1) (level + (n + 1) ≤ limit)
      (match known limit level seen id with
        | some answer => answer
        | none => x.map (noted id)) := by
  by_cases hlevel : limit ≤ level
  · rw [known, if_pos hlevel]
    exact ⟨rfl, by omega⟩
  rw [known, if_neg hlevel]
  cases hfound : seen[id]? with
  | some h =>
    obtain rfl : h = n + 1 := Option.some.inj ((hseen id h hfound).symm.trans hid)
    by_cases hdeep : limit < level + (n + 1)
    · simp only [Option.map_some, if_pos hdeep]
      exact ⟨rfl, by omega⟩
    · simp only [Option.map_some, if_neg hdeep]
      exact ⟨rfl, hseen, by omega⟩
  | none =>
    rcases (hx (Nat.lt_of_not_le hlevel)).cases with ⟨seen', rfl, hseen', hfits⟩ | ⟨rfl, hfits⟩
    · exact ⟨rfl, hseen'.insert hid, by omega⟩
    · exact ⟨rfl, by omega⟩

/-- Below the limit all items fit if the tallest does. -/
theorem forall_fitsBelow {items : List Value} (h : level ≤ limit) :
    (∀ v ∈ items, v.FitsBelow limit level) ↔ level + itemsHeight items ≤ limit := by
  rw [show level + itemsHeight items ≤ limit ↔ itemsHeight items ≤ limit - level by omega,
    itemsHeight_le]
  refine forall₂_congr fun v _ => ?_
  unfold FitsBelow
  omega

mutual

/-- A value of which the heights are known is measured. -/
theorem measured_measure (limit level : Nat) {seen : Heights} (hseen : Noted heightOf seen) :
    ∀ v : Value, v.Known heightOf →
      Measured heightOf limit v.height (v.FitsBelow limit level) (measure limit level seen v)
  | .array id ⟨items⟩, h => by
    obtain ⟨hid, hitems⟩ := known_array.mp h
    rw [measure]
    refine (measured_container hseen hid fun hlevel => ?_).congr (by simp [FitsBelow])
    refine Measured.congr ?_ (forall_fitsBelow hlevel)
    have hmeasured := measured_measureItems limit (level + 1) 0 hseen items
      fun v hv => hitems v (List.mem_toArray.mpr hv)
    rwa [Nat.zero_max] at hmeasured
  | .object id members, h => by
    obtain ⟨hid, hmembers⟩ := known_object.mp h
    rw [measure]
    refine (measured_container hseen hid fun hlevel => ?_).congr (by simp [FitsBelow])
    have hmeasured := measured_measureMembers limit (level + 1) 0 hseen members hmembers
    rw [Nat.zero_max] at hmeasured
    rw [membersHeight_eq, ← forall_fitsBelow hlevel, List.forall_mem_map, ← membersHeight_eq]
    exact hmeasured
  | .closure id f captured siblings, h => by
    obtain ⟨hid, hcaptured, -⟩ := known_closure.mp h
    rw [measure]
    refine (measured_container hseen hid fun hlevel => ?_).congr (by simp [FitsBelow])
    have hmeasured := measured_measureMembers limit (level + 1) 0 hseen captured hcaptured
    rw [Nat.zero_max] at hmeasured
    rw [membersHeight_eq, ← forall_fitsBelow hlevel, List.forall_mem_map, ← membersHeight_eq]
    exact hmeasured
  | .undefined, _ | .null, _ | .bool _, _ | .number _, _ | .string _, _ | .date _, _
  | .native _, _ => ⟨rfl, hseen, .inl rfl⟩

theorem measured_measureItems (limit level highest : Nat) {seen : Heights}
    (hseen : Noted heightOf seen) : ∀ items : List Value, (∀ v ∈ items, v.Known heightOf) →
      Measured heightOf limit (max highest (itemsHeight items))
        (∀ v ∈ items, v.FitsBelow limit level) (measureItems limit level highest seen items)
  | [], _ => ⟨by simp [itemsHeight], hseen, List.forall_mem_nil _⟩
  | v :: rest, h => by
    obtain ⟨hv, hrest⟩ := List.forall_mem_cons.mp h
    rw [measureItems, itemsHeight, ← Nat.max_assoc, List.forall_mem_cons]
    rcases (measured_measure limit level hseen v hv).cases with
      ⟨seen', hx, hseen', hfits⟩ | ⟨hx, hfits⟩
    · rw [hx]
      exact (measured_measureItems limit level _ hseen' rest hrest).congr
        (and_iff_right hfits).symm
    · rw [hx]
      exact ⟨rfl, fun hall => hfits hall.1⟩

theorem measured_measureMembers (limit level highest : Nat) {seen : Heights}
    (hseen : Noted heightOf seen) :
    ∀ members : List (String × Value), (∀ p ∈ members, p.2.Known heightOf) →
      Measured heightOf limit (max highest (membersHeight members))
        (∀ p ∈ members, p.2.FitsBelow limit level)
        (measureMembers limit level highest seen members)
  | [], _ => ⟨by simp [membersHeight], hseen, List.forall_mem_nil _⟩
  | (_, v) :: rest, h => by
    obtain ⟨hv, hrest⟩ := List.forall_mem_cons.mp h
    rw [measureMembers, membersHeight, ← Nat.max_assoc, List.forall_mem_cons]
    rcases (measured_measure limit level hseen v hv).cases with
      ⟨seen', hx, hseen', hfits⟩ | ⟨hx, hfits⟩
    · rw [hx]
      exact (measured_measureMembers limit level _ hseen' rest hrest).congr
        (and_iff_right hfits).symm
    · rw [hx]
      exact ⟨rfl, fun hall => hfits hall.1⟩

end

/-- **What is checked**: values of which the heights are known pass exactly if each of them fits,
and are refused as nested too deep otherwise. -/
theorem checkHeights_cases (limit level : Nat) {vs : List Value}
    (h : ∀ v ∈ vs, v.Known heightOf) :
    checkHeights limit level vs = .ok () ∧ (∀ v ∈ vs, v.FitsBelow limit level) ∨
      checkHeights limit level vs = .error (tooDeep limit) ∧
        ¬ ∀ v ∈ vs, v.FitsBelow limit level := by
  unfold checkHeights
  rcases (measured_measureItems limit level 0 noted_empty vs h).cases with
    ⟨seen, hx, -, hfits⟩ | ⟨hx, hfits⟩
  · exact .inl ⟨by rw [hx]; rfl, hfits⟩
  · exact .inr ⟨by rw [hx]; rfl, hfits⟩

end Measure

/-! ## What is remembered -/

section Remembered
variable {limit level : Nat} {v : Value} {vs : List Value} {seen : Heights}

/-- Containers of one identity that occur in the values are equally high.  So they are among values
that are in memory at the same time, where an identity stands for one container. -/
def TellHeights (vs : List Value) : Prop :=
  ∀ v ∈ vs, ∀ w ∈ vs, ∀ a b : Value, a.OccursIn v → b.OccursIn w →
    ∀ id ∈ a.identity?, id ∈ b.identity? → a.height = b.height

/-- What is remembered of the values that have been measured so far, each with a limit and at a
level of its own, the last one first. -/
inductive Remembered : List Value → Heights → Prop where
  | nothing : Remembered [] ∅
  | measured {vs : List Value} {seen seen' : Heights} {v : Value} {limit level height : Nat}
      (before : Remembered vs seen) (success : measure limit level seen v = .ok (height, seen')) :
      Remembered (v :: vs) seen'

/-- Heights are told if some table has them. -/
theorem tellHeights_iff_known :
    TellHeights vs ↔ ∃ heightOf : Identity → Option Nat, ∀ v ∈ vs, v.Known heightOf := by
  classical
  constructor
  · intro h
    -- the height of any container of that identity is the height of all of them
    let occurs (id : Identity) (a : Value) : Prop := ∃ v ∈ vs, a.OccursIn v ∧ a.identity? = some id
    refine ⟨fun id => if hid : ∃ a, occurs id a then some hid.choose.height else none, ?_⟩
    intro v hv a ha id hid
    have hoccurs : ∃ a, occurs id a := ⟨a, v, hv, ha, hid⟩
    obtain ⟨w, hw, hb, hid'⟩ := hoccurs.choose_spec
    change dite _ _ _ = _
    rw [dif_pos hoccurs, h w hw v hv _ a hb ha id hid' hid]
  · rintro ⟨heightOf, h⟩ v hv w hw a b ha hb id hid hid'
    exact Option.some.inj ((h v hv a ha id hid).symm.trans (h w hw b hb id hid'))

/-- Only containers are high. -/
theorem height_eq_zero_iff : v.height = 0 ↔ v.identity? = none := by
  refine ⟨fun h => ?_, height_of_identity?_eq_none⟩
  cases v <;> first | rfl | cases h

theorem fitsBelow_iff : v.FitsBelow limit level ↔ v.identity? = none ∨ level + v.height ≤ limit := by
  rw [FitsBelow, height_eq_zero_iff]

/-- What is remembered of values are heights that a table has, if it has the heights in them. -/
theorem Remembered.noted (h : Remembered vs seen) {heightOf : Identity → Option Nat}
    (hknown : ∀ v ∈ vs, v.Known heightOf) : Noted heightOf seen := by
  induction h with
  | nothing => exact noted_empty
  | @measured vs seen seen' v limit level height before success ih =>
    obtain ⟨hv, hvs⟩ := List.forall_mem_cons.mp hknown
    have hmeasured := measured_measure limit level (ih hvs) v hv
    rw [success] at hmeasured
    exact hmeasured.2.1

/-- **Measuring is exact**, with nothing or with anything remembered of values that were measured
before: a value is measured if and only if it is no container or its height, counted from the level
where it stands, is within the limit; what is found is its height, and what is remembered then can
be used again.  Every other value is refused as nested too deep. -/
theorem measure_exact (hseen : Remembered vs seen) (htell : TellHeights (v :: vs))
    (limit level : Nat) :
    let fits := v.identity? = none ∨ level + v.height ≤ limit
    ((∃ seen', measure limit level seen v = .ok (v.height, seen') ∧ Remembered (v :: vs) seen') ↔
      fits) ∧
    (measure limit level seen v = .error (tooDeep limit) ↔ ¬ fits) := by
  intro fits
  obtain ⟨heightOf, hknown⟩ := tellHeights_iff_known.mp htell
  obtain ⟨hv, hvs⟩ := List.forall_mem_cons.mp hknown
  have hmeasured : Measured heightOf limit v.height fits (measure limit level seen v) :=
    (measured_measure limit level (hseen.noted hvs) v hv).congr fitsBelow_iff
  rcases hmeasured.cases with ⟨seen', hok, -, hfits⟩ | ⟨herror, hfits⟩
  · refine ⟨iff_of_true ⟨seen', hok, hseen.measured hok⟩ hfits, iff_of_false ?_ (not_not_intro hfits)⟩
    rw [hok]
    nofun
  · refine ⟨iff_of_false ?_ hfits, iff_of_true herror hfits⟩
    rintro ⟨seen', hok, -⟩
    rw [herror] at hok
    cases hok

/-- An array that stands twice in another one, the second time one level deeper. -/
def twiceNested : Value :=
  .array 6 #[nestedLeaf, .array 8 #[nestedLeaf]]
where
  /-- The array that is shared. -/
  nestedLeaf : Value := .array 7 #[.array 9 #[]]

/-- Once the shared array has been measured, the array that holds it twice is still refused for the
deeper one of its two places, and measured if that one is within the limit. -/
theorem measure_exact_twiceNested : ∃ seen, Remembered [twiceNested.nestedLeaf] seen ∧
    (∃ seen', measure 3 1 seen twiceNested.nestedLeaf = .ok (2, seen')) ∧
    measure 3 0 seen twiceNested = .error (tooDeep 3) ∧
    ∃ seen', measure 4 0 seen twiceNested = .ok (4, seen') := by
  let heightOf (id : Identity) : Option Nat :=
    if id = 6 then some 4 else if id = 7 then some 2 else if id = 8 then some 3 else some 1
  have hleaf : twiceNested.nestedLeaf.Known heightOf := by
    simp [twiceNested.nestedLeaf, known_array, heightOf, itemsHeight, height]
  have htwice : twiceNested.Known heightOf := by
    refine known_array.mpr ⟨rfl, ?_⟩
    have hinner : (array 8 #[twiceNested.nestedLeaf]).Known heightOf :=
      known_array.mpr ⟨rfl, by simpa using hleaf⟩
    simpa using ⟨hleaf, hinner⟩
  have tell {vs : List Value} (h : ∀ v ∈ vs, v.Known heightOf) : TellHeights vs :=
    tellHeights_iff_known.mpr ⟨heightOf, h⟩
  obtain ⟨seen, -, hseen⟩ := (measure_exact (v := twiceNested.nestedLeaf) .nothing
    (tell (by simpa using hleaf)) 3 1).1.mpr (.inr (by decide))
  have hagain := measure_exact (v := twiceNested.nestedLeaf) hseen (tell (by simpa using hleaf)) 3 1
  have hexact := measure_exact hseen (tell (by simpa using ⟨htwice, hleaf⟩))
  obtain ⟨seen₁, h₁, -⟩ := hagain.1.mpr (.inr (by decide))
  obtain ⟨seen₂, h₂, -⟩ := (hexact 4 0).1.mpr (.inr (by decide))
  exact ⟨seen, hseen, ⟨seen₁, h₁⟩, (hexact 3 0).2.mpr (by decide), ⟨seen₂, h₂⟩⟩

end Remembered
end Value
end Stencil.Script
