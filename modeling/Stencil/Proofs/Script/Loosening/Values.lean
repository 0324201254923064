import Stencil.Proofs.Script.Slots

/-! # Values whose functions are defined in another way

Two values are **redefined** into each other if they are the same but for the definitions of the
functions in them (`Value.Redefined`).  If definitions that may take each other's places have the
same names and parameters, scripts cannot tell the values apart (`Value.Redefined.resemblance`), and
as the values have the same shape and identities, they are nested to the same depth
(`Value.checkHeights_redefined`).
-/
namespace Stencil.Script

/-- Which definitions of functions may take the places of which others: at least each its own, and
none that scripts could tell from it. -/
structure Redefinition where
  Defines : FunctionDef → FunctionDef → Prop
  refl : ∀ f, Defines f f
  name : ∀ {f f'}, Defines f f' → f'.name = f.name
  params : ∀ {f f'}, Defines f f' → f'.params = f.params
  isArrow : ∀ {f f'}, Defines f f' → f'.isArrow = f.isArrow

section
variable (D : Redefinition)

mutual

/-- The values are the same but for the definitions of functions. -/
def Value.Redefined : Value → Value → Prop
  | .array id ⟨items⟩, v' => ∃ items', v' = .array id ⟨items'⟩ ∧ Value.ItemsRedefined items items'
  | .object id members, v' => ∃ members', v' = .object id members' ∧
    Value.MembersRedefined members members'
  | .closure id f captured siblings, v' => ∃ f' captured', v' = .closure id f' captured' siblings ∧
    D.Defines f f' ∧ Value.MembersRedefined captured captured'
  | v, v' => v' = v

/-- The items are the same one by one but for the definitions of functions. -/
def Value.ItemsRedefined : List Value → List Value → Prop
  | [], items' => items' = []
  | v :: rest, items' => ∃ v' rest', items' = v' :: rest' ∧ Value.Redefined v v' ∧
    Value.ItemsRedefined rest rest'

/-- The members are the same one by one but for the definitions of functions. -/
def Value.MembersRedefined : List (String × Value) → List (String × Value) → Prop
  | [], members' => members' = []
  | (key, v) :: rest, members' => ∃ v' rest', members' = (key, v') :: rest' ∧ Value.Redefined v v' ∧
    Value.MembersRedefined rest rest'

end

end

namespace Value
variable {D : Redefinition}

theorem itemsRedefined_iff {items items' : List Value} :
    ItemsRedefined D items items' ↔ List.Forall₂ (Redefined D) items items' := by
  induction items generalizing items' with
  | nil =>
    rw [ItemsRedefined]
    exact List.forall₂_nil_left_iff.symm
  | cons v rest ih =>
    rw [ItemsRedefined, List.forall₂_cons_left_iff]
    constructor
    · rintro ⟨v', rest', rfl, hv, hrest⟩
      exact ⟨v', rest', hv, ih.mp hrest, rfl⟩
    · rintro ⟨v', rest', hv, hrest, rfl⟩
      exact ⟨v', rest', rfl, hv, ih.mpr hrest⟩

theorem membersRedefined_iff {members members' : List (String × Value)} :
    MembersRedefined D members members' ↔ SameMembers (Redefined D) members members' := by
  induction members generalizing members' with
  | nil =>
    rw [MembersRedefined]
    exact List.forall₂_nil_left_iff.symm
  | cons p rest ih =>
    obtain ⟨key, v⟩ := p
    rw [MembersRedefined, SameMembers, List.forall₂_cons_left_iff]
    constructor
    · rintro ⟨v', rest', rfl, hv, hrest⟩
      exact ⟨(key, v'), rest', ⟨rfl, hv⟩, ih.mp hrest, rfl⟩
    · rintro ⟨⟨key', v'⟩, rest', ⟨rfl, hv⟩, hrest, rfl⟩
      exact ⟨v', rest', rfl, hv, ih.mpr hrest⟩

namespace Redefined
variable {v v' : Value}

theorem ofItems {id : Identity} {items items' : Array Value}
    (h : List.Forall₂ (Redefined D) items.toList items'.toList) :
    Redefined D (.array id items) (.array id items') :=
  ⟨items'.toList, rfl, itemsRedefined_iff.mpr h⟩

theorem ofMembers {id : Identity} {members members' : List (String × Value)}
    (h : SameMembers (Redefined D) members members') :
    Redefined D (.object id members) (.object id members') :=
  ⟨members', rfl, membersRedefined_iff.mpr h⟩

theorem ofClosure {id : Identity} {f f' : FunctionDef} {captured captured' : List (String × Value)}
    {siblings : Siblings} (hf : D.Defines f f')
    (hcaptured : SameMembers (Redefined D) captured captured') :
    Redefined D (.closure id f captured siblings) (.closure id f' captured' siblings) :=
  ⟨f', captured', rfl, hf, membersRedefined_iff.mpr hcaptured⟩

theorem encloses (id : Identity) : Encloses (Redefined D) id id where
  array := ofItems
  object := ofMembers

/-- What it says of functions that they are redefined. -/
structure Closures (D : Redefinition) (id id' : Identity) (f f' : FunctionDef)
    (captured captured' : List (String × Value)) (siblings siblings' : Siblings) : Prop where
  identity : id' = id
  defines : D.Defines f f'
  captured : SameMembers (Redefined D) captured captured'
  siblings : siblings' = siblings

theorem closures {id id' : Identity} {f f' : FunctionDef}
    {captured captured' : List (String × Value)} {siblings siblings' : Siblings}
    (h : Redefined D (.closure id f captured siblings) (.closure id' f' captured' siblings')) :
    Closures D id id' f f' captured captured' siblings siblings' := by
  obtain ⟨g, taken, heq, hg, htaken⟩ := h
  cases heq
  exact ⟨rfl, hg, membersRedefined_iff.mp htaken, rfl⟩

mutual

theorem refl (D : Redefinition) : ∀ v : Value, Redefined D v v
  | .array _ ⟨items⟩ => ⟨items, rfl, items_refl D items⟩
  | .object _ members => ⟨members, rfl, members_refl D members⟩
  | .closure _ f captured _ => ⟨f, captured, rfl, D.refl f, members_refl D captured⟩
  | .undefined | .null | .bool _ | .number _ | .string _ | .date _ | .native _ => rfl

theorem items_refl (D : Redefinition) : ∀ items : List Value, ItemsRedefined D items items
  | [] => rfl
  | v :: rest => ⟨v, rest, rfl, refl D v, items_refl D rest⟩

theorem members_refl (D : Redefinition) :
    ∀ members : List (String × Value), MembersRedefined D members members
  | [] => rfl
  | (_, v) :: rest => ⟨v, rest, rfl, refl D v, members_refl D rest⟩

end

theorem sameMembers_refl (members : List (String × Value)) :
    SameMembers (Redefined D) members members :=
  membersRedefined_iff.mp (members_refl D members)

theorem identity? (h : Redefined D v v') : v'.identity? = v.identity? := by
  cases v with
  | array id items =>
    obtain ⟨items', rfl, -⟩ := h
    rfl
  | object id members =>
    obtain ⟨members', rfl, -⟩ := h
    rfl
  | closure id f captured siblings =>
    obtain ⟨f', captured', rfl, -⟩ := h
    rfl
  | _ =>
    obtain rfl := h
    rfl

theorem looks (h : Redefined D v v') : v.Looks (Redefined D) v' := by
  cases v with
  | array id items =>
    obtain ⟨items', rfl, hitems⟩ := h
    exact .array (itemsRedefined_iff.mp hitems)
  | object id members =>
    obtain ⟨members', rfl, hmembers⟩ := h
    exact .object (membersRedefined_iff.mp hmembers)
  | closure id f captured siblings =>
    obtain ⟨f', captured', rfl, hf, -⟩ := h
    exact .closure (D.name hf) (D.params hf)
  | native f =>
    obtain rfl := h
    exact .native f
  | _ =>
    obtain rfl := h
    exact .plain rfl

/-- Scripts cannot tell values apart that are the same but for the definitions of functions. -/
theorem resemblance (D : Redefinition) : Resemblance (Redefined D) where
  looks := looks
  plain _ := refl D _
  identity := by
    intro v v' u u' a a' b b' hv hu ha ha' hb hb'
    rw [hv.identity?, ha] at ha'
    rw [hu.identity?, hb] at hb'
    cases ha'
    cases hb'
    rfl

end Redefined

/-! ## Heights -/

section
variable {limit : Nat}

mutual

/-- Values that are the same but for the definitions of functions are measured alike. -/
theorem measure_redefined {level : Nat} {seen : Heights} :
    ∀ v v' : Value, Redefined D v v' → measure limit level seen v' = measure limit level seen v
  | .array id ⟨items⟩, _, ⟨items', rfl, hitems⟩ => by
    rw [measure, measure]
    simp only [measureItems_redefined items items' hitems]
  | .object id members, _, ⟨members', rfl, hmembers⟩ => by
    rw [measure, measure]
    simp only [measureMembers_redefined members members' hmembers]
  | .closure id f captured siblings, _, ⟨f', captured', rfl, hf, hcaptured⟩ => by
    rw [measure, measure]
    simp only [measureMembers_redefined captured captured' hcaptured]
  | .undefined, _, h | .null, _, h | .bool _, _, h | .number _, _, h | .string _, _, h
  | .date _, _, h | .native _, _, h => by
    obtain rfl := h
    rfl

theorem measureItems_redefined {level highest : Nat} {seen : Heights} :
    ∀ items items' : List Value, ItemsRedefined D items items' →
      measureItems limit level highest seen items' = measureItems limit level highest seen items
  | [], _, h => by
    obtain rfl := h
    rfl
  | v :: rest, _, ⟨v', rest', rfl, hv, hrest⟩ => by
    rw [measureItems, measureItems, measure_redefined v v' hv]
    simp only [measureItems_redefined rest rest' hrest]

theorem measureMembers_redefined {level highest : Nat} {seen : Heights} :
    ∀ members members' : List (String × Value), MembersRedefined D members members' →
      measureMembers limit level highest seen members' =
        measureMembers limit level highest seen members
  | [], _, h => by
    obtain rfl := h
    rfl
  | (key, v) :: rest, _, ⟨v', rest', rfl, hv, hrest⟩ => by
    rw [measureMembers, measureMembers, measure_redefined v v' hv]
    simp only [measureMembers_redefined rest rest' hrest]

end

theorem checkHeights_redefined {level : Nat} {vs vs' : List Value}
    (h : List.Forall₂ (Redefined D) vs vs') :
    checkHeights limit level vs' = checkHeights limit level vs := by
  unfold checkHeights
  rw [measureItems_redefined vs vs' (itemsRedefined_iff.mpr h)]

end

end Value
end Stencil.Script
