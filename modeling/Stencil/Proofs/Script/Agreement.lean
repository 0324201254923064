import Stencil.Proofs.Script.LexicalCalls
import Stencil.Proofs.Script.Rearrangement
import Stencil.Proofs.Script.Resemblance

/-! # Values that agree

Two values **agree** if scripts cannot tell them apart and go on to do the same with them
(`Value.Agrees`): they are the same but for identities, which are joined by a relation; for the
definitions of functions, in which lists of statements may be rearranged; and for what functions took
with them without ever mentioning it.  A relation that joins identities one to one makes this a
resemblance (`Value.Agrees.resemblance`).

Names may be required to be **bound**: functions that agree then have a value for each of these that
they mention.
-/
namespace Stencil.Script

/-- The function has a value for the name wherever it is called: it took one with it, or the name is
its own. -/
def FunctionDef.Finds (f : FunctionDef) (captured : List (String × Value)) (x : String) : Prop :=
  (captured.lookup x).isSome ∨ (f.name = some x ∧ f.isArrow = false)

/-- The values are the same but for identities and for what functions do not mention, and functions
find the bound names that they mention. -/
inductive Value.Agrees (bound : String → Prop) (joined : Identity → Identity → Prop) :
    Value → Value → Prop
  | plain {v : Value} (h : v.isPlain) : Agrees bound joined v v
  | native (f : Native) : Agrees bound joined (.native f) (.native f)
  | array {id id' : Identity} {items items' : Array Value} (hid : joined id id')
    (hlength : items.toList.length = items'.toList.length)
    (hitems : ∀ v v', (v, v') ∈ items.toList.zip items'.toList → Agrees bound joined v v') :
    Agrees bound joined (.array id items) (.array id' items')
  | object {id id' : Identity} {members members' : List (String × Value)} (hid : joined id id')
    (hlength : members.length = members'.length)
    (hkeys : ∀ p p', (p, p') ∈ members.zip members' → p'.1 = p.1)
    (hvalues : ∀ p p', (p, p') ∈ members.zip members' → Agrees bound joined p.2 p'.2) :
    Agrees bound joined (.object id members) (.object id' members')
  | closure {id id' : Identity} {f f' : FunctionDef} {captured captured' : List (String × Value)}
    {siblings : Siblings} (hid : joined id id') (hf : f.Rearranged f')
    (hfinds : ∀ x ∈ f.names, bound x → f.Finds captured x)
    (hpresent : ∀ x ∈ f.names, (captured'.lookup x).isSome = (captured.lookup x).isSome)
    (hcaptured : ∀ x ∈ f.names, ∀ v v', captured.lookup x = some v → captured'.lookup x = some v' →
      Agrees bound joined v v')
    (hconstants : ∀ x v, siblings.lookup x = some (.constant v) → Agrees bound joined v v)
    (hsiblings : ∀ x g taken, siblings.lookup x = some (.function g taken) →
      ∀ y ∈ g.names, bound y → g.Finds taken y)
    (htaken : ∀ x g taken, siblings.lookup x = some (.function g taken) →
      ∀ y v, taken.lookup y = some v → Agrees bound joined v v) :
    Agrees bound joined (.closure id f captured siblings) (.closure id' f' captured' siblings)

/-- What a name of a module stands for agrees with itself. -/
def ModuleBinding.Agrees (bound : String → Prop) (joined : Identity → Identity → Prop) :
    ModuleBinding → Prop
  | .constant v => v.Agrees bound joined v
  | .function g taken => (∀ y ∈ g.names, bound y → g.Finds taken y) ∧
    ∀ y v, taken.lookup y = some v → v.Agrees bound joined v

/-- What the names of a module stand for agrees with itself. -/
def Siblings.Agree (bound : String → Prop) (joined : Identity → Identity → Prop)
    (siblings : Siblings) : Prop :=
  ∀ x b, siblings.lookup x = some b → b.Agrees bound joined

namespace Value.Agrees
variable {bound : String → Prop} {I J : Identity → Identity → Prop} {v v' : Value}

theorem mono (hIJ : ∀ a a', I a a' → J a a') (h : v.Agrees bound I v') : v.Agrees bound J v' := by
  induction h with
  | plain h => exact .plain h
  | native f => exact .native f
  | array hid hlength _ ih => exact .array (hIJ _ _ hid) hlength ih
  | object hid hlength hkeys _ ih => exact .object (hIJ _ _ hid) hlength hkeys ih
  | closure hid hf hfinds hpresent _ _ hsiblings _ ihcaptured ihconstants ihtaken =>
    exact .closure (hIJ _ _ hid) hf hfinds hpresent ihcaptured ihconstants hsiblings ihtaken

/-! ### Containers and functions -/

theorem ofItems {id id' : Identity} {items items' : Array Value} (hid : I id id')
    (h : List.Forall₂ (Value.Agrees bound I) items.toList items'.toList) :
    (Value.array id items).Agrees bound I (.array id' items') :=
  .array hid h.length_eq fun _ _ hv => (List.forall₂_iff_zip.mp h).2 hv

theorem ofMembers {id id' : Identity} {members members' : List (String × Value)} (hid : I id id')
    (h : SameMembers (Value.Agrees bound I) members members') :
    (Value.object id members).Agrees bound I (.object id' members') :=
  .object hid h.length_eq (fun _ _ hp => ((List.forall₂_iff_zip.mp h).2 hp).1)
    fun _ _ hp => ((List.forall₂_iff_zip.mp h).2 hp).2

theorem ofClosure {id id' : Identity} {f f' : FunctionDef} {captured captured' : List (String × Value)}
    {siblings : Siblings} (hid : I id id') (hf : f.Rearranged f')
    (hfinds : ∀ x ∈ f.names, bound x → f.Finds captured x)
    (hcaptured : ∀ x ∈ f.names,
      Option.Rel (Value.Agrees bound I) (captured.lookup x) (captured'.lookup x))
    (hsiblings : siblings.Agree bound I) :
    (Value.closure id f captured siblings).Agrees bound I (.closure id' f' captured' siblings) := by
  refine .closure hid hf hfinds (fun x hx => isSome_eq_of_rel (hcaptured x hx)) ?_
    (fun x v => hsiblings x (.constant v)) (fun x g taken hg => (hsiblings x _ hg).1)
    fun x g taken hg => (hsiblings x _ hg).2
  intro x hx v v' hv hv'
  have hrel := hcaptured x hx
  rw [hv, hv'] at hrel
  cases hrel with
  | some h => exact h

/-- What it says that functions agree. -/
structure Closures (bound : String → Prop) (I : Identity → Identity → Prop) (id id' : Identity)
    (f f' : FunctionDef) (captured captured' : List (String × Value))
    (siblings siblings' : Siblings) : Prop where
  joined : I id id'
  rearranged : f.Rearranged f'
  finds : ∀ x ∈ f.names, bound x → f.Finds captured x
  captured : ∀ x ∈ f.names,
    Option.Rel (Value.Agrees bound I) (captured.lookup x) (captured'.lookup x)
  same : siblings' = siblings
  siblings : siblings.Agree bound I

theorem closures {id id' : Identity} {f f' : FunctionDef} {captured captured' : List (String × Value)}
    {siblings siblings' : Siblings}
    (h : (Value.closure id f captured siblings).Agrees bound I
      (.closure id' f' captured' siblings')) :
    Closures bound I id id' f f' captured captured' siblings siblings' := by
  cases h with
  | plain h => cases h
  | closure hid hf hfinds hpresent hcaptured hconstants hsiblings htaken =>
    refine ⟨hid, hf, hfinds, fun x hx => ?_, rfl, ?_⟩
    case refine_2 =>
      rintro x (v | ⟨g, taken⟩) hb
      · exact hconstants x v hb
      · exact ⟨hsiblings x g taken hb, htaken x g taken hb⟩
    have hsome := hpresent x hx
    have hagree := hcaptured x hx
    generalize captured.lookup x = o at hsome hagree
    generalize captured'.lookup x = o' at hsome hagree
    cases o with
    | none =>
      obtain rfl := Option.not_isSome_iff_eq_none.mp (Bool.eq_false_iff.mp hsome)
      exact .none
    | some v =>
      obtain ⟨v', rfl⟩ := Option.isSome_iff_exists.mp hsome
      exact .some (hagree v v' rfl rfl)

theorem looks (h : v.Agrees bound I v') : v.Looks (Value.Agrees bound I) v' := by
  cases h with
  | plain h => exact .plain h
  | native f => exact .native f
  | array _ hlength hitems => exact .array (List.forall₂_iff_zip.mpr ⟨hlength, hitems _ _⟩)
  | object _ hlength hkeys hvalues =>
    exact .object (List.forall₂_iff_zip.mpr ⟨hlength, fun hp => ⟨hkeys _ _ hp, hvalues _ _ hp⟩⟩)
  | closure _ hf => exact .closure hf.name hf.params

/-- Identities of values that agree are joined. -/
theorem joined (h : v.Agrees bound I v') {a a' : Identity} (ha : v.identity? = some a)
    (ha' : v'.identity? = some a') : I a a' := by
  cases h with
  | plain h => cases v <;> first | (cases ha; done) | cases h
  | native => cases ha
  | array hid | object hid | closure hid =>
    cases ha
    cases ha'
    exact hid

/-- Scripts cannot tell values apart that agree. -/
theorem resemblance (hI : ∀ a a' b b', I a a' → I b b' → (a' = b' ↔ a = b)) :
    Resemblance (Value.Agrees bound I) where
  looks := looks
  plain := .plain
  identity h hu ha ha' hb hb' := hI _ _ _ _ (h.joined ha ha') (hu.joined hb hb')

end Value.Agrees

theorem Siblings.Agree.mono {bound : String → Prop} {I J : Identity → Identity → Prop}
    {siblings : Siblings} (hIJ : ∀ a a', I a a' → J a a') (h : siblings.Agree bound I) :
    siblings.Agree bound J := by
  rintro x (v | ⟨g, taken⟩) hb
  · exact Value.Agrees.mono hIJ (h x _ hb)
  · obtain ⟨hfinds, htaken⟩ := h x _ hb
    exact ⟨hfinds, fun y v hv => (htaken y v hv).mono hIJ⟩

theorem Siblings.Agree.cons {bound : String → Prop} {I : Identity → Identity → Prop}
    {siblings : Siblings} {p : String × ModuleBinding} (h : siblings.Agree bound I)
    (hp : p.2.Agrees bound I) : Siblings.Agree bound I (p :: siblings) := by
  intro x b hb
  rw [List.lookup_cons] at hb
  split at hb
  · exact Option.some.inj hb ▸ hp
  · exact h x b hb

/-! ### Values that are older than a run -/

/-- No identity in the value is as late as the bound, and its functions are among the given ones. -/
structure Value.IsKnown (base : Identity) (D : FunctionDef → Prop) (v : Value) : Prop where
  older : v.IsOlder base
  within : v.Within D fun _ => True

section
variable {bound : String → Prop} {I : Identity → Identity → Prop} {ρ : Identity → Identity}
  {D : FunctionDef → Prop} {N : Native → Prop}

mutual

/-- A value that a renaming leaves alone agrees with itself if what the renaming leaves alone is joined
with itself and no function mentions a bound name. -/
theorem Value.agrees_of_rename (hρ : ∀ id, ρ id = id → I id id)
    (hD : ∀ f, D f → ∀ x ∈ f.names, ¬ bound x) :
    ∀ v : Value, v.rename ρ = v → v.Within D N → v.Agrees bound I v
  | .array id ⟨items⟩, h, hv => by
    obtain ⟨hid, hitems⟩ := Value.array.inj h
    have hagree := Value.itemsAgree_of_rename hρ hD items (Array.mk.inj hitems) hv
    exact .ofItems (hρ id hid) (List.forall₂_same.mpr hagree)
  | .object id members, h, hv => by
    obtain ⟨hid, hmembers⟩ := Value.object.inj h
    have hagree := Value.membersAgree_of_rename hρ hD members hmembers hv
    exact .ofMembers (hρ id hid) (List.forall₂_same.mpr fun p hp => ⟨rfl, hagree p hp⟩)
  | .closure id f captured siblings, h, ⟨hf, hcaptured, hsiblings⟩ => by
    obtain ⟨hid, -, hrename, hrename'⟩ := Value.closure.inj h
    have hagree := Value.membersAgree_of_rename hρ hD captured hrename hcaptured
    refine .ofClosure (hρ id hid) (.refl f) (fun x hx hbound => (hD f hf x hx hbound).elim)
      (fun x _ => ?_) (Value.siblingsAgree_of_rename hρ hD siblings hrename' hsiblings)
    cases hlookup : captured.lookup x with
    | none => exact .none
    | some v => exact .some (hagree (x, v) (mem_of_lookup hlookup))
  | .native f, _, _ => .native f
  | .undefined, _, _ | .null, _, _ | .bool _, _, _ | .number _, _, _ | .string _, _, _
  | .date _, _, _ => .plain rfl

theorem Value.itemsAgree_of_rename (hρ : ∀ id, ρ id = id → I id id)
    (hD : ∀ f, D f → ∀ x ∈ f.names, ¬ bound x) :
    ∀ items : List Value, Value.renameItems ρ items = items → Value.ItemsWithin D N items →
      ∀ v ∈ items, v.Agrees bound I v
  | [], _, _ => List.forall_mem_nil _
  | v :: rest, h, ⟨hv, hrest⟩ => by
    obtain ⟨hhead, htail⟩ := List.cons.inj h
    exact List.forall_mem_cons.mpr ⟨v.agrees_of_rename hρ hD hhead hv,
      Value.itemsAgree_of_rename hρ hD rest htail hrest⟩

theorem Value.membersAgree_of_rename (hρ : ∀ id, ρ id = id → I id id)
    (hD : ∀ f, D f → ∀ x ∈ f.names, ¬ bound x) :
    ∀ members : List (String × Value), Value.renameMembers ρ members = members →
      Value.MembersWithin D N members → ∀ p ∈ members, p.2.Agrees bound I p.2
  | [], _, _ => List.forall_mem_nil _
  | (key, v) :: rest, h, ⟨hv, hrest⟩ => by
    obtain ⟨hhead, htail⟩ := List.cons.inj h
    exact List.forall_mem_cons.mpr ⟨v.agrees_of_rename hρ hD (Prod.mk.inj hhead).2 hv,
      Value.membersAgree_of_rename hρ hD rest htail hrest⟩

theorem Value.siblingsAgree_of_rename (hρ : ∀ id, ρ id = id → I id id)
    (hD : ∀ f, D f → ∀ x ∈ f.names, ¬ bound x) :
    ∀ siblings : Siblings, Value.renameSiblings ρ siblings = siblings →
      Value.SiblingsWithin D N siblings → siblings.Agree bound I
  | [], _, _ => fun _ _ h => nomatch h
  | (name, b) :: rest, h, ⟨hb, hrest⟩ => by
    obtain ⟨hhead, htail⟩ := List.cons.inj h
    exact (Value.siblingsAgree_of_rename hρ hD rest htail hrest).cons
      (b.agrees_of_rename hρ hD (Prod.mk.inj hhead).2 hb)

theorem ModuleBinding.agrees_of_rename (hρ : ∀ id, ρ id = id → I id id)
    (hD : ∀ f, D f → ∀ x ∈ f.names, ¬ bound x) :
    ∀ b : ModuleBinding, b.rename ρ = b → b.Within D N → b.Agrees bound I
  | .constant v, h, hv => v.agrees_of_rename hρ hD (ModuleBinding.constant.inj h) hv
  | .function g taken, h, ⟨hg, htaken⟩ =>
    ⟨fun y hy hbound => (hD g hg y hy hbound).elim, fun y v hv =>
      Value.membersAgree_of_rename hρ hD taken (ModuleBinding.function.inj h).2 htaken (y, v)
        (mem_of_lookup hv)⟩

end

end

/-- What the host may rely on: related are known values to themselves, and older containers whose
contents are related. -/
structure Covers (base : Identity) (D : FunctionDef → Prop) (R : Value → Value → Prop) : Prop where
  known : ∀ v, v.IsKnown base D → R v v
  array : ∀ id < base, ∀ items items' : Array Value, List.Forall₂ R items.toList items'.toList →
    R (.array id items) (.array id items')
  object : ∀ id < base, ∀ members members', SameMembers R members members' →
    R (.object id members) (.object id members')

/-- What names stand for is older than a run and made of the given functions, and the host does not
look at what scripts cannot see: to arguments that are related it gives answers that are. -/
structure Context.IsUniform (base : Identity) (D : FunctionDef → Prop) (c : Context) : Prop where
  scope : ∀ name v, c.scope.lookup? name = some v → v.IsKnown base D
  natives : ∀ R, Resemblance R → Covers base D R → ∀ name args args', List.Forall₂ R args args' →
    (∃ v v', c.host.natives name args = .ok v ∧ c.host.natives name args' = .ok v' ∧ R v v') ∨
      ∃ message, c.host.natives name args = .error message ∧
        c.host.natives name args' = .error message

theorem lt_of_shiftFrom_eq {base id : Identity} (h : shiftFrom base 1 id = id) : id < base := by
  by_contra hle
  rw [shiftFrom_of_le (Nat.not_lt.mp hle)] at h
  exact Nat.succ_ne_self id h

section
variable {bound : String → Prop} {I : Identity → Identity → Prop} {base : Identity}
  {D : FunctionDef → Prop}

/-- A value that is known agrees with itself if no known function mentions a bound name. -/
theorem Value.IsKnown.agrees {v : Value} (h : v.IsKnown base D) (hI : ∀ id < base, I id id)
    (hD : ∀ f, D f → ∀ x ∈ f.names, ¬ bound x) : v.Agrees bound I v := by
  have hbelow : ∀ id < base, shiftFrom base 1 id = id := fun id hid => if_pos hid
  exact v.agrees_of_rename (fun id hid => hI id (lt_of_shiftFrom_eq hid)) hD (h.older _ hbelow)
    h.within

theorem Value.Agrees.covers (hI : ∀ id < base, I id id)
    (hD : ∀ f, D f → ∀ x ∈ f.names, ¬ bound x) : Covers base D (Value.Agrees bound I) where
  known _ hv := hv.agrees hI hD
  array id hid _ _ h := .ofItems (hI id hid) h
  object id hid _ _ h := .ofMembers (hI id hid) h

end

end Stencil.Script
