import Mathlib.Data.List.Forall2
import Mathlib.Logic.Equiv.Basic
import Stencil.Proofs.Script.Hoisting
import Stencil.Proofs.Script.Likeness
import Stencil.Proofs.Script.Reordering

/-! # Functions declared in another order

Two functions that a list of statements declares are **independent** if they have different names and
neither mentions the name of the other (`Independent`).  A list is **rearranged** into another one if
only functions change places and any two that are not independent come in the same order as before
(`Stmt.Rearranged`).
-/
namespace Stencil.Script

/-- Two functions that are declared have different names, and neither mentions the other. -/
structure Independent (p q : String × FunctionDef) : Prop where
  ne : p.1 ≠ q.1
  left : q.1 ∉ p.2.names
  right : p.1 ∉ q.2.names

/-- Functions come in another order, in which `place i` is the place of the one that was at `i`; of two
that are not independent the first one stays first. -/
structure Shuffle (place : Equiv.Perm Nat) (fs gs : List (String × FunctionDef)) : Prop where
  length : gs.length = fs.length
  moved : ∀ i, gs[place i]? = fs[i]?
  order : ∀ i j p q, i < j → fs[i]? = some p → fs[j]? = some q →
    Independent p q ∨ place i < place j

/-- The statements come in another order, in which only functions have changed places, and of two that
are not independent the first one is still first. -/
structure Stmt.Rearranged (body body' : List Stmt) : Prop where
  perm : body.Perm body'
  slots : List.Forall₂ Stmt.SameSlot body body'
  shuffle : ∃ place, Shuffle place (declarations body) (declarations body')

/-- Every list of statements is rearranged. -/
def Orders.Rearrange (π : Orders) : Prop :=
  ∀ place body, Stmt.Rearranged body (π place body)

/-- The function is the other one with lists of statements in it rearranged. -/
def FunctionDef.Rearranged (f f' : FunctionDef) : Prop :=
  ∃ π : Orders, π.Rearrange ∧ f' = f.reorder π

theorem Orders.Rearrange.inside {π : Orders} (h : π.Rearrange) (part : Nat) :
    (π.inside part).Rearrange :=
  fun place => h (part :: place)

theorem Orders.Rearrange.keeps {π : Orders} (h : π.Rearrange) : π.Keeps :=
  fun place body _ hs => (h place body).perm.mem_iff.mp hs

theorem Stmt.Rearranged.refl (body : List Stmt) : Stmt.Rearranged body body where
  perm := .refl body
  slots := List.forall₂_same.mpr fun s _ => .same s
  shuffle := ⟨Equiv.refl Nat, rfl, fun _ => rfl, fun _ _ _ _ hij _ _ => .inr hij⟩

theorem Orders.rearrange_same : Orders.same.Rearrange :=
  fun _ => Stmt.Rearranged.refl

/-- A list of statements is put in the place of another one. -/
noncomputable def Orders.exchange (body other : List Stmt) : Orders :=
  open Classical in fun place b => if place = [] ∧ b = body then other else b

theorem Orders.rearrange_exchange {body other : List Stmt} (h : Stmt.Rearranged body other) :
    (Orders.exchange body other).Rearrange := by
  intro place b
  unfold exchange
  split
  · rename_i hb
    exact hb.2 ▸ h
  · exact .refl b

theorem Orders.inside_exchange (body other : List Stmt) (part : Nat) :
    (Orders.exchange body other).inside part = .same := by
  funext place b
  have hplace : ¬ (part :: place = [] ∧ b = body) := fun h => List.cons_ne_nil _ _ h.1
  unfold inside exchange
  rw [if_neg hplace]
  rfl

theorem Stmt.reorderList_exchange (body other : List Stmt) :
    Stmt.reorderList (Orders.exchange body other) body = other := by
  have hinner : Stmt.reorderAll (Orders.exchange body other) body = body := by
    cases body with
    | nil => rfl
    | cons s rest =>
      rw [reorderAll, Orders.inside_exchange, Orders.inside_exchange, reorder_same,
        reorderAll_same]
  rw [reorderList, hinner, Orders.exchange, if_pos ⟨rfl, rfl⟩]

theorem FunctionDef.Rearranged.refl (f : FunctionDef) : f.Rearranged f :=
  ⟨.same, Orders.rearrange_same, f.reorder_same.symm⟩

theorem FunctionDef.Rearranged.name {f f' : FunctionDef} (h : f.Rearranged f') :
    f'.name = f.name := by
  obtain ⟨π, -, rfl⟩ := h
  exact f.name_reorder

theorem FunctionDef.Rearranged.params {f f' : FunctionDef} (h : f.Rearranged f') :
    f'.params = f.params := by
  obtain ⟨π, -, rfl⟩ := h
  exact f.params_reorder

theorem FunctionDef.Rearranged.isArrow {f f' : FunctionDef} (h : f.Rearranged f') :
    f'.isArrow = f.isArrow := by
  obtain ⟨π, -, rfl⟩ := h
  exact f.isArrow_reorder

/-- A function that is rearranged mentions all that it mentioned. -/
theorem FunctionDef.Rearranged.mem_names {f f' : FunctionDef} (h : f.Rearranged f') {x : String}
    (hx : x ∈ f.names) : x ∈ f'.names := by
  obtain ⟨π, hπ, rfl⟩ := h
  exact f.mem_names_reorder hπ.keeps hx

/-- Statements in which lists are rearranged declare functions in which lists are rearranged. -/
theorem declarations_reorderAll {π : Orders} (hπ : π.Rearrange) (body : List Stmt) :
    List.Forall₂ (fun p p' => p'.1 = p.1 ∧ p.2.Rearranged p'.2) (declarations body)
      (declarations (Stmt.reorderAll π body)) := by
  induction body generalizing π with
  | nil => exact .nil
  | cons s rest ih =>
    have hrest := ih (hπ.inside 1)
    have hs := Eval.declaredFunction?_reorder (π := π.inside 0) s
    unfold declarations at hrest ⊢
    rw [Stmt.reorderAll, List.filterMap_cons, List.filterMap_cons, hs]
    cases Eval.declaredFunction? s with
    | none => exact hrest
    | some f =>
      have hname := f.name_reorder (π := π.inside 0)
      have hf : f.Rearranged (f.reorder (π.inside 0)) := ⟨_, hπ.inside 0, rfl⟩
      simp only [Option.map_some, Option.bind_eq_bind, Option.bind_some, hname]
      cases f.name with
      | none => exact hrest
      | some name => exact .cons ⟨rfl, hf⟩ hrest

/-! ## Trees that are rearranged are alike -/

/-- Trees in which lists of statements are rearranged, and which read and assign the given names
only. -/
def Trees.rearranged (A : String → Prop) : Trees where
  reads := A
  writes := A
  declares _ constant constant' := constant' = constant
  functions f f' := f.Rearranged f' ∧ ∀ x ∈ f.names, A x
  scopes body body' := ∃ π : Orders, π.Rearrange ∧ body' = Stmt.reorderList π body ∧
    ∀ x ∈ Stmt.namesOf body, A x
  exports _ _ := True

section
variable {A : String → Prop}

theorem Trees.assigns_of_names {e : Expr} (h : ∀ x ∈ e.names, A x) : (rearranged A).Assigns e := by
  refine ⟨?_, e.keysAmong_of_forall fun _ => trivial⟩
  rintro x rfl
  exact h x List.mem_cons_self

theorem Trees.calls_of_names {e : Expr} (h : ∀ x ∈ e.names, A x) : (rearranged A).Calls e := by
  cases e with
  | member object property optional =>
    exact fun _ => assigns_of_names (List.forall_mem_append.mp h).1
  | _ => trivial

/-- What is like a statement is like the one in its slot. -/
theorem Stmt.Like.slot {s t t' : Stmt} (h : s.Like (.rearranged A) t) (hslot : SameSlot t t') :
    s.Like (.rearranged A) t' := by
  cases hslot with
  | same => exact h
  | function f f' =>
    cases s with
    | function g => exact ⟨f', rfl⟩
    | _ => simp [Stmt.Like] at h
  | exported f f' =>
    cases s with
    | «export» inner =>
      obtain ⟨_, heq, -, hinner⟩ := h
      obtain rfl := Stmt.export.inj heq
      exact ⟨_, rfl, trivial, hinner.slot (.function f f')⟩
    | _ => simp [Stmt.Like] at h

theorem Stmt.AllLike.slots {body body₁ body₂ : List Stmt}
    (h : AllLike (.rearranged A) body body₁) (hslots : List.Forall₂ SameSlot body₁ body₂) :
    AllLike (.rearranged A) body body₂ := by
  induction body generalizing body₁ body₂ with
  | nil =>
    obtain rfl := h
    cases hslots
    rfl
  | cons s rest ih =>
    obtain ⟨s', rest', rfl, hs, hrest⟩ := h
    obtain _ | ⟨hslot, hslots⟩ := hslots
    exact ⟨_, _, rfl, hs.slot hslot, ih hrest hslots⟩

mutual

/-- Expressions are like those in which lists of statements are rearranged. -/
theorem Expr.like_reorder {π : Orders} (hπ : π.Rearrange) :
    ∀ e : Expr, (∀ x ∈ e.names, A x) → e.Like (.rearranged A) (e.reorder π)
  | .template parts, h => ⟨_, rfl, TemplatePart.allLike_reorder hπ parts h⟩
  | .array items, h => ⟨_, rfl, Expr.allLike_reorder hπ items h⟩
  | .sequence items, h => ⟨_, rfl, Expr.allLike_reorder hπ items h⟩
  | .object entries, h => ⟨_, rfl, Expr.entriesLike_reorder hπ entries h⟩
  | .member object property _, h => by
    obtain ⟨hobject, hproperty⟩ := List.forall_mem_append.mp h
    exact ⟨_, _, rfl, object.like_reorder (hπ.inside 0) hobject,
      property.like_reorder (hπ.inside 1) hproperty⟩
  | .call callee args _, h => by
    obtain ⟨hcallee, hargs⟩ := List.forall_mem_append.mp h
    exact ⟨_, _, rfl, callee.like_reorder (hπ.inside 0) hcallee,
      Expr.allLike_reorder (hπ.inside 1) args hargs, Trees.calls_of_names hcallee⟩
  | .construct callee args, h => by
    obtain ⟨hcallee, hargs⟩ := List.forall_mem_append.mp h
    exact ⟨_, _, rfl, callee.like_reorder (hπ.inside 0) hcallee,
      Expr.allLike_reorder (hπ.inside 1) args hargs⟩
  | .unary _ operand, h => ⟨_, rfl, operand.like_reorder hπ h⟩
  | .await operand, h => ⟨_, rfl, operand.like_reorder hπ h⟩
  | .update _ _ operand, h => ⟨_, rfl, operand.like_reorder hπ h, Trees.assigns_of_names h⟩
  | .binary _ left right, h => by
    obtain ⟨hleft, hright⟩ := List.forall_mem_append.mp h
    exact ⟨_, _, rfl, left.like_reorder (hπ.inside 0) hleft,
      right.like_reorder (hπ.inside 1) hright⟩
  | .logical _ left right, h => by
    obtain ⟨hleft, hright⟩ := List.forall_mem_append.mp h
    exact ⟨_, _, rfl, left.like_reorder (hπ.inside 0) hleft,
      right.like_reorder (hπ.inside 1) hright⟩
  | .assign _ place value, h => by
    obtain ⟨hplace, hvalue⟩ := List.forall_mem_append.mp h
    exact ⟨_, _, rfl, place.like_reorder (hπ.inside 0) hplace,
      value.like_reorder (hπ.inside 1) hvalue, Trees.assigns_of_names hplace⟩
  | .conditional test consequent alternative, h => by
    obtain ⟨h, halternative⟩ := List.forall_mem_append.mp h
    obtain ⟨htest, hconsequent⟩ := List.forall_mem_append.mp h
    exact ⟨_, _, _, rfl, test.like_reorder (hπ.inside 0) htest,
      consequent.like_reorder (hπ.inside 1) hconsequent,
      alternative.like_reorder (hπ.inside 2) halternative⟩
  | .function definition, h => ⟨_, rfl, ⟨π, hπ, rfl⟩, h⟩
  | .name x, h => ⟨rfl, h x List.mem_cons_self⟩
  | .number _, _ | .string _, _ | .bool _, _ | .null, _ | .undefined, _ => rfl

theorem Expr.allLike_reorder {π : Orders} (hπ : π.Rearrange) : ∀ es : List Expr,
    (∀ x ∈ Expr.namesOf es, A x) → Expr.AllLike (.rearranged A) es (Expr.reorderAll π es)
  | [], _ => rfl
  | e :: rest, h => by
    obtain ⟨he, hrest⟩ := List.forall_mem_append.mp h
    exact ⟨_, _, rfl, e.like_reorder (hπ.inside 0) he, Expr.allLike_reorder (hπ.inside 1) rest hrest⟩

theorem Expr.entriesLike_reorder {π : Orders} (hπ : π.Rearrange) :
    ∀ entries : List (String × Expr), (∀ x ∈ Expr.namesOfEntries entries, A x) →
      Expr.EntriesLike (.rearranged A) entries (Expr.reorderEntries π entries)
  | [], _ => rfl
  | (_, e) :: rest, h => by
    obtain ⟨he, hrest⟩ := List.forall_mem_append.mp h
    exact ⟨_, _, rfl, e.like_reorder (hπ.inside 0) he,
      Expr.entriesLike_reorder (hπ.inside 1) rest hrest⟩

theorem TemplatePart.allLike_reorder {π : Orders} (hπ : π.Rearrange) : ∀ parts : List TemplatePart,
    (∀ x ∈ TemplatePart.namesOf parts, A x) →
      TemplatePart.AllLike (.rearranged A) parts (TemplatePart.reorderAll π parts)
  | [], _ => rfl
  | .text _ :: rest, h => ⟨_, rfl, TemplatePart.allLike_reorder (hπ.inside 1) rest h⟩
  | .interpolation e :: rest, h => by
    obtain ⟨he, hrest⟩ := List.forall_mem_append.mp h
    exact ⟨_, _, rfl, e.like_reorder (hπ.inside 0) he,
      TemplatePart.allLike_reorder (hπ.inside 1) rest hrest⟩

end

theorem Expr.like?_reorder {π : Orders} (hπ : π.Rearrange) (e : Option Expr)
    (h : ∀ x ∈ Expr.namesOf? e, A x) : Expr.Like? (.rearranged A) e (Expr.reorder? π e) := by
  cases e with
  | none => rfl
  | some e => exact ⟨_, rfl, e.like_reorder hπ h⟩

theorem Stmt.declaratorsLike_reorder {π : Orders} (hπ : π.Rearrange) (constant : Bool)
    (ds : List (String × Option Expr)) (h : ∀ x ∈ Stmt.namesOfDeclarators ds, A x) :
    Stmt.DeclaratorsLike (.rearranged A) constant constant ds (Stmt.reorderDeclarators π ds) := by
  induction ds generalizing π with
  | nil => rfl
  | cons d rest ih =>
    obtain ⟨hinit, hrest⟩ := List.forall_mem_append.mp h
    exact ⟨_, _, rfl, Expr.like?_reorder (hπ.inside 0) d.2 hinit, rfl, ih (hπ.inside 1) hrest⟩

mutual

/-- Statements are like those in which lists of statements are rearranged. -/
theorem Stmt.like_reorder {π : Orders} (hπ : π.Rearrange) :
    ∀ s : Stmt, (∀ x ∈ s.names, A x) → s.Like (.rearranged A) (s.reorder π)
  | .expr e, h => ⟨_, rfl, e.like_reorder hπ h⟩
  | .throw e, h => ⟨_, rfl, e.like_reorder hπ h⟩
  | .exportDefault e, h => ⟨_, rfl, e.like_reorder hπ h⟩
  | .decl _ ds, h => ⟨_, _, rfl, .rfl, Stmt.declaratorsLike_reorder hπ _ ds h⟩
  | .function _, _ => ⟨_, rfl⟩
  | .return value, h => ⟨_, rfl, Expr.like?_reorder hπ value h⟩
  | .branch test consequent alternative, h => by
    obtain ⟨h, halternative⟩ := List.forall_mem_append.mp h
    obtain ⟨htest, hconsequent⟩ := List.forall_mem_append.mp h
    exact ⟨_, _, _, rfl, test.like_reorder (hπ.inside 0) htest,
      consequent.like_reorder (hπ.inside 1) hconsequent,
      Stmt.like?_reorder (hπ.inside 2) alternative halternative⟩
  | .whileLoop test body, h => by
    obtain ⟨htest, hbody⟩ := List.forall_mem_append.mp h
    exact ⟨_, _, rfl, test.like_reorder (hπ.inside 0) htest, body.like_reorder (hπ.inside 1) hbody⟩
  | .doLoop body test, h => by
    obtain ⟨htest, hbody⟩ := List.forall_mem_append.mp h
    exact ⟨_, _, rfl, body.like_reorder (hπ.inside 0) hbody, test.like_reorder (hπ.inside 1) htest⟩
  | .forLoop init test update body, h => by
    obtain ⟨h, hbody⟩ := List.forall_mem_append.mp h
    obtain ⟨h, hupdate⟩ := List.forall_mem_append.mp h
    obtain ⟨hinit, htest⟩ := List.forall_mem_append.mp h
    exact ⟨_, _, _, _, rfl, Stmt.like?_reorder (hπ.inside 0) init hinit,
      Expr.like?_reorder (hπ.inside 1) test htest, Expr.like?_reorder (hπ.inside 2) update hupdate,
      body.like_reorder (hπ.inside 3) hbody⟩
  | .forOf _ source body, h => by
    obtain ⟨hsource, hbody⟩ := List.forall_mem_append.mp h
    exact ⟨_, _, rfl, source.like_reorder (hπ.inside 0) hsource,
      body.like_reorder (hπ.inside 1) hbody⟩
  | .forIn _ source body, h => by
    obtain ⟨hsource, hbody⟩ := List.forall_mem_append.mp h
    exact ⟨_, _, rfl, source.like_reorder (hπ.inside 0) hsource,
      body.like_reorder (hπ.inside 1) hbody⟩
  | .block body, h =>
    ⟨_, rfl, ⟨π, hπ, rfl, h⟩, (Stmt.allLike_reorder hπ body h).slots (hπ [] _).slots⟩
  | .export inner, h => ⟨_, rfl, trivial, inner.like_reorder hπ h⟩
  | .break, _ | .continue, _ | .empty, _ => rfl

theorem Stmt.allLike_reorder {π : Orders} (hπ : π.Rearrange) : ∀ body : List Stmt,
    (∀ x ∈ Stmt.namesOf body, A x) →
      Stmt.AllLike (.rearranged A) body (Stmt.reorderAll π body)
  | [], _ => rfl
  | s :: rest, h => by
    obtain ⟨hs, hrest⟩ := List.forall_mem_append.mp h
    exact ⟨_, _, rfl, s.like_reorder (hπ.inside 0) hs, Stmt.allLike_reorder (hπ.inside 1) rest hrest⟩

theorem Stmt.like?_reorder {π : Orders} (hπ : π.Rearrange) : ∀ s : Option Stmt,
    (∀ x ∈ Stmt.namesOf? s, A x) → Stmt.Like? (.rearranged A) s (Stmt.reorder? π s)
  | none, _ => rfl
  | some s, h => ⟨_, rfl, s.like_reorder hπ h⟩

end

/-- Statements are like those in which all lists of statements are rearranged, their own included. -/
theorem Stmt.allLike_reorderList {π : Orders} (hπ : π.Rearrange) (body : List Stmt)
    (h : ∀ x ∈ Stmt.namesOf body, A x) :
    Stmt.AllLike (.rearranged A) body (Stmt.reorderList π body) :=
  (Stmt.allLike_reorder hπ body h).slots (hπ [] _).slots

theorem FunctionBody.like_reorder {π : Orders} (hπ : π.Rearrange) (body : FunctionBody)
    (h : ∀ x ∈ body.names, A x) : body.Like (.rearranged A) (body.reorder π) := by
  cases body with
  | expr e => exact ⟨_, rfl, e.like_reorder hπ h⟩
  | block body =>
    exact ⟨_, rfl, ⟨π, hπ, rfl, h⟩, Stmt.allLike_reorderList hπ body h⟩

end

end Stencil.Script
