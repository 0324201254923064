import Mathlib.Data.List.Forall2
import Stencil.Proofs.Script.Hoisting
import Stencil.Proofs.Script.Likeness

/-! # Constants that are loosened

`s.loosen X χ` is the statement `s` with `let` in the place of `const` in declarations of names of
`X`, those in the bodies of its functions included; everything else stays as it is.  Which
declarations these are may be chosen for each of them by the place where it stands (`Choice`).

The **parts** of a tree are all expressions in it, at any depth (`Expr.parts`, `Stmt.parts`).  Some
of them write a name itself: they assign it (`Expr.assignedName?`), or they may call a method that
changes its value (`Expr.changedName?`).  Trees are like loosened ones if no name of `X` is assigned,
or changed unless that is excused (`Expr.like_loosen`, `Stmt.like_loosen`).
-/
namespace Stencil.Script
open Eval

/-! ## Loosened declarations -/

/-- For every place in a tree whether the declaration that stands there is chosen.  Places are told
apart by the parts of the tree that lead to them. -/
abbrev Choice := List Nat → Bool

/-- The choice in one of the parts of a tree. -/
def Choice.inside (χ : Choice) (part : Nat) : Choice :=
  fun place => χ (part :: place)

/-- What is declared constant is not any more, if it is chosen. -/
def DeclKind.loosen (chosen : Bool) : DeclKind → DeclKind
  | .constDecl => if chosen then .letDecl else .constDecl
  | kind => kind

section
variable (X : List String)

/-- Whether all names that are declared are given ones. -/
def Stmt.declaresOnly (declarators : List (String × Option Expr)) : Bool :=
  declarators.all fun d => X.contains d.1

mutual

/-- The expression with loosened declarations. -/
def Expr.loosen (χ : Choice) : Expr → Expr
  | .template parts => .template (TemplatePart.loosenAll χ parts)
  | .array items => .array (Expr.loosenAll χ items)
  | .sequence items => .sequence (Expr.loosenAll χ items)
  | .object entries => .object (Expr.loosenEntries χ entries)
  | .member object property optional =>
    .member (object.loosen (χ.inside 0)) (property.loosen (χ.inside 1)) optional
  | .call callee args optional =>
    .call (callee.loosen (χ.inside 0)) (Expr.loosenAll (χ.inside 1) args) optional
  | .construct callee args =>
    .construct (callee.loosen (χ.inside 0)) (Expr.loosenAll (χ.inside 1) args)
  | .unary op operand => .unary op (operand.loosen χ)
  | .await operand => .await (operand.loosen χ)
  | .update op first operand => .update op first (operand.loosen χ)
  | .binary op left right => .binary op (left.loosen (χ.inside 0)) (right.loosen (χ.inside 1))
  | .logical op left right => .logical op (left.loosen (χ.inside 0)) (right.loosen (χ.inside 1))
  | .assign op place value => .assign op (place.loosen (χ.inside 0)) (value.loosen (χ.inside 1))
  | .conditional test consequent alternative =>
    .conditional (test.loosen (χ.inside 0)) (consequent.loosen (χ.inside 1))
      (alternative.loosen (χ.inside 2))
  | .function definition => .function (definition.loosen χ)
  | .number x => .number x
  | .string s => .string s
  | .bool b => .bool b
  | .null => .null
  | .undefined => .undefined
  | .name x => .name x

/-- Expressions with loosened declarations. -/
def Expr.loosenAll (χ : Choice) : List Expr → List Expr
  | [] => []
  | e :: rest => e.loosen (χ.inside 0) :: Expr.loosenAll (χ.inside 1) rest

/-- An expression that may be missing, with loosened declarations. -/
def Expr.loosen? (χ : Choice) : Option Expr → Option Expr
  | none => none
  | some e => some (e.loosen χ)

/-- The members of an object literal with loosened declarations. -/
def Expr.loosenEntries (χ : Choice) : List (String × Expr) → List (String × Expr)
  | [] => []
  | (key, e) :: rest => (key, e.loosen (χ.inside 0)) :: Expr.loosenEntries (χ.inside 1) rest

/-- The parts of a template literal with loosened declarations. -/
def TemplatePart.loosenAll (χ : Choice) : List TemplatePart → List TemplatePart
  | [] => []
  | .text s :: rest => .text s :: TemplatePart.loosenAll (χ.inside 1) rest
  | .interpolation e :: rest =>
    .interpolation (e.loosen (χ.inside 0)) :: TemplatePart.loosenAll (χ.inside 1) rest

/-- The statement with loosened declarations, if it is one itself if it is chosen and declares given
names only. -/
def Stmt.loosen (χ : Choice) : Stmt → Stmt
  | .expr e => .expr (e.loosen χ)
  | .throw e => .throw (e.loosen χ)
  | .exportDefault e => .exportDefault (e.loosen χ)
  | .decl kind declarators =>
    .decl (kind.loosen (χ [] && Stmt.declaresOnly X declarators))
      (Stmt.loosenDeclarators χ declarators)
  | .function definition => .function (definition.loosen χ)
  | .return value => .return (Expr.loosen? χ value)
  | .branch test consequent alternative =>
    .branch (test.loosen (χ.inside 0)) (consequent.loosen (χ.inside 1))
      (Stmt.loosen? (χ.inside 2) alternative)
  | .whileLoop test body => .whileLoop (test.loosen (χ.inside 0)) (body.loosen (χ.inside 1))
  | .doLoop body test => .doLoop (body.loosen (χ.inside 0)) (test.loosen (χ.inside 1))
  | .forLoop init test update body =>
    .forLoop (Stmt.loosen? (χ.inside 0) init) (Expr.loosen? (χ.inside 1) test)
      (Expr.loosen? (χ.inside 2) update) (body.loosen (χ.inside 3))
  | .forOf name source body => .forOf name (source.loosen (χ.inside 0)) (body.loosen (χ.inside 1))
  | .forIn name source body => .forIn name (source.loosen (χ.inside 0)) (body.loosen (χ.inside 1))
  | .block body => .block (Stmt.loosenAll χ body)
  | .export inner => .export (inner.loosen χ)
  | .break => .break
  | .continue => .continue
  | .empty => .empty

/-- Statements with loosened declarations. -/
def Stmt.loosenAll (χ : Choice) : List Stmt → List Stmt
  | [] => []
  | s :: rest => s.loosen (χ.inside 0) :: Stmt.loosenAll (χ.inside 1) rest

/-- A statement that may be missing, with loosened declarations. -/
def Stmt.loosen? (χ : Choice) : Option Stmt → Option Stmt
  | none => none
  | some s => some (s.loosen χ)

/-- Declarators with loosened declarations in them. -/
def Stmt.loosenDeclarators (χ : Choice) :
    List (String × Option Expr) → List (String × Option Expr)
  | [] => []
  | (name, init) :: rest =>
    (name, Expr.loosen? (χ.inside 0) init) :: Stmt.loosenDeclarators (χ.inside 1) rest

/-- The function with loosened declarations. -/
def FunctionDef.loosen (χ : Choice) : FunctionDef → FunctionDef
  | .mk name params body arrow => .mk name params (body.loosen χ) arrow

/-- The body of a function with loosened declarations. -/
def FunctionBody.loosen (χ : Choice) : FunctionBody → FunctionBody
  | .expr e => .expr (e.loosen χ)
  | .block body => .block (Stmt.loosenAll χ body)

end

end

section
variable {X : List String} {χ : Choice}

@[simp]
theorem FunctionDef.name_loosen (f : FunctionDef) : (f.loosen X χ).name = f.name := by
  cases f; rfl

@[simp]
theorem FunctionDef.params_loosen (f : FunctionDef) : (f.loosen X χ).params = f.params := by
  cases f; rfl

@[simp]
theorem FunctionDef.isArrow_loosen (f : FunctionDef) : (f.loosen X χ).isArrow = f.isArrow := by
  cases f; rfl

@[simp]
theorem FunctionDef.body_loosen (f : FunctionDef) : (f.loosen X χ).body = f.body.loosen X χ := by
  cases f; rfl

end

/-! ## Names that are written -/

/-- The name that the expression assigns, itself and not a member of it. -/
def Expr.assignedName? : Expr → Option String
  | .assign _ (.name x) _ | .update _ _ (.name x) => some x
  | _ => none

/-- The name whose value may be changed by the method that the expression calls. -/
def Expr.changedName? : Expr → Option String
  | .call (.member (.name x) property _) _ _ => if property.mayChange then some x else none
  | _ => none

/-- The names that are assigned in a program. -/
def Stmt.assignedNames (body : List Stmt) : List String :=
  (Stmt.partsOf body).filterMap Expr.assignedName?

/-- The names whose values methods may change in a program. -/
def Stmt.changedNames (body : List Stmt) : List String :=
  (Stmt.partsOf body).filterMap Expr.changedName?

/-! ## Trees are like loosened ones -/

/-- The expression assigns none of the given names, and calls no method that may change the value of
one, unless that is excused. -/
structure Expr.Spares (X : List String) (excused : Prop) (e : Expr) : Prop where
  assigned : ∀ x, e.assignedName? = some x → x ∉ X
  changed : ∀ x, e.changedName? = some x → x ∈ X → excused

/-- The function is the other one with loosened declarations, and spares the names. -/
def FunctionDef.Loosened (X : List String) (excused : Prop) (f f' : FunctionDef) : Prop :=
  (∀ e ∈ f.parts, e.Spares X excused) ∧ ∃ χ, f' = f.loosen X χ

/-- The name is constant on both sides or on neither; or it is one of the given ones, and no more
constant on the second side. -/
def Loosens (X : List String) (x : String) (constant constant' : Bool) : Prop :=
  constant' = constant ∨ (x ∈ X ∧ constant = true ∧ constant' = false)

/-- Trees with loosened declarations of names that they spare. -/
def Trees.loosened (X : List String) (excused : Prop) : Trees where
  reads _ := True
  writes x := x ∈ X → excused
  declares := Loosens X
  functions := FunctionDef.Loosened X excused
  scopes body body' := List.Forall₂ (fun p p' => p'.1 = p.1 ∧ p.2.Loosened X excused p'.2)
    (declarations body) (declarations body')
  exports _ _ := True

section
variable {X : List String} {excused : Prop}

theorem Expr.Spares.assigns_assign {op : AssignOp} {place value : Expr}
    (h : (Expr.assign op place value).Spares X excused) :
    (Trees.loosened X excused).Assigns place := by
  refine ⟨?_, place.keysAmong_of_forall fun _ => trivial⟩
  rintro x rfl hx
  exact (h.assigned x rfl hx).elim

theorem Expr.Spares.assigns_update {op : UpdateOp} {first : Bool} {place : Expr}
    (h : (Expr.update op first place).Spares X excused) :
    (Trees.loosened X excused).Assigns place := by
  refine ⟨?_, place.keysAmong_of_forall fun _ => trivial⟩
  rintro x rfl hx
  exact (h.assigned x rfl hx).elim

theorem Expr.Spares.calls {callee : Expr} {args : List Expr} {optional : Bool}
    (h : (Expr.call callee args optional).Spares X excused) :
    (Trees.loosened X excused).Calls callee := by
  cases callee with
  | member object property memberOptional =>
    refine fun hchanges => ⟨?_, object.keysAmong_of_forall fun _ => trivial⟩
    rintro x rfl
    exact h.changed x (if_pos hchanges)
  | _ => trivial

/-- A declaration may be loosened if it declares given names only. -/
theorem Stmt.loosens_loosen {kind : DeclKind} {chosen : Bool} {ds : List (String × Option Expr)} :
    ∀ d ∈ ds, Loosens X d.1 (kind == .constDecl)
      (kind.loosen (chosen && declaresOnly X ds) == .constDecl) := by
  intro d hd
  cases kind with
  | letDecl | varDecl => exact .inl rfl
  | constDecl =>
    cases hchosen : chosen && declaresOnly X ds with
    | false => exact .inl rfl
    | true =>
      have hall := (Bool.and_eq_true_iff.mp hchosen).2
      exact .inr ⟨List.contains_iff_mem.mp (List.all_eq_true.mp hall d hd), rfl, rfl⟩

theorem DeclKind.loosen_eq_var_iff {kind : DeclKind} {chosen : Bool} :
    kind.loosen chosen = .varDecl ↔ kind = .varDecl := by
  cases kind <;> cases chosen <;> decide

mutual

/-- Expressions are like loosened ones. -/
theorem Expr.like_loosen (χ : Choice) :
    ∀ e : Expr, (∀ d ∈ e.parts, d.Spares X excused) →
      e.Like (.loosened X excused) (e.loosen X χ)
  | .template parts, h =>
    ⟨_, rfl, TemplatePart.allLike_loosen χ parts (List.forall_mem_cons.mp h).2⟩
  | .array items, h => ⟨_, rfl, Expr.allLike_loosen χ items (List.forall_mem_cons.mp h).2⟩
  | .sequence items, h => ⟨_, rfl, Expr.allLike_loosen χ items (List.forall_mem_cons.mp h).2⟩
  | .object entries, h => ⟨_, rfl, Expr.entriesLike_loosen χ entries (List.forall_mem_cons.mp h).2⟩
  | .member object property _, h => by
    obtain ⟨hobject, hproperty⟩ := List.forall_mem_append.mp (List.forall_mem_cons.mp h).2
    exact ⟨_, _, rfl, object.like_loosen _ hobject, property.like_loosen _ hproperty⟩
  | .call callee args _, h => by
    obtain ⟨hcall, h⟩ := List.forall_mem_cons.mp h
    obtain ⟨hcallee, hargs⟩ := List.forall_mem_append.mp h
    exact ⟨_, _, rfl, callee.like_loosen _ hcallee, Expr.allLike_loosen _ args hargs, hcall.calls⟩
  | .construct callee args, h => by
    obtain ⟨hcallee, hargs⟩ := List.forall_mem_append.mp (List.forall_mem_cons.mp h).2
    exact ⟨_, _, rfl, callee.like_loosen _ hcallee, Expr.allLike_loosen _ args hargs⟩
  | .unary _ operand, h => ⟨_, rfl, operand.like_loosen χ (List.forall_mem_cons.mp h).2⟩
  | .await operand, h => ⟨_, rfl, operand.like_loosen χ (List.forall_mem_cons.mp h).2⟩
  | .update _ _ operand, h => by
    obtain ⟨hupdate, h⟩ := List.forall_mem_cons.mp h
    exact ⟨_, rfl, operand.like_loosen χ h, hupdate.assigns_update⟩
  | .binary _ left right, h => by
    obtain ⟨hleft, hright⟩ := List.forall_mem_append.mp (List.forall_mem_cons.mp h).2
    exact ⟨_, _, rfl, left.like_loosen _ hleft, right.like_loosen _ hright⟩
  | .logical _ left right, h => by
    obtain ⟨hleft, hright⟩ := List.forall_mem_append.mp (List.forall_mem_cons.mp h).2
    exact ⟨_, _, rfl, left.like_loosen _ hleft, right.like_loosen _ hright⟩
  | .assign _ place value, h => by
    obtain ⟨hassign, h⟩ := List.forall_mem_cons.mp h
    obtain ⟨hplace, hvalue⟩ := List.forall_mem_append.mp h
    exact ⟨_, _, rfl, place.like_loosen _ hplace, value.like_loosen _ hvalue,
      hassign.assigns_assign⟩
  | .conditional test consequent alternative, h => by
    obtain ⟨h, halternative⟩ := List.forall_mem_append.mp (List.forall_mem_cons.mp h).2
    obtain ⟨htest, hconsequent⟩ := List.forall_mem_append.mp h
    exact ⟨_, _, _, rfl, test.like_loosen _ htest, consequent.like_loosen _ hconsequent,
      alternative.like_loosen _ halternative⟩
  | .function definition, h => ⟨_, rfl, (List.forall_mem_cons.mp h).2, χ, rfl⟩
  | .name _, _ => ⟨rfl, trivial⟩
  | .number _, _ | .string _, _ | .bool _, _ | .null, _ | .undefined, _ => rfl

theorem Expr.allLike_loosen (χ : Choice) :
    ∀ es : List Expr, (∀ d ∈ Expr.partsOf es, d.Spares X excused) →
      Expr.AllLike (.loosened X excused) es (Expr.loosenAll X χ es)
  | [], _ => rfl
  | e :: rest, h => by
    obtain ⟨he, hrest⟩ := List.forall_mem_append.mp h
    exact ⟨_, _, rfl, e.like_loosen _ he, Expr.allLike_loosen _ rest hrest⟩

theorem Expr.entriesLike_loosen (χ : Choice) :
    ∀ entries : List (String × Expr), (∀ d ∈ Expr.partsOfEntries entries, d.Spares X excused) →
      Expr.EntriesLike (.loosened X excused) entries (Expr.loosenEntries X χ entries)
  | [], _ => rfl
  | (_, e) :: rest, h => by
    obtain ⟨he, hrest⟩ := List.forall_mem_append.mp h
    exact ⟨_, _, rfl, e.like_loosen _ he, Expr.entriesLike_loosen _ rest hrest⟩

theorem TemplatePart.allLike_loosen (χ : Choice) :
    ∀ parts : List TemplatePart, (∀ d ∈ TemplatePart.partsOf parts, d.Spares X excused) →
      TemplatePart.AllLike (.loosened X excused) parts (TemplatePart.loosenAll X χ parts)
  | [], _ => rfl
  | .text _ :: rest, h => ⟨_, rfl, TemplatePart.allLike_loosen _ rest h⟩
  | .interpolation e :: rest, h => by
    obtain ⟨he, hrest⟩ := List.forall_mem_append.mp h
    exact ⟨_, _, rfl, e.like_loosen _ he, TemplatePart.allLike_loosen _ rest hrest⟩

end

theorem Expr.like?_loosen (χ : Choice) (e : Option Expr)
    (h : ∀ d ∈ Expr.partsOf? e, d.Spares X excused) :
    Expr.Like? (.loosened X excused) e (Expr.loosen? X χ e) := by
  cases e with
  | none => rfl
  | some e => exact ⟨_, rfl, e.like_loosen χ h⟩

theorem Stmt.declaratorsLike_loosen {constant constant' : Bool} (χ : Choice)
    {ds : List (String × Option Expr)}
    (hnames : ∀ d ∈ ds, Loosens X d.1 constant constant')
    (h : ∀ d ∈ Stmt.partsOfDeclarators ds, d.Spares X excused) :
    Stmt.DeclaratorsLike (.loosened X excused) constant constant' ds
      (Stmt.loosenDeclarators X χ ds) := by
  induction ds generalizing χ with
  | nil => rfl
  | cons d rest ih =>
    obtain ⟨hname, hnames⟩ := List.forall_mem_cons.mp hnames
    obtain ⟨hinit, hrest⟩ := List.forall_mem_append.mp h
    exact ⟨_, _, rfl, Expr.like?_loosen _ d.2 hinit, hname, ih _ hnames hrest⟩

/-- The functions that statements declare are loosened with them. -/
theorem declarations_loosenAll (χ : Choice) (body : List Stmt)
    (h : ∀ d ∈ Stmt.partsOf body, d.Spares X excused) :
    (Trees.loosened X excused).scopes body (Stmt.loosenAll X χ body) := by
  have hdeclared : ∀ (χ : Choice) (s : Stmt), (∀ d ∈ s.parts, d.Spares X excused) →
      Option.Rel (fun f f' => f.Loosened X excused f') (declaredFunction? s)
        (declaredFunction? (s.loosen X χ)) := by
    intro χ s hs
    cases s with
    | function f => exact .some ⟨hs, χ, rfl⟩
    | «export» inner =>
      cases inner with
      | function f => exact .some ⟨hs, χ, rfl⟩
      | _ => exact .none
    | _ => exact .none
  induction body generalizing χ with
  | nil => exact .nil
  | cons s rest ih =>
    obtain ⟨hs, hrest⟩ := List.forall_mem_append.mp h
    have hs := hdeclared (χ.inside 0) s hs
    have hrest := ih (χ.inside 1) hrest
    change List.Forall₂ _ _ _ at hrest ⊢
    unfold declarations at hrest ⊢
    rw [Stmt.loosenAll, List.filterMap_cons, List.filterMap_cons]
    generalize declaredFunction? s = o at hs
    generalize declaredFunction? (s.loosen X (χ.inside 0)) = o' at hs
    cases hs with
    | none => exact hrest
    | some hf =>
      obtain ⟨hparts, χ', rfl⟩ := hf
      rename_i f
      simp only [Option.bind_eq_bind, Option.bind_some, FunctionDef.name_loosen]
      cases f.name with
      | none => exact hrest
      | some name => exact .cons ⟨rfl, hparts, χ', rfl⟩ hrest

mutual

/-- Statements are like loosened ones. -/
theorem Stmt.like_loosen (χ : Choice) :
    ∀ s : Stmt, (∀ d ∈ s.parts, d.Spares X excused) →
      s.Like (.loosened X excused) (s.loosen X χ)
  | .expr e, h => ⟨_, rfl, e.like_loosen χ h⟩
  | .throw e, h => ⟨_, rfl, e.like_loosen χ h⟩
  | .exportDefault e, h => ⟨_, rfl, e.like_loosen χ h⟩
  | .decl _ ds, h =>
    ⟨_, _, rfl, DeclKind.loosen_eq_var_iff, Stmt.declaratorsLike_loosen χ Stmt.loosens_loosen h⟩
  | .function _, _ => ⟨_, rfl⟩
  | .return value, h => ⟨_, rfl, Expr.like?_loosen χ value h⟩
  | .branch test consequent alternative, h => by
    obtain ⟨h, halternative⟩ := List.forall_mem_append.mp h
    obtain ⟨htest, hconsequent⟩ := List.forall_mem_append.mp h
    exact ⟨_, _, _, rfl, test.like_loosen _ htest, consequent.like_loosen _ hconsequent,
      Stmt.like?_loosen _ alternative halternative⟩
  | .whileLoop test body, h => by
    obtain ⟨htest, hbody⟩ := List.forall_mem_append.mp h
    exact ⟨_, _, rfl, test.like_loosen _ htest, body.like_loosen _ hbody⟩
  | .doLoop body test, h => by
    obtain ⟨htest, hbody⟩ := List.forall_mem_append.mp h
    exact ⟨_, _, rfl, body.like_loosen _ hbody, test.like_loosen _ htest⟩
  | .forLoop init test update body, h => by
    obtain ⟨h, hbody⟩ := List.forall_mem_append.mp h
    obtain ⟨h, hupdate⟩ := List.forall_mem_append.mp h
    obtain ⟨hinit, htest⟩ := List.forall_mem_append.mp h
    exact ⟨_, _, _, _, rfl, Stmt.like?_loosen _ init hinit, Expr.like?_loosen _ test htest,
      Expr.like?_loosen _ update hupdate, body.like_loosen _ hbody⟩
  | .forOf _ source body, h => by
    obtain ⟨hsource, hbody⟩ := List.forall_mem_append.mp h
    exact ⟨_, _, rfl, source.like_loosen _ hsource, body.like_loosen _ hbody⟩
  | .forIn _ source body, h => by
    obtain ⟨hsource, hbody⟩ := List.forall_mem_append.mp h
    exact ⟨_, _, rfl, source.like_loosen _ hsource, body.like_loosen _ hbody⟩
  | .block body, h => ⟨_, rfl, declarations_loosenAll χ body h, Stmt.allLike_loosen χ body h⟩
  | .export inner, h => ⟨_, rfl, trivial, inner.like_loosen χ h⟩
  | .break, _ | .continue, _ | .empty, _ => rfl

theorem Stmt.allLike_loosen (χ : Choice) :
    ∀ body : List Stmt, (∀ d ∈ Stmt.partsOf body, d.Spares X excused) →
      Stmt.AllLike (.loosened X excused) body (Stmt.loosenAll X χ body)
  | [], _ => rfl
  | s :: rest, h => by
    obtain ⟨hs, hrest⟩ := List.forall_mem_append.mp h
    exact ⟨_, _, rfl, s.like_loosen _ hs, Stmt.allLike_loosen _ rest hrest⟩

theorem Stmt.like?_loosen (χ : Choice) :
    ∀ s : Option Stmt, (∀ d ∈ Stmt.partsOf? s, d.Spares X excused) →
      Stmt.Like? (.loosened X excused) s (Stmt.loosen? X χ s)
  | none, _ => rfl
  | some s, h => ⟨_, rfl, s.like_loosen χ h⟩

end

theorem FunctionBody.like_loosen (χ : Choice) (body : FunctionBody)
    (h : ∀ d ∈ body.parts, d.Spares X excused) :
    body.Like (.loosened X excused) (body.loosen X χ) := by
  cases body with
  | expr e => exact ⟨_, rfl, e.like_loosen χ h⟩
  | block body =>
    exact ⟨_, rfl, declarations_loosenAll χ body h, Stmt.allLike_loosen χ body h⟩

end

end Stencil.Script
