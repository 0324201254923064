import Stencil.Script.Run

/-! # The functions that trees, values and machines hold

The **definitions** of a tree are the functions written in it, at any depth: those in the bodies of
its functions, in loops and branches, in the parts of template literals and so on
(`Expr.functions`, `Stmt.functions`).

A **value is within** a set of definitions and a set of functions of other origin if every function
that it holds, at any depth, is among them (`Value.Within`): the items of arrays and the members of
objects count, and for a function of a script its own definition, the locals that it captured and
the names of its module.  Activations, machines and what a module puts out are within the sets if
all their values are.
-/
namespace Stencil.Script

/-! ## Definitions in trees -/

mutual

/-- The functions written in an expression. -/
def Expr.functions : Expr → List FunctionDef
  | .template parts => TemplatePart.functionsOf parts
  | .array items | .sequence items => Expr.functionsOf items
  | .object entries => Expr.functionsOfEntries entries
  | .member object property _ => object.functions ++ property.functions
  | .call callee args _ | .construct callee args => callee.functions ++ Expr.functionsOf args
  | .unary _ operand | .await operand | .update _ _ operand => operand.functions
  | .binary _ left right | .logical _ left right | .assign _ left right =>
    left.functions ++ right.functions
  | .conditional test consequent alternative =>
    test.functions ++ consequent.functions ++ alternative.functions
  | .function definition => definition.functions
  | .number _ | .string _ | .bool _ | .null | .undefined | .name _ => []

/-- The functions written in expressions. -/
def Expr.functionsOf : List Expr → List FunctionDef
  | [] => []
  | e :: rest => e.functions ++ Expr.functionsOf rest

/-- The functions written in an expression that may be missing. -/
def Expr.functionsOf? : Option Expr → List FunctionDef
  | none => []
  | some e => e.functions

/-- The functions written in the members of an object literal. -/
def Expr.functionsOfEntries : List (String × Expr) → List FunctionDef
  | [] => []
  | (_, e) :: rest => e.functions ++ Expr.functionsOfEntries rest

/-- The functions written in the parts of a template literal. -/
def TemplatePart.functionsOf : List TemplatePart → List FunctionDef
  | [] => []
  | .text _ :: rest => TemplatePart.functionsOf rest
  | .interpolation e :: rest => e.functions ++ TemplatePart.functionsOf rest

/-- The functions written in a statement. -/
def Stmt.functions : Stmt → List FunctionDef
  | .expr e | .throw e | .exportDefault e => e.functions
  | .decl _ declarators => Stmt.functionsOfDeclarators declarators
  | .function definition => definition.functions
  | .return value => Expr.functionsOf? value
  | .branch test consequent alternative =>
    test.functions ++ consequent.functions ++ Stmt.functionsOf? alternative
  | .whileLoop test body | .doLoop body test => test.functions ++ body.functions
  | .forLoop init test update body =>
    Stmt.functionsOf? init ++ Expr.functionsOf? test ++ Expr.functionsOf? update ++ body.functions
  | .forOf _ source body | .forIn _ source body => source.functions ++ body.functions
  | .block body => Stmt.functionsOf body
  | .export inner => inner.functions
  | .break | .continue | .empty => []

/-- The functions written in statements. -/
def Stmt.functionsOf : List Stmt → List FunctionDef
  | [] => []
  | s :: rest => s.functions ++ Stmt.functionsOf rest

/-- The functions written in a statement that may be missing. -/
def Stmt.functionsOf? : Option Stmt → List FunctionDef
  | none => []
  | some s => s.functions

/-- The functions written in declarators. -/
def Stmt.functionsOfDeclarators : List (String × Option Expr) → List FunctionDef
  | [] => []
  | (_, init) :: rest => Expr.functionsOf? init ++ Stmt.functionsOfDeclarators rest

/-- A function and those written in its body. -/
def FunctionDef.functions : FunctionDef → List FunctionDef
  | .mk name params body arrow => .mk name params body arrow :: body.functions

/-- The functions written in the body of a function. -/
def FunctionBody.functions : FunctionBody → List FunctionDef
  | .expr e => e.functions
  | .block body => Stmt.functionsOf body

end

section Inner
variable {f g : FunctionDef}

mutual

/-- The functions in the body of a function of a tree are functions of the tree. -/
theorem Expr.functions_trans (hg : g ∈ f.body.functions) :
    ∀ e : Expr, f ∈ e.functions → g ∈ e.functions
  | .template parts, h => TemplatePart.functionsOf_trans hg parts h
  | .array items, h | .sequence items, h => Expr.functionsOf_trans hg items h
  | .object entries, h => Expr.functionsOfEntries_trans hg entries h
  | .member e property _, h => by
    rw [Expr.functions, List.mem_append] at *
    exact h.imp (e.functions_trans hg) (property.functions_trans hg)
  | .call callee args _, h | .construct callee args, h => by
    rw [Expr.functions, List.mem_append] at *
    exact h.imp (callee.functions_trans hg) (Expr.functionsOf_trans hg args)
  | .unary _ operand, h | .await operand, h | .update _ _ operand, h => operand.functions_trans hg h
  | .binary _ left right, h | .logical _ left right, h | .assign _ left right, h => by
    rw [Expr.functions, List.mem_append] at *
    exact h.imp (left.functions_trans hg) (right.functions_trans hg)
  | .conditional test consequent alternative, h => by
    rw [Expr.functions, List.mem_append, List.mem_append] at *
    exact h.imp (Or.imp (test.functions_trans hg) (consequent.functions_trans hg))
      (alternative.functions_trans hg)
  | .function definition, h => definition.functions_trans hg h
  | .number _, h | .string _, h | .bool _, h | .null, h | .undefined, h | .name _, h => nomatch h

theorem Expr.functionsOf_trans (hg : g ∈ f.body.functions) :
    ∀ es : List Expr, f ∈ Expr.functionsOf es → g ∈ Expr.functionsOf es
  | [], h => nomatch h
  | e :: rest, h => by
    rw [Expr.functionsOf, List.mem_append] at *
    exact h.imp (e.functions_trans hg) (Expr.functionsOf_trans hg rest)

theorem Expr.functionsOf?_trans (hg : g ∈ f.body.functions) :
    ∀ e : Option Expr, f ∈ Expr.functionsOf? e → g ∈ Expr.functionsOf? e
  | none, h => nomatch h
  | some e, h => e.functions_trans hg h

theorem Expr.functionsOfEntries_trans (hg : g ∈ f.body.functions) :
    ∀ entries : List (String × Expr),
      f ∈ Expr.functionsOfEntries entries → g ∈ Expr.functionsOfEntries entries
  | [], h => nomatch h
  | (_, e) :: rest, h => by
    rw [Expr.functionsOfEntries, List.mem_append] at *
    exact h.imp (e.functions_trans hg) (Expr.functionsOfEntries_trans hg rest)

theorem TemplatePart.functionsOf_trans (hg : g ∈ f.body.functions) :
    ∀ parts : List TemplatePart,
      f ∈ TemplatePart.functionsOf parts → g ∈ TemplatePart.functionsOf parts
  | [], h => nomatch h
  | .text _ :: rest, h => TemplatePart.functionsOf_trans hg rest h
  | .interpolation e :: rest, h => by
    rw [TemplatePart.functionsOf, List.mem_append] at *
    exact h.imp (e.functions_trans hg) (TemplatePart.functionsOf_trans hg rest)

theorem Stmt.functions_trans (hg : g ∈ f.body.functions) :
    ∀ s : Stmt, f ∈ s.functions → g ∈ s.functions
  | .expr e, h | .throw e, h | .exportDefault e, h => e.functions_trans hg h
  | .decl _ declarators, h => Stmt.functionsOfDeclarators_trans hg declarators h
  | .function definition, h => definition.functions_trans hg h
  | .return value, h => Expr.functionsOf?_trans hg value h
  | .branch test consequent alternative, h => by
    rw [Stmt.functions, List.mem_append, List.mem_append] at *
    exact h.imp (Or.imp (test.functions_trans hg) (consequent.functions_trans hg))
      (Stmt.functionsOf?_trans hg alternative)
  | .whileLoop test body, h | .doLoop body test, h => by
    rw [Stmt.functions, List.mem_append] at *
    exact h.imp (test.functions_trans hg) (body.functions_trans hg)
  | .forLoop init test update body, h => by
    rw [Stmt.functions, List.mem_append, List.mem_append, List.mem_append] at *
    exact h.imp (Or.imp (Or.imp (Stmt.functionsOf?_trans hg init) (Expr.functionsOf?_trans hg test))
      (Expr.functionsOf?_trans hg update)) (body.functions_trans hg)
  | .forOf _ source body, h | .forIn _ source body, h => by
    rw [Stmt.functions, List.mem_append] at *
    exact h.imp (source.functions_trans hg) (body.functions_trans hg)
  | .block body, h => Stmt.functionsOf_trans hg body h
  | .export inner, h => inner.functions_trans hg h
  | .break, h | .continue, h | .empty, h => nomatch h

theorem Stmt.functionsOf_trans (hg : g ∈ f.body.functions) :
    ∀ body : List Stmt, f ∈ Stmt.functionsOf body → g ∈ Stmt.functionsOf body
  | [], h => nomatch h
  | s :: rest, h => by
    rw [Stmt.functionsOf, List.mem_append] at *
    exact h.imp (s.functions_trans hg) (Stmt.functionsOf_trans hg rest)

theorem Stmt.functionsOf?_trans (hg : g ∈ f.body.functions) :
    ∀ s : Option Stmt, f ∈ Stmt.functionsOf? s → g ∈ Stmt.functionsOf? s
  | none, h => nomatch h
  | some s, h => s.functions_trans hg h

theorem Stmt.functionsOfDeclarators_trans (hg : g ∈ f.body.functions) :
    ∀ ds : List (String × Option Expr),
      f ∈ Stmt.functionsOfDeclarators ds → g ∈ Stmt.functionsOfDeclarators ds
  | [], h => nomatch h
  | (_, init) :: rest, h => by
    rw [Stmt.functionsOfDeclarators, List.mem_append] at *
    exact h.imp (Expr.functionsOf?_trans hg init) (Stmt.functionsOfDeclarators_trans hg rest)

theorem FunctionDef.functions_trans (hg : g ∈ f.body.functions) :
    ∀ d : FunctionDef, f ∈ d.functions → g ∈ d.functions
  | .mk _ _ body _, h => by
    rw [FunctionDef.functions, List.mem_cons] at *
    rcases h with rfl | h
    · exact .inr hg
    · exact .inr (body.functions_trans hg h)

theorem FunctionBody.functions_trans (hg : g ∈ f.body.functions) :
    ∀ b : FunctionBody, f ∈ b.functions → g ∈ b.functions
  | .expr e, h => e.functions_trans hg h
  | .block body, h => Stmt.functionsOf_trans hg body h

end
end Inner

/-- A function is one of those that are written where it is. -/
theorem FunctionDef.mem_functions (f : FunctionDef) : f ∈ f.functions := by
  obtain ⟨name, params, body, arrow⟩ := f
  exact List.mem_cons_self

theorem Stmt.mem_functions_of_declared {s : Stmt} {f : FunctionDef}
    (h : Eval.declaredFunction? s = some f) : f ∈ s.functions := by
  unfold Eval.declaredFunction? at h
  split at h <;> cases h <;> exact f.mem_functions

theorem Stmt.mem_functionsOf {body : List Stmt} {f : FunctionDef} :
    f ∈ Stmt.functionsOf body ↔ ∃ s ∈ body, f ∈ s.functions := by
  induction body with
  | nil => exact iff_of_false List.not_mem_nil fun ⟨_, h, _⟩ => List.not_mem_nil h
  | cons s rest ih =>
    rw [functionsOf, List.mem_append, ih]
    simp only [List.mem_cons, exists_eq_or_imp]

section Forall
variable {D : FunctionDef → Prop}

theorem Stmt.forall_functionsOf {body : List Stmt} :
    (∀ f ∈ Stmt.functionsOf body, D f) ↔ ∀ s ∈ body, ∀ f ∈ s.functions, D f := by
  simp only [Stmt.mem_functionsOf]
  exact ⟨fun h s hs f hf => h f ⟨s, hs, hf⟩, fun h f ⟨s, hs, hf⟩ => h s hs f hf⟩

theorem Stmt.forall_functionsOf? {s : Option Stmt} :
    (∀ f ∈ Stmt.functionsOf? s, D f) ↔ ∀ s' ∈ s, ∀ f ∈ s'.functions, D f := by
  cases s <;> simp [functionsOf?]

theorem Expr.forall_functionsOf {items : List Expr} :
    (∀ f ∈ Expr.functionsOf items, D f) ↔ ∀ e ∈ items, ∀ f ∈ e.functions, D f := by
  induction items with
  | nil => exact iff_of_true (List.forall_mem_nil _) (List.forall_mem_nil _)
  | cons e rest ih => rw [functionsOf, List.forall_mem_append, List.forall_mem_cons, ih]

theorem Expr.forall_functionsOf? {e : Option Expr} :
    (∀ f ∈ Expr.functionsOf? e, D f) ↔ ∀ e' ∈ e, ∀ f ∈ e'.functions, D f := by
  cases e <;> simp [functionsOf?]

theorem Expr.forall_functionsOfEntries {entries : List (String × Expr)} :
    (∀ f ∈ Expr.functionsOfEntries entries, D f) ↔
      ∀ p ∈ entries, ∀ f ∈ p.2.functions, D f := by
  induction entries with
  | nil => exact iff_of_true (List.forall_mem_nil _) (List.forall_mem_nil _)
  | cons p rest ih => rw [functionsOfEntries, List.forall_mem_append, List.forall_mem_cons, ih]

theorem TemplatePart.forall_functionsOf {parts : List TemplatePart} :
    (∀ f ∈ TemplatePart.functionsOf parts, D f) ↔
      ∀ e, .interpolation e ∈ parts → ∀ f ∈ e.functions, D f := by
  induction parts with
  | nil => exact iff_of_true (List.forall_mem_nil _) fun _ h => nomatch h
  | cons part rest ih =>
    cases part with
    | text s => simp [functionsOf, ih]
    | interpolation e =>
      rw [functionsOf, List.forall_mem_append, ih]
      simp [or_imp, forall_and]

theorem Stmt.forall_functionsOfDeclarators {ds : List (String × Option Expr)} :
    (∀ f ∈ Stmt.functionsOfDeclarators ds, D f) ↔
      ∀ p ∈ ds, ∀ e ∈ p.2, ∀ f ∈ e.functions, D f := by
  induction ds with
  | nil => exact iff_of_true (List.forall_mem_nil _) (List.forall_mem_nil _)
  | cons p rest ih =>
    rw [functionsOfDeclarators, List.forall_mem_append, List.forall_mem_cons, ih,
      Expr.forall_functionsOf?]

end Forall

/-! ## Expressions in trees -/

mutual

/-- The expressions in an expression, itself included. -/
def Expr.parts (e : Expr) : List Expr :=
  e :: match e with
  | .template parts => TemplatePart.partsOf parts
  | .array items | .sequence items => Expr.partsOf items
  | .object entries => Expr.partsOfEntries entries
  | .member object property _ => object.parts ++ property.parts
  | .call callee args _ | .construct callee args => callee.parts ++ Expr.partsOf args
  | .unary _ operand | .await operand | .update _ _ operand => operand.parts
  | .binary _ left right | .logical _ left right | .assign _ left right => left.parts ++ right.parts
  | .conditional test consequent alternative =>
    test.parts ++ consequent.parts ++ alternative.parts
  | .function definition => definition.parts
  | .number _ | .string _ | .bool _ | .null | .undefined | .name _ => []

/-- The expressions in expressions. -/
def Expr.partsOf : List Expr → List Expr
  | [] => []
  | e :: rest => e.parts ++ Expr.partsOf rest

/-- The expressions in an expression that may be missing. -/
def Expr.partsOf? : Option Expr → List Expr
  | none => []
  | some e => e.parts

/-- The expressions in the members of an object literal. -/
def Expr.partsOfEntries : List (String × Expr) → List Expr
  | [] => []
  | (_, e) :: rest => e.parts ++ Expr.partsOfEntries rest

/-- The expressions in the parts of a template literal. -/
def TemplatePart.partsOf : List TemplatePart → List Expr
  | [] => []
  | .text _ :: rest => TemplatePart.partsOf rest
  | .interpolation e :: rest => e.parts ++ TemplatePart.partsOf rest

/-- The expressions in a statement. -/
def Stmt.parts : Stmt → List Expr
  | .expr e | .throw e | .exportDefault e => e.parts
  | .decl _ declarators => Stmt.partsOfDeclarators declarators
  | .function definition => definition.parts
  | .return value => Expr.partsOf? value
  | .branch test consequent alternative =>
    test.parts ++ consequent.parts ++ Stmt.partsOf? alternative
  | .whileLoop test body | .doLoop body test => test.parts ++ body.parts
  | .forLoop init test update body =>
    Stmt.partsOf? init ++ Expr.partsOf? test ++ Expr.partsOf? update ++ body.parts
  | .forOf _ source body | .forIn _ source body => source.parts ++ body.parts
  | .block body => Stmt.partsOf body
  | .export inner => inner.parts
  | .break | .continue | .empty => []

/-- The expressions in statements. -/
def Stmt.partsOf : List Stmt → List Expr
  | [] => []
  | s :: rest => s.parts ++ Stmt.partsOf rest

/-- The expressions in a statement that may be missing. -/
def Stmt.partsOf? : Option Stmt → List Expr
  | none => []
  | some s => s.parts

/-- The expressions in declarators. -/
def Stmt.partsOfDeclarators : List (String × Option Expr) → List Expr
  | [] => []
  | (_, init) :: rest => Expr.partsOf? init ++ Stmt.partsOfDeclarators rest

/-- The expressions in a function. -/
def FunctionDef.parts : FunctionDef → List Expr
  | .mk _ _ body _ => body.parts

/-- The expressions in the body of a function. -/
def FunctionBody.parts : FunctionBody → List Expr
  | .expr e => e.parts
  | .block body => Stmt.partsOf body

end

theorem FunctionDef.parts_body (f : FunctionDef) : f.body.parts = f.parts := by
  cases f; rfl

/-! ## Functions in values -/

section Within
variable (D : FunctionDef → Prop) (N : Native → Prop)

mutual

/-- Every function of a script that the value holds has a definition in `D`, and every other one is
in `N`. -/
def Value.Within : Value → Prop
  | .array _ ⟨items⟩ => Value.ItemsWithin items
  | .object _ members => Value.MembersWithin members
  | .closure _ definition captured siblings =>
    D definition ∧ Value.MembersWithin captured ∧ Value.SiblingsWithin siblings
  | .native f => N f
  | .undefined | .null | .bool _ | .number _ | .string _ | .date _ => True

/-- All items are within the sets. -/
def Value.ItemsWithin : List Value → Prop
  | [] => True
  | v :: rest => v.Within ∧ Value.ItemsWithin rest

/-- All values of members are within the sets. -/
def Value.MembersWithin : List (String × Value) → Prop
  | [] => True
  | (_, v) :: rest => v.Within ∧ Value.MembersWithin rest

/-- All names of a module stand for what is within the sets. -/
def Value.SiblingsWithin : Siblings → Prop
  | [] => True
  | (_, b) :: rest => b.Within ∧ Value.SiblingsWithin rest

/-- What a name of a module stands for is within the sets. -/
def ModuleBinding.Within : ModuleBinding → Prop
  | .constant v => v.Within
  | .function definition captured => D definition ∧ Value.MembersWithin captured

end

variable {D N}

theorem Value.itemsWithin_iff {items : List Value} :
    ItemsWithin D N items ↔ ∀ v ∈ items, v.Within D N := by
  induction items with
  | nil => exact iff_of_true trivial (List.forall_mem_nil _)
  | cons v rest ih =>
    rw [List.forall_mem_cons, ← ih]
    exact Iff.rfl

theorem Value.membersWithin_iff {members : List (String × Value)} :
    MembersWithin D N members ↔ ∀ p ∈ members, p.2.Within D N := by
  induction members with
  | nil => exact iff_of_true trivial (List.forall_mem_nil _)
  | cons p rest ih =>
    rw [List.forall_mem_cons, ← ih]
    exact Iff.rfl

theorem Value.siblingsWithin_iff {siblings : Siblings} :
    SiblingsWithin D N siblings ↔ ∀ p ∈ siblings, p.2.Within D N := by
  induction siblings with
  | nil => exact iff_of_true trivial (List.forall_mem_nil _)
  | cons p rest ih =>
    rw [List.forall_mem_cons, ← ih]
    exact Iff.rfl

@[simp]
theorem Value.within_undefined : Value.undefined.Within D N :=
  trivial

@[simp]
theorem Value.within_null : Value.null.Within D N :=
  trivial

@[simp]
theorem Value.within_bool {b : Bool} : (Value.bool b).Within D N :=
  trivial

@[simp]
theorem Value.within_number {x : Float} : (Value.number x).Within D N :=
  trivial

@[simp]
theorem Value.within_string {s : String} : (Value.string s).Within D N :=
  trivial

@[simp]
theorem Value.within_date {i : Calendar.Instant} : (Value.date i).Within D N :=
  trivial

@[simp]
theorem Value.within_array {id : Identity} {items : Array Value} :
    (Value.array id items).Within D N ↔ ∀ v ∈ items, v.Within D N := by
  obtain ⟨items⟩ := items
  exact itemsWithin_iff.trans (by simp only [List.mem_toArray])

@[simp]
theorem Value.within_object {id : Identity} {members : List (String × Value)} :
    (Value.object id members).Within D N ↔ ∀ p ∈ members, p.2.Within D N :=
  membersWithin_iff

@[simp]
theorem Value.within_closure {id : Identity} {f : FunctionDef} {captured : List (String × Value)}
    {siblings : Siblings} : (Value.closure id f captured siblings).Within D N ↔
      D f ∧ (∀ p ∈ captured, p.2.Within D N) ∧ ∀ p ∈ siblings, p.2.Within D N :=
  and_congr_right' (and_congr membersWithin_iff siblingsWithin_iff)

@[simp]
theorem Value.within_native {f : Native} : (Value.native f).Within D N ↔ N f :=
  Iff.rfl

@[simp]
theorem ModuleBinding.within_constant {v : Value} :
    (ModuleBinding.constant v).Within D N ↔ v.Within D N :=
  Iff.rfl

@[simp]
theorem ModuleBinding.within_function {f : FunctionDef} {captured : List (String × Value)} :
    (ModuleBinding.function f captured).Within D N ↔
      D f ∧ ∀ p ∈ captured, p.2.Within D N :=
  and_congr_right' Value.membersWithin_iff

mutual

/-- Without a condition on functions every value is within the sets. -/
theorem Value.within_true : ∀ v : Value, v.Within (fun _ => True) (fun _ => True)
  | .array _ ⟨items⟩ => Value.itemsWithin_true items
  | .object _ members => Value.membersWithin_true members
  | .closure _ _ captured siblings =>
    ⟨trivial, Value.membersWithin_true captured, Value.siblingsWithin_true siblings⟩
  | .undefined | .null | .bool _ | .number _ | .string _ | .date _ | .native _ => trivial

theorem Value.itemsWithin_true :
    ∀ items : List Value, Value.ItemsWithin (fun _ => True) (fun _ => True) items
  | [] => trivial
  | v :: rest => ⟨v.within_true, Value.itemsWithin_true rest⟩

theorem Value.membersWithin_true :
    ∀ members : List (String × Value), Value.MembersWithin (fun _ => True) (fun _ => True) members
  | [] => trivial
  | (_, v) :: rest => ⟨v.within_true, Value.membersWithin_true rest⟩

theorem Value.siblingsWithin_true :
    ∀ siblings : Siblings, Value.SiblingsWithin (fun _ => True) (fun _ => True) siblings
  | [] => trivial
  | (_, b) :: rest => ⟨b.within_true, Value.siblingsWithin_true rest⟩

theorem ModuleBinding.within_true :
    ∀ b : ModuleBinding, b.Within (fun _ => True) (fun _ => True)
  | .constant v => v.within_true
  | .function _ captured => ⟨trivial, Value.membersWithin_true captured⟩

end

section Mono
variable {D D' : FunctionDef → Prop} {N N' : Native → Prop}

mutual

/-- A value that is within smaller sets is within larger ones. -/
theorem Value.Within.mono (hD : ∀ f, D f → D' f) (hN : ∀ f, N f → N' f) :
    ∀ v : Value, v.Within D N → v.Within D' N'
  | .array _ ⟨items⟩, h => Value.ItemsWithin.mono hD hN items h
  | .object _ members, h => Value.MembersWithin.mono hD hN members h
  | .closure _ f captured siblings, ⟨hf, hcaptured, hsiblings⟩ =>
    ⟨hD f hf, Value.MembersWithin.mono hD hN captured hcaptured,
      Value.SiblingsWithin.mono hD hN siblings hsiblings⟩
  | .native f, h => hN f h
  | .undefined, _ | .null, _ | .bool _, _ | .number _, _ | .string _, _ | .date _, _ => trivial

theorem Value.ItemsWithin.mono (hD : ∀ f, D f → D' f) (hN : ∀ f, N f → N' f) :
    ∀ items : List Value, Value.ItemsWithin D N items → Value.ItemsWithin D' N' items
  | [], _ => trivial
  | v :: rest, ⟨hv, hrest⟩ =>
    ⟨Value.Within.mono hD hN v hv, Value.ItemsWithin.mono hD hN rest hrest⟩

theorem Value.MembersWithin.mono (hD : ∀ f, D f → D' f) (hN : ∀ f, N f → N' f) :
    ∀ members : List (String × Value),
      Value.MembersWithin D N members → Value.MembersWithin D' N' members
  | [], _ => trivial
  | (_, v) :: rest, ⟨hv, hrest⟩ =>
    ⟨Value.Within.mono hD hN v hv, Value.MembersWithin.mono hD hN rest hrest⟩

theorem Value.SiblingsWithin.mono (hD : ∀ f, D f → D' f) (hN : ∀ f, N f → N' f) :
    ∀ siblings : Siblings, Value.SiblingsWithin D N siblings → Value.SiblingsWithin D' N' siblings
  | [], _ => trivial
  | (_, b) :: rest, ⟨hb, hrest⟩ =>
    ⟨ModuleBinding.Within.mono hD hN b hb, Value.SiblingsWithin.mono hD hN rest hrest⟩

theorem ModuleBinding.Within.mono (hD : ∀ f, D f → D' f) (hN : ∀ f, N f → N' f) :
    ∀ b : ModuleBinding, b.Within D N → b.Within D' N'
  | .constant v, h => Value.Within.mono hD hN v h
  | .function f captured, ⟨hf, hcaptured⟩ =>
    ⟨hD f hf, Value.MembersWithin.mono hD hN captured hcaptured⟩

end
end Mono

/-! ## What steps on values keep -/

/-- What is found under a key is one of the members. -/
theorem mem_of_lookup {α : Type} {key : String} {v : α} {members : List (String × α)}
    (h : members.lookup key = some v) : (key, v) ∈ members := by
  obtain ⟨before, after, hsplit, -⟩ := List.lookup_eq_some_iff.mp h
  simp [hsplit]

namespace Value

/-- A member found under its key is one of the members. -/
theorem within_lookup {members : List (String × Value)} {key : String} {v : Value}
    (h : ∀ p ∈ members, p.2.Within D N) (hv : members.lookup key = some v) : v.Within D N :=
  h (key, v) (mem_of_lookup hv)

theorem within_argument {args : List Value} (h : ∀ v ∈ args, v.Within D N) (i : Nat) :
    (argument args i).Within D N := by
  simp only [argument, List.getD_eq_getElem?_getD]
  cases hi : args[i]? with
  | none => simp
  | some v => exact h v (List.mem_of_getElem? hi)

end Value

/-- A member behind an update is the new one or was there before. -/
theorem mem_insertMember {α : Type} {key : String} {value : α} {members : List (String × α)}
    {p : String × α} (h : p ∈ Json.insertMember key value members) :
    p = (key, value) ∨ p ∈ members := by
  induction members with
  | nil => exact .inl (List.mem_singleton.mp h)
  | cons q rest ih =>
    unfold Json.insertMember at h
    split at h
    · rename_i hk
      rcases List.mem_cons.mp h with rfl | h
      · exact .inl (by simp [hk])
      · exact .inr (List.mem_cons_of_mem _ h)
    · rcases List.mem_cons.mp h with rfl | h
      · exact .inr List.mem_cons_self
      · exact (ih h).imp id (List.mem_cons_of_mem _)

theorem lookup_cons_ite {α : Type} (key : String) (value : α) (members : List (String × α))
    (name : String) : ((key, value) :: members).lookup name =
      if name = key then some value else members.lookup name := by
  rw [List.lookup_cons]
  by_cases hname : name = key
  · rw [if_pos hname, beq_iff_eq.mpr hname]
  · rw [if_neg hname, beq_eq_false_iff_ne.mpr hname]

/-- Behind an update a key stands for the new value, and every other one for what it stood for. -/
theorem lookup_insertMember {α : Type} (key : String) (value : α)
    (members : List (String × α)) (name : String) :
    (Json.insertMember key value members).lookup name =
      if name = key then some value else members.lookup name := by
  induction members with
  | nil => exact lookup_cons_ite key value [] name
  | cons p rest ih =>
    obtain ⟨k, v⟩ := p
    unfold Json.insertMember
    by_cases hk : k = key
    · rw [if_pos hk, lookup_cons_ite, lookup_cons_ite, hk]
      split <;> rfl
    · rw [if_neg hk, lookup_cons_ite, lookup_cons_ite, ih]
      by_cases hname : name = k
      · rw [if_pos hname, if_pos hname, if_neg (hname ▸ hk)]
      · rw [if_neg hname, if_neg hname]

/-- Members put onto others, one after the other, are among the ones or the others. -/
theorem forall_overlay {α : Type} {P : String × α → Prop} {onto members : List (String × α)}
    (ho : ∀ p ∈ onto, P p) (hm : ∀ p ∈ members, P p) :
    ∀ p ∈ members.foldl (fun ms (key, v) => Json.insertMember key v ms) onto, P p := by
  induction members generalizing onto with
  | nil => exact ho
  | cons p members ih =>
    obtain ⟨hp, hm⟩ := List.forall_mem_cons.mp hm
    refine ih (fun q hq => ?_) hm
    rcases mem_insertMember hq with rfl | hq
    · exact hp
    · exact ho q hq

/-- What a module binds and exports are values of its machine, or members of such values: whatever
holds of all values that the machine holds, and goes over to members, holds of them. -/
theorem Eval.forall_collect {P : Value → Prop}
    (hmembers : ∀ id members, P (.object id members) → ∀ p ∈ members, P p.2) {m : Machine}
    (hframes : ∀ frame ∈ m.current.frames, ∀ p ∈ frame, P p.2.value)
    (hdefault : ∀ v ∈ m.defaultExport, P v) :
    (∀ p ∈ (collect m).bindings, P p.2) ∧ ∀ p ∈ (collect m).exports, P p.2 := by
  have hbound : ∀ p ∈ (m.current.frames.getLast?.getD []).map fun q => (q.1, q.2.value),
      P p.2 := by
    intro p hp
    obtain ⟨q, hq, rfl⟩ := List.mem_map.mp hp
    cases hlast : m.current.frames.getLast? with
    | none => simp [hlast] at hq
    | some frame =>
      rw [hlast] at hq
      exact hframes frame (List.mem_of_getLast? hlast) q hq
  have hname : ∀ name, ∀ v ∈ List.lookup name ((m.current.frames.getLast?.getD []).map
      fun q => (q.1, q.2.value)), P v := fun name v hv => hbound (name, v) (mem_of_lookup hv)
  have hexported : ∀ v : Option Value, (∀ u ∈ v, P u) → ∀ p ∈ exportedMembers v, P p.2 := by
    rintro (_ | v) hv p hp
    · cases hp
    · cases v with
      | object id members => exact hmembers id members (hv _ rfl) p hp
      | _ => cases hp
  have hmodule : ∀ v : Option Value, (∀ u ∈ v, P u) → ∀ u ∈ moduleExports v, P u := by
    intro v hv u hu
    unfold moduleExports at hu
    split at hu
    · exact hmembers _ _ (hv _ rfl) _ (mem_of_lookup hu)
    · exact hv u hu
  unfold collect
  dsimp only
  refine ⟨fun p hp => hbound p (List.mem_filter.mp hp).1, ?_⟩
  refine forall_overlay (P := fun p => P p.2) (hexported _ (hmodule _ (hname _))) ?_
  refine List.forall_mem_append.mpr ⟨List.forall_mem_append.mpr ⟨?_, ?_⟩, ?_⟩
  · exact hexported _ (hname _)
  · intro p hp
    obtain ⟨name, -, hp⟩ := List.mem_filterMap.mp hp
    obtain ⟨v, hv, rfl⟩ := Option.map_eq_some_iff.mp hp
    exact hname name v hv
  · intro p hp
    obtain ⟨v, hv, rfl⟩ := Option.map_eq_some_iff.mp (Option.mem_toList.mp hp)
    exact hdefault v hv

/-! ## Global names -/

namespace Globals

theorem within_members (h : ∀ b, N (.builtin b)) (bs : List Builtin) :
    ∀ p ∈ bs.map member, p.2.Within D N := by
  intro p hp
  obtain ⟨b, -, rfl⟩ := List.mem_map.mp hp
  exact Value.within_native.mpr (h b)

theorem within_math (h : ∀ b, N (.builtin b)) : math.Within D N := by
  refine Value.within_object.mpr fun p hp => ?_
  rcases List.mem_append.mp hp with hp | hp
  · rcases List.mem_append.mp hp with hp | hp
    · simp only [mathConstants, List.mem_cons, List.not_mem_nil, or_false] at hp
      rcases hp with rfl | rfl | rfl | rfl | rfl <;> simp
    · obtain ⟨f, -, rfl⟩ := List.mem_map.mp hp
      exact Value.within_native.mpr (h (.math f))
  · exact within_members h _ p hp

/-- The modules that `require` gives hold no functions but built-in ones. -/
theorem within_modules (h : ∀ b, N (.builtin b)) : ∀ p ∈ modules, p.2.Within D N := by
  have hobject : ∀ (id : Identity) (bs : List Builtin),
      (Value.object id (bs.map member)).Within D N := fun id bs =>
    Value.within_object.mpr (within_members h bs)
  simp only [modules, List.forall_mem_cons]
  exact ⟨within_math h, hobject _ _, hobject _ _, hobject _ _, List.forall_mem_nil _⟩

/-- The global names stand for no functions but built-in ones. -/
theorem within_table (h : ∀ b, N (.builtin b)) : ∀ p ∈ table, p.2.Within D N := by
  have hobject : ∀ (id : Identity) (bs : List Builtin),
      (Value.object id (bs.map member)).Within D N := fun id bs =>
    Value.within_object.mpr (within_members h bs)
  refine List.forall_mem_append.mpr ⟨?_, within_members h _⟩
  simp only [List.forall_mem_cons]
  exact ⟨within_math h, hobject _ _, hobject _ _, by simp, by simp, by simp, hobject _ _,
    hobject _ _, List.forall_mem_nil _⟩

end Globals

/-! ## Functions in machines -/

/-- What a function captures is bound in its activation or was captured there. -/
theorem Eval.mem_snapshot {a : Activation} {p : String × Value} (hp : p ∈ snapshot a) :
    (∃ frame ∈ a.frames, ∃ q ∈ frame, p.2 = q.2.value) ∨ p ∈ a.captured := by
  have hfold : ∀ (entries found : List (String × Value)), p ∈ entries.foldl (fun found entry =>
      if (found.lookup entry.1).isSome then found else entry :: found) found →
        p ∈ entries ∨ p ∈ found := by
    intro entries
    induction entries with
    | nil => exact fun _ => .inr
    | cons entry rest ih =>
      intro found h
      rcases ih _ h with h | h
      · exact .inl (List.mem_cons_of_mem _ h)
      · dsimp only at h
        split at h
        · exact .inr h
        · rcases List.mem_cons.mp h with rfl | h
          · exact .inl List.mem_cons_self
          · exact .inr h
  rcases hfold _ [] hp with h | h
  · rcases List.mem_append.mp h with h | h
    · obtain ⟨frame, hframe, h⟩ := List.mem_flatMap.mp h
      obtain ⟨q, hq, rfl⟩ := List.mem_map.mp h
      exact .inl ⟨frame, hframe, q, hq, rfl⟩
    · exact .inr h
  · cases h

/-- In a new activation a name stands for the function itself or for an argument. -/
theorem Eval.mem_activationOf {self : Value} {f : FunctionDef} {captured : List (String × Value)}
    {siblings : Siblings} {args : List Value} {frame : Frame} {p : String × Binding}
    (hframe : frame ∈ (activationOf self f captured siblings args).frames) (hp : p ∈ frame) :
    p.2.value = self ∨ ∃ i, p.2.value = Value.argument args i := by
  have hparams : ∀ (params : List (String × Nat)) (frame : Frame),
      (∀ p ∈ frame, p.2.value = self ∨ ∃ i, p.2.value = Value.argument args i) →
      ∀ p ∈ params.foldl (fun frame param =>
        Json.insertMember param.1 ⟨Value.argument args param.2, false⟩ frame) frame,
          p.2.value = self ∨ ∃ i, p.2.value = Value.argument args i := by
    intro params
    induction params with
    | nil => exact fun _ h => h
    | cons param params ih =>
      refine fun frame h => ih _ fun p hp => ?_
      rcases mem_insertMember hp with rfl | hp
      · exact .inr ⟨_, rfl⟩
      · exact h p hp
  rw [List.mem_singleton.mp hframe] at hp
  refine hparams _ _ (fun q hq => ?_) p hp
  split at hq
  · rw [List.mem_singleton.mp hq]
    exact .inl rfl
  · cases hq

variable (D N)

/-- All values of an activation are within the sets. -/
structure Activation.Within (a : Activation) : Prop where
  frames : ∀ frame ∈ a.frames, ∀ p ∈ frame, p.2.value.Within D N
  captured : ∀ p ∈ a.captured, p.2.Within D N
  siblings : ∀ p ∈ a.siblings, p.2.Within D N

/-- All values that a machine holds are within the sets. -/
structure Machine.Within (m : Machine) : Prop where
  current : m.current.Within D N
  callers : ∀ a ∈ m.callers, a.Within D N
  completion : m.completion.Within D N
  defaultExport : ∀ v ∈ m.defaultExport, v.Within D N

/-- All values that an evaluation can read outside its machine are within the sets: those that the
read-only names stand for, and those that functions of the host answer with. -/
structure Context.Within (c : Context) : Prop where
  helpers : ∀ p ∈ c.scope.helpers, p.2.Within D N
  vars : ∀ p ∈ c.scope.vars, p.2.Within D N
  capabilities : ∀ p ∈ c.scope.capabilities, p.2.Within D N
  natives : ∀ id name arity args v, N (.host id name arity) → (∀ w ∈ args, w.Within D N) →
    c.host.natives name args = .ok v → v.Within D N

theorem Activation.within_true (a : Activation) :
    a.Within (fun _ => True) (fun _ => True) :=
  ⟨fun _ _ p _ => p.2.value.within_true, fun p _ => p.2.within_true, fun p _ => p.2.within_true⟩

theorem Machine.within_true (m : Machine) : m.Within (fun _ => True) (fun _ => True) :=
  ⟨m.current.within_true, fun a _ => a.within_true, m.completion.within_true,
    fun v _ => v.within_true⟩

theorem Context.within_true (c : Context) : c.Within (fun _ => True) (fun _ => True) :=
  ⟨fun p _ => p.2.within_true, fun p _ => p.2.within_true, fun p _ => p.2.within_true,
    fun _ _ _ _ v _ _ _ => v.within_true⟩

end Within

end Stencil.Script
