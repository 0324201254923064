import Stencil.Script.Eval

/-! # Trees in which statements are put into another order

`e.reorder π` is the tree `e` with every list of statements in it put into another order by `π`,
those in the bodies of its functions included; everything else stays as it is.  The order may be
chosen for each of the lists by the place where it stands (`Orders`).

The **names** of a tree are those that it reads or assigns, at any depth: those of its variables, but
not those under which it declares something (`Expr.names`, `Stmt.names`).
-/
namespace Stencil.Script

/-! ## Names -/

mutual

/-- The names that an expression reads or assigns. -/
def Expr.names : Expr → List String
  | .name x => [x]
  | .template parts => TemplatePart.namesOf parts
  | .array items | .sequence items => Expr.namesOf items
  | .object entries => Expr.namesOfEntries entries
  | .member object property _ => object.names ++ property.names
  | .call callee args _ | .construct callee args => callee.names ++ Expr.namesOf args
  | .unary _ operand | .await operand | .update _ _ operand => operand.names
  | .binary _ left right | .logical _ left right | .assign _ left right => left.names ++ right.names
  | .conditional test consequent alternative =>
    test.names ++ consequent.names ++ alternative.names
  | .function definition => definition.names
  | .number _ | .string _ | .bool _ | .null | .undefined => []

/-- The names that expressions read or assign. -/
def Expr.namesOf : List Expr → List String
  | [] => []
  | e :: rest => e.names ++ Expr.namesOf rest

/-- The names that an expression that may be missing reads or assigns. -/
def Expr.namesOf? : Option Expr → List String
  | none => []
  | some e => e.names

/-- The names that the members of an object literal read or assign. -/
def Expr.namesOfEntries : List (String × Expr) → List String
  | [] => []
  | (_, e) :: rest => e.names ++ Expr.namesOfEntries rest

/-- The names that the parts of a template literal read or assign. -/
def TemplatePart.namesOf : List TemplatePart → List String
  | [] => []
  | .text _ :: rest => TemplatePart.namesOf rest
  | .interpolation e :: rest => e.names ++ TemplatePart.namesOf rest

/-- The names that a statement reads or assigns. -/
def Stmt.names : Stmt → List String
  | .expr e | .throw e | .exportDefault e => e.names
  | .decl _ declarators => Stmt.namesOfDeclarators declarators
  | .function definition => definition.names
  | .return value => Expr.namesOf? value
  | .branch test consequent alternative =>
    test.names ++ consequent.names ++ Stmt.namesOf? alternative
  | .whileLoop test body | .doLoop body test => test.names ++ body.names
  | .forLoop init test update body =>
    Stmt.namesOf? init ++ Expr.namesOf? test ++ Expr.namesOf? update ++ body.names
  | .forOf _ source body | .forIn _ source body => source.names ++ body.names
  | .block body => Stmt.namesOf body
  | .export inner => inner.names
  | .break | .continue | .empty => []

/-- The names that statements read or assign. -/
def Stmt.namesOf : List Stmt → List String
  | [] => []
  | s :: rest => s.names ++ Stmt.namesOf rest

/-- The names that a statement that may be missing reads or assigns. -/
def Stmt.namesOf? : Option Stmt → List String
  | none => []
  | some s => s.names

/-- The names that declarators read or assign. -/
def Stmt.namesOfDeclarators : List (String × Option Expr) → List String
  | [] => []
  | (_, init) :: rest => Expr.namesOf? init ++ Stmt.namesOfDeclarators rest

/-- The names that the body of a function reads or assigns. -/
def FunctionDef.names : FunctionDef → List String
  | .mk _ _ body _ => body.names

/-- The names that the body of a function reads or assigns. -/
def FunctionBody.names : FunctionBody → List String
  | .expr e => e.names
  | .block body => Stmt.namesOf body

end

theorem Stmt.mem_namesOf {body : List Stmt} {x : String} :
    x ∈ Stmt.namesOf body ↔ ∃ s ∈ body, x ∈ s.names := by
  induction body with
  | nil => exact iff_of_false List.not_mem_nil fun ⟨_, h, _⟩ => List.not_mem_nil h
  | cons s rest ih =>
    rw [namesOf, List.mem_append, ih]
    simp only [List.mem_cons, exists_eq_or_imp]

/-! ## Another order -/

/-- For every place in a tree the order into which a list of statements is put that stands there.
Places are told apart by the parts of the tree that lead to them. -/
abbrev Orders := List Nat → List Stmt → List Stmt

namespace Orders

/-- The orders in one of the parts of a tree. -/
def inside (π : Orders) (part : Nat) : Orders :=
  fun place => π (part :: place)

/-- No list is put into another order. -/
def same : Orders :=
  fun _ body => body

@[simp]
theorem inside_same (part : Nat) : same.inside part = same := rfl

end Orders

mutual

/-- The expression with other orders of statements. -/
def Expr.reorder (π : Orders) : Expr → Expr
  | .template parts => .template (TemplatePart.reorderAll π parts)
  | .array items => .array (Expr.reorderAll π items)
  | .sequence items => .sequence (Expr.reorderAll π items)
  | .object entries => .object (Expr.reorderEntries π entries)
  | .member object property optional =>
    .member (object.reorder (π.inside 0)) (property.reorder (π.inside 1)) optional
  | .call callee args optional =>
    .call (callee.reorder (π.inside 0)) (Expr.reorderAll (π.inside 1) args) optional
  | .construct callee args =>
    .construct (callee.reorder (π.inside 0)) (Expr.reorderAll (π.inside 1) args)
  | .unary op operand => .unary op (operand.reorder π)
  | .await operand => .await (operand.reorder π)
  | .update op first operand => .update op first (operand.reorder π)
  | .binary op left right => .binary op (left.reorder (π.inside 0)) (right.reorder (π.inside 1))
  | .logical op left right => .logical op (left.reorder (π.inside 0)) (right.reorder (π.inside 1))
  | .assign op place value => .assign op (place.reorder (π.inside 0)) (value.reorder (π.inside 1))
  | .conditional test consequent alternative =>
    .conditional (test.reorder (π.inside 0)) (consequent.reorder (π.inside 1))
      (alternative.reorder (π.inside 2))
  | .function definition => .function (definition.reorder π)
  | .number x => .number x
  | .string s => .string s
  | .bool b => .bool b
  | .null => .null
  | .undefined => .undefined
  | .name x => .name x

/-- Expressions with other orders of statements. -/
def Expr.reorderAll (π : Orders) : List Expr → List Expr
  | [] => []
  | e :: rest => e.reorder (π.inside 0) :: Expr.reorderAll (π.inside 1) rest

/-- An expression that may be missing, with other orders of statements. -/
def Expr.reorder? (π : Orders) : Option Expr → Option Expr
  | none => none
  | some e => some (e.reorder π)

/-- The members of an object literal with other orders of statements. -/
def Expr.reorderEntries (π : Orders) : List (String × Expr) → List (String × Expr)
  | [] => []
  | (key, e) :: rest => (key, e.reorder (π.inside 0)) :: Expr.reorderEntries (π.inside 1) rest

/-- The parts of a template literal with other orders of statements. -/
def TemplatePart.reorderAll (π : Orders) : List TemplatePart → List TemplatePart
  | [] => []
  | .text s :: rest => .text s :: TemplatePart.reorderAll (π.inside 1) rest
  | .interpolation e :: rest =>
    .interpolation (e.reorder (π.inside 0)) :: TemplatePart.reorderAll (π.inside 1) rest

/-- The statement with other orders of the statements in it. -/
def Stmt.reorder (π : Orders) : Stmt → Stmt
  | .expr e => .expr (e.reorder π)
  | .throw e => .throw (e.reorder π)
  | .exportDefault e => .exportDefault (e.reorder π)
  | .decl kind declarators => .decl kind (Stmt.reorderDeclarators π declarators)
  | .function definition => .function (definition.reorder π)
  | .return value => .return (Expr.reorder? π value)
  | .branch test consequent alternative =>
    .branch (test.reorder (π.inside 0)) (consequent.reorder (π.inside 1))
      (Stmt.reorder? (π.inside 2) alternative)
  | .whileLoop test body => .whileLoop (test.reorder (π.inside 0)) (body.reorder (π.inside 1))
  | .doLoop body test => .doLoop (body.reorder (π.inside 0)) (test.reorder (π.inside 1))
  | .forLoop init test update body =>
    .forLoop (Stmt.reorder? (π.inside 0) init) (Expr.reorder? (π.inside 1) test)
      (Expr.reorder? (π.inside 2) update) (body.reorder (π.inside 3))
  | .forOf name source body =>
    .forOf name (source.reorder (π.inside 0)) (body.reorder (π.inside 1))
  | .forIn name source body =>
    .forIn name (source.reorder (π.inside 0)) (body.reorder (π.inside 1))
  | .block body => .block (π [] (Stmt.reorderAll π body))
  | .export inner => .export (inner.reorder π)
  | .break => .break
  | .continue => .continue
  | .empty => .empty

/-- Statements with other orders of the statements in each of them. -/
def Stmt.reorderAll (π : Orders) : List Stmt → List Stmt
  | [] => []
  | s :: rest => s.reorder (π.inside 0) :: Stmt.reorderAll (π.inside 1) rest

/-- A statement that may be missing, with other orders of the statements in it. -/
def Stmt.reorder? (π : Orders) : Option Stmt → Option Stmt
  | none => none
  | some s => some (s.reorder π)

/-- Declarators with other orders of statements. -/
def Stmt.reorderDeclarators (π : Orders) :
    List (String × Option Expr) → List (String × Option Expr)
  | [] => []
  | (name, init) :: rest =>
    (name, Expr.reorder? (π.inside 0) init) :: Stmt.reorderDeclarators (π.inside 1) rest

/-- The function with other orders of the statements in it. -/
def FunctionDef.reorder (π : Orders) : FunctionDef → FunctionDef
  | .mk name params body arrow => .mk name params (body.reorder π) arrow

/-- The body of a function with other orders of statements. -/
def FunctionBody.reorder (π : Orders) : FunctionBody → FunctionBody
  | .expr e => .expr (e.reorder π)
  | .block body => .block (π [] (Stmt.reorderAll π body))

end

/-- The statements of a program with other orders, their own included. -/
def Stmt.reorderList (π : Orders) (body : List Stmt) : List Stmt :=
  π [] (Stmt.reorderAll π body)

section
variable {π : Orders}

@[simp]
theorem FunctionDef.name_reorder (f : FunctionDef) : (f.reorder π).name = f.name := by
  cases f; rfl

@[simp]
theorem FunctionDef.params_reorder (f : FunctionDef) : (f.reorder π).params = f.params := by
  cases f; rfl

@[simp]
theorem FunctionDef.isArrow_reorder (f : FunctionDef) : (f.reorder π).isArrow = f.isArrow := by
  cases f; rfl

@[simp]
theorem FunctionDef.body_reorder (f : FunctionDef) : (f.reorder π).body = f.body.reorder π := by
  cases f; rfl

theorem FunctionDef.names_body (f : FunctionDef) : f.body.names = f.names := by
  cases f; rfl

theorem Eval.declaredFunction?_reorder (s : Stmt) :
    Eval.declaredFunction? (s.reorder π) = (Eval.declaredFunction? s).map (·.reorder π) := by
  cases s with
  | «export» inner => cases inner <;> rfl
  | _ => rfl

end

/-! ### No other order -/

mutual

theorem Expr.reorder_same : ∀ e : Expr, e.reorder .same = e
  | .template parts => by rw [Expr.reorder, TemplatePart.reorderAll_same parts]
  | .array items => by rw [Expr.reorder, Expr.reorderAll_same items]
  | .sequence items => by rw [Expr.reorder, Expr.reorderAll_same items]
  | .object entries => by rw [Expr.reorder, Expr.reorderEntries_same entries]
  | .member object property _ => by
    simp only [Expr.reorder, Orders.inside_same, object.reorder_same, property.reorder_same]
  | .call callee args _ => by
    simp only [Expr.reorder, Orders.inside_same, callee.reorder_same, Expr.reorderAll_same args]
  | .construct callee args => by
    simp only [Expr.reorder, Orders.inside_same, callee.reorder_same, Expr.reorderAll_same args]
  | .unary _ operand => by rw [Expr.reorder, operand.reorder_same]
  | .await operand => by rw [Expr.reorder, operand.reorder_same]
  | .update _ _ operand => by rw [Expr.reorder, operand.reorder_same]
  | .binary _ left right => by
    simp only [Expr.reorder, Orders.inside_same, left.reorder_same, right.reorder_same]
  | .logical _ left right => by
    simp only [Expr.reorder, Orders.inside_same, left.reorder_same, right.reorder_same]
  | .assign _ place value => by
    simp only [Expr.reorder, Orders.inside_same, place.reorder_same, value.reorder_same]
  | .conditional test consequent alternative => by
    simp only [Expr.reorder, Orders.inside_same, test.reorder_same, consequent.reorder_same,
      alternative.reorder_same]
  | .function definition => by rw [Expr.reorder, definition.reorder_same]
  | .number _ | .string _ | .bool _ | .null | .undefined | .name _ => rfl

theorem Expr.reorderAll_same : ∀ es : List Expr, Expr.reorderAll .same es = es
  | [] => rfl
  | e :: rest => by
    simp only [Expr.reorderAll, Orders.inside_same, e.reorder_same, Expr.reorderAll_same rest]

theorem Expr.reorder?_same : ∀ e : Option Expr, Expr.reorder? .same e = e
  | none => rfl
  | some e => by rw [Expr.reorder?, e.reorder_same]

theorem Expr.reorderEntries_same :
    ∀ entries : List (String × Expr), Expr.reorderEntries .same entries = entries
  | [] => rfl
  | (_, e) :: rest => by
    simp only [Expr.reorderEntries, Orders.inside_same, e.reorder_same,
      Expr.reorderEntries_same rest]

theorem TemplatePart.reorderAll_same :
    ∀ parts : List TemplatePart, TemplatePart.reorderAll .same parts = parts
  | [] => rfl
  | .text _ :: rest => by
    simp only [TemplatePart.reorderAll, Orders.inside_same, TemplatePart.reorderAll_same rest]
  | .interpolation e :: rest => by
    simp only [TemplatePart.reorderAll, Orders.inside_same, e.reorder_same,
      TemplatePart.reorderAll_same rest]

theorem Stmt.reorder_same : ∀ s : Stmt, s.reorder .same = s
  | .expr e => by rw [Stmt.reorder, e.reorder_same]
  | .throw e => by rw [Stmt.reorder, e.reorder_same]
  | .exportDefault e => by rw [Stmt.reorder, e.reorder_same]
  | .decl _ declarators => by rw [Stmt.reorder, Stmt.reorderDeclarators_same declarators]
  | .function definition => by rw [Stmt.reorder, definition.reorder_same]
  | .return value => by rw [Stmt.reorder, Expr.reorder?_same value]
  | .branch test consequent alternative => by
    simp only [Stmt.reorder, Orders.inside_same, test.reorder_same, consequent.reorder_same,
      Stmt.reorder?_same alternative]
  | .whileLoop test body => by
    simp only [Stmt.reorder, Orders.inside_same, test.reorder_same, body.reorder_same]
  | .doLoop body test => by
    simp only [Stmt.reorder, Orders.inside_same, body.reorder_same, test.reorder_same]
  | .forLoop init test update body => by
    simp only [Stmt.reorder, Orders.inside_same, Stmt.reorder?_same init, Expr.reorder?_same test,
      Expr.reorder?_same update,
      body.reorder_same]
  | .forOf _ source body => by
    simp only [Stmt.reorder, Orders.inside_same, source.reorder_same, body.reorder_same]
  | .forIn _ source body => by
    simp only [Stmt.reorder, Orders.inside_same, source.reorder_same, body.reorder_same]
  | .block body => by rw [Stmt.reorder, Stmt.reorderAll_same body, Orders.same]
  | .export inner => by rw [Stmt.reorder, inner.reorder_same]
  | .break | .continue | .empty => rfl

theorem Stmt.reorderAll_same : ∀ body : List Stmt, Stmt.reorderAll .same body = body
  | [] => rfl
  | s :: rest => by
    simp only [Stmt.reorderAll, Orders.inside_same, s.reorder_same, Stmt.reorderAll_same rest]

theorem Stmt.reorder?_same : ∀ s : Option Stmt, Stmt.reorder? .same s = s
  | none => rfl
  | some s => by rw [Stmt.reorder?, s.reorder_same]

theorem Stmt.reorderDeclarators_same :
    ∀ ds : List (String × Option Expr), Stmt.reorderDeclarators .same ds = ds
  | [] => rfl
  | (_, init) :: rest => by
    simp only [Stmt.reorderDeclarators, Orders.inside_same, Expr.reorder?_same init,
      Stmt.reorderDeclarators_same rest]

theorem FunctionDef.reorder_same : ∀ f : FunctionDef, f.reorder .same = f
  | .mk _ _ body _ => by rw [FunctionDef.reorder, body.reorder_same]

theorem FunctionBody.reorder_same : ∀ body : FunctionBody, body.reorder .same = body
  | .expr e => by rw [FunctionBody.reorder, e.reorder_same]
  | .block body => by rw [FunctionBody.reorder, Stmt.reorderAll_same body, Orders.same]

end

theorem Stmt.reorderList_same (body : List Stmt) : Stmt.reorderList .same body = body :=
  Stmt.reorderAll_same body

/-! ### The names in another order -/

/-- No order leaves a statement out. -/
def Orders.Keeps (π : Orders) : Prop :=
  ∀ place body, ∀ s ∈ body, s ∈ π place body

theorem Orders.Keeps.inside {π : Orders} (h : π.Keeps) (part : Nat) : (π.inside part).Keeps :=
  fun place => h (part :: place)

section
variable {x : String}

mutual

/-- Orders that leave no statement out leave no name out. -/
theorem Expr.mem_names_reorder {π : Orders} (hπ : π.Keeps) :
    ∀ e : Expr, x ∈ e.names → x ∈ (e.reorder π).names
  | .template parts, h => TemplatePart.mem_namesOf_reorder hπ parts h
  | .array items, h => Expr.mem_namesOf_reorder hπ items h
  | .sequence items, h => Expr.mem_namesOf_reorder hπ items h
  | .object entries, h => Expr.mem_namesOfEntries_reorder hπ entries h
  | .member object property _, h => by
    rw [Expr.reorder, Expr.names, List.mem_append]
    exact (List.mem_append.mp h).imp (object.mem_names_reorder (hπ.inside 0))
      (property.mem_names_reorder (hπ.inside 1))
  | .call callee args _, h => by
    rw [Expr.reorder, Expr.names, List.mem_append]
    exact (List.mem_append.mp h).imp (callee.mem_names_reorder (hπ.inside 0))
      (Expr.mem_namesOf_reorder (hπ.inside 1) args)
  | .construct callee args, h => by
    rw [Expr.reorder, Expr.names, List.mem_append]
    exact (List.mem_append.mp h).imp (callee.mem_names_reorder (hπ.inside 0))
      (Expr.mem_namesOf_reorder (hπ.inside 1) args)
  | .unary _ operand, h => operand.mem_names_reorder hπ h
  | .await operand, h => operand.mem_names_reorder hπ h
  | .update _ _ operand, h => operand.mem_names_reorder hπ h
  | .binary _ left right, h => by
    rw [Expr.reorder, Expr.names, List.mem_append]
    exact (List.mem_append.mp h).imp (left.mem_names_reorder (hπ.inside 0))
      (right.mem_names_reorder (hπ.inside 1))
  | .logical _ left right, h => by
    rw [Expr.reorder, Expr.names, List.mem_append]
    exact (List.mem_append.mp h).imp (left.mem_names_reorder (hπ.inside 0))
      (right.mem_names_reorder (hπ.inside 1))
  | .assign _ left right, h => by
    rw [Expr.reorder, Expr.names, List.mem_append]
    exact (List.mem_append.mp h).imp (left.mem_names_reorder (hπ.inside 0))
      (right.mem_names_reorder (hπ.inside 1))
  | .conditional test consequent alternative, h => by
    rw [Expr.names, List.mem_append, List.mem_append] at h
    rw [Expr.reorder, Expr.names, List.mem_append, List.mem_append]
    exact h.imp
      (Or.imp (test.mem_names_reorder (hπ.inside 0)) (consequent.mem_names_reorder (hπ.inside 1)))
      (alternative.mem_names_reorder (hπ.inside 2))
  | .function definition, h => definition.mem_names_reorder hπ h
  | .name _, h => h
  | .number _, h | .string _, h | .bool _, h | .null, h | .undefined, h => nomatch h

theorem Expr.mem_namesOf_reorder {π : Orders} (hπ : π.Keeps) :
    ∀ es : List Expr, x ∈ Expr.namesOf es → x ∈ Expr.namesOf (Expr.reorderAll π es)
  | [], h => nomatch h
  | e :: rest, h => by
    rw [Expr.reorderAll, Expr.namesOf, List.mem_append]
    exact (List.mem_append.mp h).imp (e.mem_names_reorder (hπ.inside 0))
      (Expr.mem_namesOf_reorder (hπ.inside 1) rest)

theorem Expr.mem_namesOf?_reorder {π : Orders} (hπ : π.Keeps) :
    ∀ e : Option Expr, x ∈ Expr.namesOf? e → x ∈ Expr.namesOf? (Expr.reorder? π e)
  | none, h => nomatch h
  | some e, h => e.mem_names_reorder hπ h

theorem Expr.mem_namesOfEntries_reorder {π : Orders} (hπ : π.Keeps) :
    ∀ entries : List (String × Expr),
    x ∈ Expr.namesOfEntries entries → x ∈ Expr.namesOfEntries (Expr.reorderEntries π entries)
  | [], h => nomatch h
  | (_, e) :: rest, h => by
    rw [Expr.reorderEntries, Expr.namesOfEntries, List.mem_append]
    exact (List.mem_append.mp h).imp (e.mem_names_reorder (hπ.inside 0))
      (Expr.mem_namesOfEntries_reorder (hπ.inside 1) rest)

theorem TemplatePart.mem_namesOf_reorder {π : Orders} (hπ : π.Keeps) : ∀ parts : List TemplatePart,
    x ∈ TemplatePart.namesOf parts → x ∈ TemplatePart.namesOf (TemplatePart.reorderAll π parts)
  | [], h => nomatch h
  | .text _ :: rest, h => TemplatePart.mem_namesOf_reorder (hπ.inside 1) rest h
  | .interpolation e :: rest, h => by
    rw [TemplatePart.reorderAll, TemplatePart.namesOf, List.mem_append]
    exact (List.mem_append.mp h).imp (e.mem_names_reorder (hπ.inside 0))
      (TemplatePart.mem_namesOf_reorder (hπ.inside 1) rest)

theorem Stmt.mem_names_reorder {π : Orders} (hπ : π.Keeps) :
    ∀ s : Stmt, x ∈ s.names → x ∈ (s.reorder π).names
  | .expr e, h => e.mem_names_reorder hπ h
  | .throw e, h => e.mem_names_reorder hπ h
  | .exportDefault e, h => e.mem_names_reorder hπ h
  | .decl _ declarators, h => Stmt.mem_namesOfDeclarators_reorder hπ declarators h
  | .function definition, h => definition.mem_names_reorder hπ h
  | .return value, h => Expr.mem_namesOf?_reorder hπ value h
  | .branch test consequent alternative, h => by
    rw [Stmt.names, List.mem_append, List.mem_append] at h
    rw [Stmt.reorder, Stmt.names, List.mem_append, List.mem_append]
    exact h.imp
      (Or.imp (test.mem_names_reorder (hπ.inside 0)) (consequent.mem_names_reorder (hπ.inside 1)))
      (Stmt.mem_namesOf?_reorder (hπ.inside 2) alternative)
  | .whileLoop test body, h => by
    rw [Stmt.reorder, Stmt.names, List.mem_append]
    exact (List.mem_append.mp h).imp (test.mem_names_reorder (hπ.inside 0))
      (body.mem_names_reorder (hπ.inside 1))
  | .doLoop body test, h => by
    rw [Stmt.reorder, Stmt.names, List.mem_append]
    exact (List.mem_append.mp h).imp (test.mem_names_reorder (hπ.inside 1))
      (body.mem_names_reorder (hπ.inside 0))
  | .forLoop init test update body, h => by
    rw [Stmt.names, List.mem_append, List.mem_append, List.mem_append] at h
    rw [Stmt.reorder, Stmt.names, List.mem_append, List.mem_append, List.mem_append]
    exact h.imp (Or.imp
      (Or.imp (Stmt.mem_namesOf?_reorder (hπ.inside 0) init)
        (Expr.mem_namesOf?_reorder (hπ.inside 1) test))
      (Expr.mem_namesOf?_reorder (hπ.inside 2) update)) (body.mem_names_reorder (hπ.inside 3))
  | .forOf _ source body, h => by
    rw [Stmt.reorder, Stmt.names, List.mem_append]
    exact (List.mem_append.mp h).imp (source.mem_names_reorder (hπ.inside 0))
      (body.mem_names_reorder (hπ.inside 1))
  | .forIn _ source body, h => by
    rw [Stmt.reorder, Stmt.names, List.mem_append]
    exact (List.mem_append.mp h).imp (source.mem_names_reorder (hπ.inside 0))
      (body.mem_names_reorder (hπ.inside 1))
  | .block body, h => by
    obtain ⟨s, hs, hx⟩ := Stmt.mem_namesOf.mp (Stmt.mem_namesOf_reorder hπ body h)
    exact Stmt.mem_namesOf.mpr ⟨s, hπ [] _ s hs, hx⟩
  | .export inner, h => inner.mem_names_reorder hπ h
  | .break, h | .continue, h | .empty, h => nomatch h

theorem Stmt.mem_namesOf_reorder {π : Orders} (hπ : π.Keeps) :
    ∀ body : List Stmt, x ∈ Stmt.namesOf body → x ∈ Stmt.namesOf (Stmt.reorderAll π body)
  | [], h => nomatch h
  | s :: rest, h => by
    rw [Stmt.reorderAll, Stmt.namesOf, List.mem_append]
    exact (List.mem_append.mp h).imp (s.mem_names_reorder (hπ.inside 0))
      (Stmt.mem_namesOf_reorder (hπ.inside 1) rest)

theorem Stmt.mem_namesOf?_reorder {π : Orders} (hπ : π.Keeps) :
    ∀ s : Option Stmt, x ∈ Stmt.namesOf? s → x ∈ Stmt.namesOf? (Stmt.reorder? π s)
  | none, h => nomatch h
  | some s, h => s.mem_names_reorder hπ h

theorem Stmt.mem_namesOfDeclarators_reorder {π : Orders} (hπ : π.Keeps) :
    ∀ ds : List (String × Option Expr),
    x ∈ Stmt.namesOfDeclarators ds →
      x ∈ Stmt.namesOfDeclarators (Stmt.reorderDeclarators π ds)
  | [], h => nomatch h
  | (_, init) :: rest, h => by
    rw [Stmt.reorderDeclarators, Stmt.namesOfDeclarators, List.mem_append]
    exact (List.mem_append.mp h).imp (Expr.mem_namesOf?_reorder (hπ.inside 0) init)
      (Stmt.mem_namesOfDeclarators_reorder (hπ.inside 1) rest)

theorem FunctionDef.mem_names_reorder {π : Orders} (hπ : π.Keeps) :
    ∀ f : FunctionDef, x ∈ f.names → x ∈ (f.reorder π).names
  | .mk _ _ body _, h => body.mem_names_reorder hπ h

theorem FunctionBody.mem_names_reorder {π : Orders} (hπ : π.Keeps) :
    ∀ body : FunctionBody, x ∈ body.names → x ∈ (body.reorder π).names
  | .expr e, h => e.mem_names_reorder hπ h
  | .block body, h => by
    obtain ⟨s, hs, hx⟩ := Stmt.mem_namesOf.mp (Stmt.mem_namesOf_reorder hπ body h)
    exact Stmt.mem_namesOf.mpr ⟨s, hπ [] _ s hs, hx⟩

end

end

/-! ### Statements in the places of others -/

/-- In the place of a statement stands the same one; or of two that declare functions the other one,
if both are exported or neither is. -/
inductive Stmt.SameSlot : Stmt → Stmt → Prop
  | same (s : Stmt) : SameSlot s s
  | function (f f' : FunctionDef) : SameSlot (.function f) (.function f')
  | exported (f f' : FunctionDef) : SameSlot (.export (.function f)) (.export (.function f'))

end Stencil.Script
