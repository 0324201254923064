import Stencil.Proofs.Script.Parser.Trees

/-! # The texts in a tree

The **texts** of a tree are the names in it, those of members and of keys in object literals, and
its strings (`Expr.texts`, `Stmt.texts`).  The pieces of text in template literals are not among
them.

Each of them is the text of a word, of a string or of a number.  So what holds of the texts of all
tokens, those in interpolations included, holds of the texts of the trees that parsers build
(`TreeLogic.texts`).
-/
namespace Stencil.Script

mutual

/-- The texts in an expression. -/
def Expr.texts : Expr → List String
  | .string s => [s]
  | .name x => [x]
  | .template parts => TemplatePart.textsOf parts
  | .array items | .sequence items => Expr.textsOf items
  | .object entries => Expr.textsOfEntries entries
  | .member object property _ => object.texts ++ property.texts
  | .call callee args _ | .construct callee args => callee.texts ++ Expr.textsOf args
  | .unary _ operand | .await operand | .update _ _ operand => operand.texts
  | .binary _ left right | .logical _ left right | .assign _ left right => left.texts ++ right.texts
  | .conditional test consequent alternative =>
    test.texts ++ consequent.texts ++ alternative.texts
  | .function definition => definition.texts
  | .number _ | .bool _ | .null | .undefined => []

/-- The texts in expressions. -/
def Expr.textsOf : List Expr → List String
  | [] => []
  | e :: rest => e.texts ++ Expr.textsOf rest

/-- The texts in an expression that may be missing. -/
def Expr.textsOf? : Option Expr → List String
  | none => []
  | some e => e.texts

/-- The keys of an object literal and the texts in its members. -/
def Expr.textsOfEntries : List (String × Expr) → List String
  | [] => []
  | (key, e) :: rest => key :: (e.texts ++ Expr.textsOfEntries rest)

/-- The texts in the interpolations of a template literal. -/
def TemplatePart.textsOf : List TemplatePart → List String
  | [] => []
  | .text _ :: rest => TemplatePart.textsOf rest
  | .interpolation e :: rest => e.texts ++ TemplatePart.textsOf rest

/-- The texts in a statement. -/
def Stmt.texts : Stmt → List String
  | .expr e | .throw e | .exportDefault e => e.texts
  | .decl _ declarators => Stmt.textsOfDeclarators declarators
  | .function definition => definition.texts
  | .return value => Expr.textsOf? value
  | .branch test consequent alternative =>
    test.texts ++ consequent.texts ++ Stmt.textsOf? alternative
  | .whileLoop test body | .doLoop body test => test.texts ++ body.texts
  | .forLoop init test update body =>
    Stmt.textsOf? init ++ Expr.textsOf? test ++ Expr.textsOf? update ++ body.texts
  | .forOf name source body | .forIn name source body => name :: (source.texts ++ body.texts)
  | .block body => Stmt.textsOf body
  | .export inner => inner.texts
  | .break | .continue | .empty => []

/-- The texts in statements. -/
def Stmt.textsOf : List Stmt → List String
  | [] => []
  | s :: rest => s.texts ++ Stmt.textsOf rest

/-- The texts in a statement that may be missing. -/
def Stmt.textsOf? : Option Stmt → List String
  | none => []
  | some s => s.texts

/-- The names that are declared and the texts in their values. -/
def Stmt.textsOfDeclarators : List (String × Option Expr) → List String
  | [] => []
  | (name, init) :: rest => name :: (Expr.textsOf? init ++ Stmt.textsOfDeclarators rest)

/-- The names of a function and of its parameters, and the texts in its body. -/
def FunctionDef.texts : FunctionDef → List String
  | .mk name params body _ => name.toList ++ params ++ body.texts

/-- The texts in the body of a function. -/
def FunctionBody.texts : FunctionBody → List String
  | .expr e => e.texts
  | .block body => Stmt.textsOf body

end

section Forall
variable {T : String → Prop}

theorem Expr.forall_textsOf {items : List Expr} :
    (∀ t ∈ Expr.textsOf items, T t) ↔ ∀ e ∈ items, ∀ t ∈ e.texts, T t := by
  induction items with
  | nil => exact iff_of_true (List.forall_mem_nil _) (List.forall_mem_nil _)
  | cons e rest ih => rw [textsOf, List.forall_mem_append, List.forall_mem_cons, ih]

theorem Expr.forall_textsOf? {e : Option Expr} :
    (∀ t ∈ Expr.textsOf? e, T t) ↔ ∀ e' ∈ e, ∀ t ∈ e'.texts, T t := by
  cases e <;> simp [textsOf?]

theorem Expr.forall_textsOfEntries {entries : List (String × Expr)} :
    (∀ t ∈ Expr.textsOfEntries entries, T t) ↔
      ∀ p ∈ entries, T p.1 ∧ ∀ t ∈ p.2.texts, T t := by
  induction entries with
  | nil => exact iff_of_true (List.forall_mem_nil _) (List.forall_mem_nil _)
  | cons p rest ih =>
    rw [textsOfEntries, List.forall_mem_cons, List.forall_mem_append, List.forall_mem_cons, ih,
      and_assoc]

theorem TemplatePart.forall_textsOf {parts : List TemplatePart} :
    (∀ t ∈ TemplatePart.textsOf parts, T t) ↔
      ∀ e, .interpolation e ∈ parts → ∀ t ∈ e.texts, T t := by
  induction parts with
  | nil => exact iff_of_true (List.forall_mem_nil _) fun _ h => nomatch h
  | cons part rest ih =>
    cases part with
    | text s => simp [textsOf, ih]
    | interpolation e =>
      rw [textsOf, List.forall_mem_append, ih]
      simp [or_imp, forall_and]

theorem Stmt.forall_textsOf {body : List Stmt} :
    (∀ t ∈ Stmt.textsOf body, T t) ↔ ∀ s ∈ body, ∀ t ∈ s.texts, T t := by
  induction body with
  | nil => exact iff_of_true (List.forall_mem_nil _) (List.forall_mem_nil _)
  | cons s rest ih => rw [textsOf, List.forall_mem_append, List.forall_mem_cons, ih]

theorem Stmt.forall_textsOf? {s : Option Stmt} :
    (∀ t ∈ Stmt.textsOf? s, T t) ↔ ∀ s' ∈ s, ∀ t ∈ s'.texts, T t := by
  cases s <;> simp [textsOf?]

theorem Stmt.forall_textsOfDeclarators {ds : List (String × Option Expr)} :
    (∀ t ∈ Stmt.textsOfDeclarators ds, T t) ↔
      ∀ p ∈ ds, T p.1 ∧ ∀ e ∈ p.2, ∀ t ∈ e.texts, T t := by
  induction ds with
  | nil => exact iff_of_true (List.forall_mem_nil _) (List.forall_mem_nil _)
  | cons p rest ih =>
    rw [textsOfDeclarators, List.forall_mem_cons, List.forall_mem_append, List.forall_mem_cons, ih,
      Expr.forall_textsOf?, and_assoc]

theorem FunctionDef.forall_texts {name : Option String} {params : List String} {arrow : Bool}
    {body : FunctionBody} (hname : ∀ x ∈ name, T x) (hparams : ∀ x ∈ params, T x)
    (hbody : ∀ t ∈ body.texts, T t) :
    ∀ t ∈ (FunctionDef.mk name params body arrow).texts, T t :=
  List.forall_mem_append.mpr
    ⟨List.forall_mem_append.mpr ⟨fun x hx => hname x (Option.mem_toList.mp hx), hparams⟩, hbody⟩

end Forall

/-- **The texts in a tree are texts of tokens**: what the tokens say of their texts holds of those
of the trees. -/
def TreeLogic.texts (token : TokenKind → Prop) (text : String → Prop)
    (ofWord : ∀ {w}, token (.word w) → text w) (ofString : ∀ {s}, token (.string s) → text s)
    (ofNumber : ∀ x, text (Number.text x))
    (ofSource : ∀ {chunks s o ts}, token (.template chunks) → .source s o ∈ chunks →
      tokenize s = .ok ts → ∀ t ∈ ts, token t.kind) : TreeLogic where
  expr _ e := ∀ t ∈ e.texts, text t
  definition _ f := ∀ t ∈ f.texts, text t
  stmt _ s := ∀ t ∈ s.texts, text t
  token := token
  text := text
  ofWord := ofWord
  ofString := ofString
  ofNumber _ := ofNumber _
  ofSource := ofSource
  raiseExpr h := h
  raiseStmt h := h
  number _ := nofun
  string h := List.forall_mem_singleton.mpr h
  bool _ := nofun
  null := nofun
  undefined := nofun
  name h := List.forall_mem_singleton.mpr h
  template h := TemplatePart.forall_textsOf.mpr h
  array h := Expr.forall_textsOf.mpr h
  object h := Expr.forall_textsOfEntries.mpr h
  member _ he hproperty := List.forall_mem_append.mpr ⟨he, hproperty⟩
  call _ hcallee hargs := List.forall_mem_append.mpr ⟨hcallee, Expr.forall_textsOf.mpr hargs⟩
  construct hcallee hargs := List.forall_mem_append.mpr ⟨hcallee, Expr.forall_textsOf.mpr hargs⟩
  unary _ h := h
  update _ _ h := h
  binary _ hleft hright := List.forall_mem_append.mpr ⟨hleft, hright⟩
  logical _ hleft hright := List.forall_mem_append.mpr ⟨hleft, hright⟩
  conditional htest hconsequent halternative :=
    List.forall_mem_append.mpr ⟨List.forall_mem_append.mpr ⟨htest, hconsequent⟩, halternative⟩
  assign _ htarget hvalue := List.forall_mem_append.mpr ⟨htarget, hvalue⟩
  function h := h
  await h := h
  sequence h := Expr.forall_textsOf.mpr h
  bodyExpr _ hname hparams h := FunctionDef.forall_texts hname hparams h
  bodyBlock _ hname hparams h := FunctionDef.forall_texts hname hparams (Stmt.forall_textsOf.mpr h)
  exprStmt h := h
  decl _ h := Stmt.forall_textsOfDeclarators.mpr h
  functionStmt h := h
  returnStmt h := Expr.forall_textsOf?.mpr h
  branch htest hconsequent halternative := List.forall_mem_append.mpr
    ⟨List.forall_mem_append.mpr ⟨htest, hconsequent⟩, Stmt.forall_textsOf?.mpr halternative⟩
  whileLoop htest hbody := List.forall_mem_append.mpr ⟨htest, hbody⟩
  doLoop hbody htest := List.forall_mem_append.mpr ⟨htest, hbody⟩
  forLoop hinit htest hupdate hbody := List.forall_mem_append.mpr
    ⟨List.forall_mem_append.mpr ⟨List.forall_mem_append.mpr ⟨Stmt.forall_textsOf?.mpr hinit,
      Expr.forall_textsOf?.mpr htest⟩, Expr.forall_textsOf?.mpr hupdate⟩, hbody⟩
  forOf hname hsource hbody :=
    List.forall_mem_cons.mpr ⟨hname, List.forall_mem_append.mpr ⟨hsource, hbody⟩⟩
  forIn hname hsource hbody :=
    List.forall_mem_cons.mpr ⟨hname, List.forall_mem_append.mpr ⟨hsource, hbody⟩⟩
  blockStmt h := Stmt.forall_textsOf.mpr h
  breakStmt := nofun
  continueStmt := nofun
  throwStmt h := h
  exportFunction h := h
  exportDecl h := h
  exportDefault h := h
  emptyStmt := nofun

end Stencil.Script
