import Stencil.Proofs.Script.Content
import Stencil.Proofs.Script.Flows
import Stencil.Proofs.Script.Parser.Trees

/-! # Functions that promise no value

Whether a function can return a value is told from its text: it can if its body is one expression,
or if some `return` in it has a value (`FunctionDef.promisesValue`).  The check looks into branches,
loops and blocks, but not into exported statements.  It need not, because the parser lets only
functions and declarations be exported.

A statement is **silent** if it never ends with a value that is returned, on any machine, and
whatever calls do (`Stmt.IsSilent`).  Silence and the check go together in every tree that the
parser builds (`silence`, one rule for each form of syntax), hence **a function that promises no
value never answers with one** (`never_answers`), however it is called.
-/
namespace Stencil.Script

/-- An end that hands over no value. -/
def Flow.IsSilent (flow : Flow) : Prop :=
  ∀ v, flow = .returned v → v = .undefined

/-- The statement never ends with a value that is returned. -/
def Stmt.IsSilent (s : Stmt) : Prop :=
  ∀ call asBody, Eval.Yields (Eval.stmt call asBody s) Flow.IsSilent

/-- No call of the function gives a value but `undefined`, whatever it captured, whatever it is
given, and however many calls may still be nested. -/
def FunctionDef.NeverAnswers (f : FunctionDef) : Prop :=
  ∀ depth inner id captured siblings args,
    Eval.Yields (Eval.callWith (Eval.enter depth) inner (.closure id f captured siblings) args)
      (· = .undefined)

/-- If the function promises no value, it never answers. -/
def FunctionDef.KeepsPromise (f : FunctionDef) : Prop :=
  f.promisesValue = false → f.NeverAnswers

namespace Flow

theorem isSilent_normal : Flow.normal.IsSilent := nofun

theorem IsSilent.afterBody {flow : Flow} (h : flow.IsSilent) :
    ∀ f ∈ Eval.afterBody flow, f.IsSilent := by
  cases flow with
  | broken =>
    rintro _ ⟨⟩
    exact isSilent_normal
  | returned v =>
    rintro _ ⟨⟩
    exact h
  | normal | continued => nofun

end Flow

/-! ## Silent statements -/

namespace Stmt
open Stencil.Script.Flow (isSilent_normal)
variable {s body : Stmt}

theorem silent_expr (e : Expr) : (expr e).IsSilent :=
  fun _ _ => .stmt_expr isSilent_normal e

theorem silent_decl (kind : DeclKind) (declarators : List (String × Option Expr)) :
    (decl kind declarators).IsSilent :=
  fun _ _ => .stmt_decl isSilent_normal kind declarators

theorem silent_function (f : FunctionDef) : (function f).IsSilent :=
  fun _ _ => .stmt_function isSilent_normal f

theorem silent_empty : empty.IsSilent :=
  fun _ _ => .stmt_empty isSilent_normal

/-- Without a value, a function returns `undefined`. -/
theorem silent_return : (Stmt.return none).IsSilent := by
  refine fun _ _ => .stmt_return_none ?_
  rintro _ ⟨⟩
  rfl

theorem silent_break : Stmt.break.IsSilent :=
  fun _ _ => .stmt_break nofun

theorem silent_continue : Stmt.continue.IsSilent :=
  fun _ _ => .stmt_continue nofun

theorem silent_throw (e : Expr) : (throw e).IsSilent :=
  fun _ _ => .stmt_throw e

theorem silent_exportDefault (e : Expr) : (exportDefault e).IsSilent :=
  fun _ _ => .stmt_exportDefault isSilent_normal e

theorem silent_branch {test : Expr} {alternative : Option Stmt} (hs : s.IsSilent)
    (ha : ∀ a ∈ alternative, a.IsSilent) : (branch test s alternative).IsSilent :=
  fun call _ => .stmt_branch isSilent_normal (hs call true) fun a h => ha a h call true

/-- A loop lets out no value that its body does not. -/
theorem IsSilent.afterBody (hbody : body.IsSilent) (call : Call) :
    Eval.Yields (Eval.stmt call true body) fun flow => ∀ f ∈ Eval.afterBody flow, f.IsSilent :=
  (hbody call true).imp fun _ h => h.afterBody

theorem silent_whileLoop {test : Expr} (hbody : body.IsSilent) :
    (whileLoop test body).IsSilent :=
  fun call _ => .stmt_whileLoop isSilent_normal (hbody.afterBody call)

theorem silent_doLoop {test : Expr} (hbody : body.IsSilent) : (doLoop body test).IsSilent :=
  fun call _ => .stmt_doLoop isSilent_normal (hbody.afterBody call)

theorem silent_forLoop {init : Option Stmt} {test update : Option Expr} (hbody : body.IsSilent) :
    (forLoop init test update body).IsSilent :=
  fun call _ => .stmt_forLoop isSilent_normal (hbody.afterBody call)

theorem silent_forOf {name : String} {source : Expr} (hbody : body.IsSilent) :
    (forOf name source body).IsSilent :=
  fun call _ => .stmt_forOf isSilent_normal (hbody.afterBody call)

theorem silent_forIn {name : String} {source : Expr} (hbody : body.IsSilent) :
    (forIn name source body).IsSilent :=
  fun call _ => .stmt_forIn isSilent_normal (hbody.afterBody call)

theorem silent_block {ss : List Stmt} (hss : ∀ s ∈ ss, s.IsSilent) : (block ss).IsSilent :=
  fun call _ => .stmt_block isSilent_normal fun s hs => hss s hs call false

theorem silent_export (hs : s.IsSilent) : (Stmt.export s).IsSilent :=
  fun call _ => .stmt_export (hs call false)

theorem anyReturnsValue_eq_false {ss : List Stmt} :
    anyReturnsValue ss = false ↔ ∀ s ∈ ss, s.returnsValue = false := by
  induction ss with
  | nil => exact iff_of_true rfl (List.forall_mem_nil _)
  | cons s rest ih =>
    rw [anyReturnsValue, Bool.or_eq_false_iff, ih, List.forall_mem_cons]

end Stmt

/-- A function whose statements are silent never answers. -/
theorem FunctionDef.neverAnswers_of_silent {f : FunctionDef} {body : List Stmt}
    (hbody : f.body = .block body) (h : ∀ s ∈ body, s.IsSilent) : f.NeverAnswers := by
  have hstmts (call : Call) : Eval.Yields (Eval.bodyStmts call body) (· = .undefined) := by
    clear hbody
    induction body with
    | nil => exact .result rfl
    | cons s rest ih =>
      obtain ⟨hs, hrest⟩ := List.forall_mem_cons.mp h
      refine (hs call false).bind fun flow hflow => ?_
      split
      · exact .result (hflow _ rfl)
      · exact ih hrest
  intro depth inner id captured siblings args
  refine .seq fun _ => ?_
  cases depth with
  | zero => exact .seq fun _ => .fail
  | succ depth =>
    refine .between ?_
    rw [hbody]
    exact .seq fun _ => hstmts _

/-- **Silence and the check go together**: a statement without a `return` that has a value is
silent, and all functions in the tree keep their promises. -/
def TreeLogic.silence : TreeLogic where
  expr _ e := ∀ f ∈ e.functions, f.KeepsPromise
  definition _ f := ∀ g ∈ f.functions, g.KeepsPromise
  stmt _ s := (∀ f ∈ s.functions, f.KeepsPromise) ∧ (s.returnsValue = false → s.IsSilent)
  raiseExpr h := h
  raiseStmt h := h
  number _ _ h := nomatch h
  string _ _ h := nomatch h
  bool _ _ h := nomatch h
  null _ h := nomatch h
  undefined _ h := nomatch h
  name _ _ h := nomatch h
  template h := TemplatePart.forall_functionsOf.mpr h
  array h := Expr.forall_functionsOf.mpr h
  object h := Expr.forall_functionsOfEntries.mpr fun p hp => (h p hp).2
  member _ he hproperty := List.forall_mem_append.mpr ⟨he, hproperty⟩
  call _ hcallee hargs :=
    List.forall_mem_append.mpr ⟨hcallee, Expr.forall_functionsOf.mpr hargs⟩
  construct hcallee hargs :=
    List.forall_mem_append.mpr ⟨hcallee, Expr.forall_functionsOf.mpr hargs⟩
  unary _ h := h
  update _ _ h := h
  binary _ hleft hright := List.forall_mem_append.mpr ⟨hleft, hright⟩
  logical _ hleft hright := List.forall_mem_append.mpr ⟨hleft, hright⟩
  conditional htest hconsequent halternative :=
    List.forall_mem_append.mpr ⟨List.forall_mem_append.mpr ⟨htest, hconsequent⟩, halternative⟩
  assign _ htarget hvalue := List.forall_mem_append.mpr ⟨htarget, hvalue⟩
  function h := h
  await h := h
  sequence h := Expr.forall_functionsOf.mpr h
  bodyExpr _ _ _ h := List.forall_mem_cons.mpr ⟨nofun, h⟩
  bodyBlock _ _ _ h := by
    refine List.forall_mem_cons.mpr ⟨fun hnone => ?_, ?_⟩
    · have hnone := Stmt.anyReturnsValue_eq_false.mp hnone
      exact FunctionDef.neverAnswers_of_silent rfl fun s hs => (h s hs).2 (hnone s hs)
    · exact Stmt.forall_functionsOf.mpr fun s hs => (h s hs).1
  exprStmt h := ⟨h, fun _ => Stmt.silent_expr _⟩
  decl _ h :=
    ⟨Stmt.forall_functionsOfDeclarators.mpr fun p hp => (h p hp).2, fun _ => Stmt.silent_decl _ _⟩
  functionStmt h := ⟨h, fun _ => Stmt.silent_function _⟩
  returnStmt {_ value} h := by
    refine ⟨Expr.forall_functionsOf?.mpr h, fun hnone => ?_⟩
    cases value with
    | none => exact Stmt.silent_return
    | some e => cases hnone
  branch {_ _ _ alternative} htest hconsequent halternative := by
    have hfunctions := Stmt.forall_functionsOf?.mpr fun s hs => (halternative s hs).1
    refine ⟨List.forall_mem_append.mpr
      ⟨List.forall_mem_append.mpr ⟨htest, hconsequent.1⟩, hfunctions⟩, fun hnone => ?_⟩
    cases alternative with
    | none => exact Stmt.silent_branch (hconsequent.2 hnone) nofun
    | some s =>
      obtain ⟨hc, ha⟩ := Bool.or_eq_false_iff.mp hnone
      refine Stmt.silent_branch (hconsequent.2 hc) ?_
      rintro _ ⟨⟩
      exact (halternative s rfl).2 ha
  whileLoop htest hbody :=
    ⟨List.forall_mem_append.mpr ⟨htest, hbody.1⟩, fun h => Stmt.silent_whileLoop (hbody.2 h)⟩
  doLoop hbody htest :=
    ⟨List.forall_mem_append.mpr ⟨htest, hbody.1⟩, fun h => Stmt.silent_doLoop (hbody.2 h)⟩
  forLoop hinit htest hupdate hbody := by
    have hinit := Stmt.forall_functionsOf?.mpr fun s hs => (hinit s hs).1
    have htest := Expr.forall_functionsOf?.mpr htest
    have hupdate := Expr.forall_functionsOf?.mpr hupdate
    refine ⟨List.forall_mem_append.mpr ⟨List.forall_mem_append.mpr
      ⟨List.forall_mem_append.mpr ⟨hinit, htest⟩, hupdate⟩, hbody.1⟩, fun h => ?_⟩
    exact Stmt.silent_forLoop (hbody.2 h)
  forOf _ hsource hbody :=
    ⟨List.forall_mem_append.mpr ⟨hsource, hbody.1⟩, fun h => Stmt.silent_forOf (hbody.2 h)⟩
  forIn _ hsource hbody :=
    ⟨List.forall_mem_append.mpr ⟨hsource, hbody.1⟩, fun h => Stmt.silent_forIn (hbody.2 h)⟩
  blockStmt h := by
    refine ⟨Stmt.forall_functionsOf.mpr fun s hs => (h s hs).1, fun hnone => ?_⟩
    have hnone := Stmt.anyReturnsValue_eq_false.mp hnone
    exact Stmt.silent_block fun s hs => (h s hs).2 (hnone s hs)
  breakStmt := ⟨nofun, fun _ => Stmt.silent_break⟩
  continueStmt := ⟨nofun, fun _ => Stmt.silent_continue⟩
  throwStmt h := ⟨h, fun _ => Stmt.silent_throw _⟩
  exportFunction h := ⟨h.1, fun _ => Stmt.silent_export (Stmt.silent_function _)⟩
  exportDecl h := ⟨h.1, fun _ => Stmt.silent_export (Stmt.silent_decl _ _)⟩
  exportDefault h := ⟨h, fun _ => Stmt.silent_exportDefault _⟩
  emptyStmt := ⟨nofun, fun _ => Stmt.silent_empty⟩

/-- The functions of a script keep their promises, and so do those of a helper or a module. -/
theorem FunctionDef.keepsPromise {source : String} {body : List Stmt}
    (h : parseProgram source = .ok body ∨ parseDeclarations source = .ok body) {f : FunctionDef}
    (hf : f ∈ Stmt.functionsOf body) : f.KeepsPromise := by
  obtain ⟨s, hs, hf⟩ := Stmt.mem_functionsOf.mp hf
  rcases h with h | h
  · exact (TreeLogic.silence.ofProgram (fun _ _ _ _ => trivial) h s hs).1 f hf
  · exact (TreeLogic.silence.ofDeclarations (fun _ _ _ _ => trivial) h s hs).1 f hf

end Stencil.Script
