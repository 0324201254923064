import Stencil.Proofs.Script.Steps

/-! # How statements end

A step **yields** a property if all its results have it, on every machine and whatever calls do
(`Eval.Yields`).  For each form of statements a rule says what has to be known of the ends of the
statements in it, so that all its own ends have a property.  A loop lets out only what `afterBody`
makes of the ends of its body.
-/
namespace Stencil.Script.Eval
variable {α β : Type} {P Q : α → Prop} {R : β → Prop}

/-- Every result of the step has the property, on all machines. -/
def Yields (x : Eval α) (Q : α → Prop) : Prop :=
  ∀ c m a, (x.outcome c m).1 = .ok a → Q a

namespace Yields
variable {x : Eval α} {f : α → Eval β}

theorem of_forall (h : ∀ a, Q a) : Yields x Q :=
  fun _ _ a _ => h a

theorem imp (hx : Yields x P) (h : ∀ a, P a → Q a) : Yields x Q :=
  fun c m a ha => h a (hx c m a ha)

theorem result {a : α} (h : Q a) : Yields (pure a) Q := by
  rintro c m _ ⟨⟩
  exact h

theorem fail {e : ScriptError} : Yields (throw e) Q :=
  fun _ _ _ h => nomatch h

theorem bind (hx : Yields x P) (hf : ∀ a, P a → Yields (f a) R) : Yields (x >>= f) R := by
  intro c m b h
  rw [outcome_bind] at h
  rcases hx' : x.outcome c m with ⟨_ | a, m'⟩ <;> rw [hx'] at h
  · cases h
  · exact hf a (hx c m a (congrArg Prod.fst hx')) c m' b h

/-- The results of the first step do not matter. -/
theorem seq (hf : ∀ a, Yields (f a) R) : Yields (x >>= f) R :=
  bind (of_forall (Q := fun _ => True) fun _ => trivial) fun a _ => hf a

theorem between {before after : Machine → Machine} (hx : Yields x Q) :
    Yields (Eval.between before after x) Q := by
  intro c m a h
  rw [outcome_between] at h
  exact hx c _ a h

theorem withFrame (hx : Yields x Q) : Yields (Eval.withFrame x) Q :=
  between hx

end Yields

/-! ## Statements -/

namespace Yields
variable {Q : Flow → Prop} {x : Eval Flow} {call : Call} {asBody : Bool}

theorem framed (hx : Yields x Q) : Yields (Eval.framed asBody x) Q := by
  unfold Eval.framed
  split
  · exact withFrame (seq fun _ => hx)
  · exact seq fun _ => hx

theorem stmt_expr (hnormal : Q .normal) (e : Expr) : Yields (stmt call asBody (.expr e)) Q := by
  unfold stmt
  exact .framed (.seq fun v => .seq fun _ => .result hnormal)

theorem stmt_decl (hnormal : Q .normal) (kind : DeclKind)
    (declarators : List (String × Option Expr)) :
    Yields (stmt call asBody (.decl kind declarators)) Q := by
  unfold stmt
  exact .framed (.seq fun _ => .result hnormal)

theorem stmt_function (hnormal : Q .normal) (f : FunctionDef) :
    Yields (stmt call asBody (.function f)) Q := by
  unfold stmt
  exact .framed (.result hnormal)

theorem stmt_empty (hnormal : Q .normal) : Yields (stmt call asBody .empty) Q := by
  unfold stmt
  exact .framed (.result hnormal)

theorem stmt_return_none (h : Q (.returned .undefined)) :
    Yields (stmt call asBody (.return none)) Q := by
  unfold stmt
  exact .framed (.result h)

theorem stmt_return_some (h : ∀ v, Q (.returned v)) (e : Expr) :
    Yields (stmt call asBody (.return (some e))) Q := by
  unfold stmt
  exact .framed (.seq fun v => .result (h v))

theorem stmt_break (h : Q .broken) : Yields (stmt call asBody .break) Q := by
  unfold stmt
  exact .framed (.result h)

theorem stmt_continue (h : Q .continued) : Yields (stmt call asBody .continue) Q := by
  unfold stmt
  exact .framed (.result h)

theorem stmt_throw (e : Expr) : Yields (stmt call asBody (.throw e)) Q := by
  unfold stmt
  exact .framed (.seq fun _ => .fail)

theorem stmt_exportDefault (hnormal : Q .normal) (e : Expr) :
    Yields (stmt call asBody (.exportDefault e)) Q := by
  unfold stmt
  exact .framed (.seq fun v => .seq fun _ => .result hnormal)

section Nested
variable {s : Stmt} {body : List Stmt}

theorem stmt_branch {test : Expr} {alternative : Option Stmt} (hnormal : Q .normal)
    (hs : Yields (stmt call true s) Q) (ha : ∀ a ∈ alternative, Yields (stmt call true a) Q) :
    Yields (stmt call asBody (.branch test s alternative)) Q := by
  unfold stmt
  refine .framed (.seq fun v => ?_)
  split
  · exact hs
  · split
    · exact ha _ rfl
    · exact .result hnormal

theorem stmt_export (hs : Yields (stmt call false s) Q) :
    Yields (stmt call asBody (.export s)) Q := by
  unfold stmt
  exact .framed (.seq fun _ => hs)

theorem stmts (hnormal : Q .normal) (hbody : ∀ s ∈ body, Yields (stmt call false s) Q) :
    Yields (Eval.stmts call body) Q := by
  induction body with
  | nil => exact .result hnormal
  | cons s rest ih =>
    obtain ⟨hs, hrest⟩ := List.forall_mem_cons.mp hbody
    refine hs.bind fun flow hflow => ?_
    split
    · exact ih hrest
    · exact .result hflow

theorem stmt_block (hnormal : Q .normal) (hbody : ∀ s ∈ body, Yields (stmt call false s) Q) :
    Yields (stmt call asBody (.block body)) Q := by
  unfold stmt
  have hframe : Yields (Eval.withFrame do hoist body; Eval.stmts call body) Q :=
    .withFrame (.seq fun _ => .stmts hnormal hbody)
  cases asBody with
  | true => exact hframe
  | false => exact .seq fun _ => hframe

end Nested

/-! ## Loops -/

section Loops
variable {body : Stmt} {test : Expr}

/-- What all turns of a loop yield, the loop yields. -/
theorem loop {go : Eval Bool} {turn : Eval (Option Flow)} (hnormal : Q .normal)
    (hturn : Yields turn fun flow => ∀ f ∈ flow, Q f) : Yields (Eval.loop go turn) Q := by
  have hturns (turns : Nat) : Yields (repeatTurns go turn turns) Q := by
    induction turns with
    | zero => exact seq fun _ => fail
    | succ turns ih =>
      refine seq fun more => ?_
      split
      · refine seq fun _ => hturn.bind fun flow hflow => ?_
        split
        · exact result (hflow _ rfl)
        · exact ih
      · exact result hnormal
  exact seq fun c => hturns _

theorem iterate (hnormal : Q .normal) (hx : Yields x fun flow => ∀ f ∈ afterBody flow, Q f)
    (name : String) (items : List Value) : Yields (Eval.iterate name x items) Q := by
  induction items with
  | nil => exact .result hnormal
  | cons item items ih =>
    have hturn : Yields (Eval.withFrame do declare name item; x)
        fun flow => ∀ f ∈ afterBody flow, Q f := .withFrame (.seq fun _ => hx)
    refine .seq fun _ => hturn.bind fun flow hflow => ?_
    split
    · rename_i f hafter
      exact .result (hflow f hafter)
    · exact ih

variable (hnormal : Q .normal)
  (hbody : Yields (stmt call true body) fun flow => ∀ f ∈ afterBody flow, Q f)
include hnormal hbody

theorem stmt_whileLoop : Yields (stmt call asBody (.whileLoop test body)) Q := by
  unfold stmt
  exact .framed (.loop hnormal (hbody.bind fun flow hflow => .result hflow))

theorem stmt_doLoop : Yields (stmt call asBody (.doLoop body test)) Q := by
  unfold stmt
  refine .framed (.loop hnormal (hbody.bind fun flow hflow => ?_))
  split
  · rename_i f hafter
    exact .result fun _ hf => hflow _ (hafter ▸ hf)
  · refine .seq fun more => ?_
    split
    · exact .result (by rintro _ ⟨⟩)
    · exact .result (by rintro _ ⟨⟩; exact hnormal)

theorem countedTurns {condition update : Option Expr} :
    Yields (Eval.loop (pure true) do
      if ← Eval.condition call condition then
        match afterBody (← stmt call true body) with
        | some flow => return some flow
        | none =>
          advance call update
          return none
      else return some .normal) Q := by
  refine .loop hnormal (.seq fun more => ?_)
  split
  · refine hbody.bind fun flow hflow => ?_
    split
    · rename_i f hafter
      exact .result fun _ hf => hflow _ (hafter ▸ hf)
    · exact .seq fun _ => .result (by rintro _ ⟨⟩)
  · exact .result (by rintro _ ⟨⟩; exact hnormal)

theorem stmt_forLoop {init : Option Stmt} {condition update : Option Expr} :
    Yields (stmt call asBody (.forLoop init condition update body)) Q := by
  unfold stmt
  refine .framed (.withFrame ?_)
  split
  · exact .seq fun _ => .countedTurns hnormal hbody
  · exact .countedTurns hnormal hbody

theorem stmt_forOf {name : String} {source : Expr} :
    Yields (stmt call asBody (.forOf name source body)) Q := by
  unfold stmt
  exact .framed (.seq fun _ => .seq fun items => .iterate hnormal hbody name items)

theorem stmt_forIn {name : String} {source : Expr} :
    Yields (stmt call asBody (.forIn name source body)) Q := by
  unfold stmt
  exact .framed (.seq fun v => .iterate hnormal hbody name _)

end Loops
end Yields
end Stencil.Script.Eval
