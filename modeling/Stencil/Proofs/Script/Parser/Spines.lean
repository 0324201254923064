import Stencil.Proofs.Script.Parser.Trees
import Stencil.Proofs.Script.Token.Lexing

/-! # How tall trees are

The parser bounds how deep syntax may nest, not how tall its trees are.  The left parts of
operators, members and calls are read in loops that enter no further level, so a chain of them is a
left **spine** of any length.

The height of a tree is taken with a weight for the links of its spines and one for every other step
down (`Stmt.height`).  If both count one, it is the height; if only the links count, it tells how
many of them stand above each other.  A tree is not taller than that and a number that is the same
for all sources (`height_le_of_links`), and no number alone bounds the heights
(`height_not_bounded`).
-/
namespace Stencil.Script

section Height
variable (link step : Nat)

mutual

/-- The height of an expression, when a step down a spine counts `link` and every other one counts
`step`. -/
def Expr.height : Expr → Nat
  | .template parts => TemplatePart.heightOf parts + step
  | .array items | .sequence items => Expr.heightOf items + step
  | .object entries => Expr.heightOfEntries entries + step
  | .member object property _ => max (object.height + link) (property.height + step)
  | .call callee args _ => max (callee.height + link) (Expr.heightOf args + step)
  | .construct callee args => max callee.height (Expr.heightOf args) + step
  | .unary _ operand | .await operand | .update _ _ operand => operand.height + step
  | .binary _ left right | .logical _ left right =>
    max (left.height + link) (right.height + step)
  | .assign _ target value => max target.height value.height + step
  | .conditional test consequent alternative =>
    max (max test.height consequent.height) alternative.height + step
  | .function definition => definition.height + step
  | .number _ | .string _ | .bool _ | .null | .undefined | .name _ => step

/-- The greatest height of expressions. -/
def Expr.heightOf : List Expr → Nat
  | [] => 0
  | e :: rest => max e.height (Expr.heightOf rest)

/-- The height of an expression that may be missing. -/
def Expr.heightOf? : Option Expr → Nat
  | none => 0
  | some e => e.height

/-- The greatest height in the members of an object literal. -/
def Expr.heightOfEntries : List (String × Expr) → Nat
  | [] => 0
  | (_, e) :: rest => max e.height (Expr.heightOfEntries rest)

/-- The greatest height of the parts of a template literal. -/
def TemplatePart.heightOf : List TemplatePart → Nat
  | [] => 0
  | .text _ :: rest => max step (TemplatePart.heightOf rest)
  | .interpolation e :: rest => max (e.height + step) (TemplatePart.heightOf rest)

/-- The height of a statement. -/
def Stmt.height : Stmt → Nat
  | .expr e | .throw e | .exportDefault e => e.height + step
  | .decl _ declarators => Stmt.heightOfDeclarators declarators + step
  | .function definition => definition.height + step
  | .return value => Expr.heightOf? value + step
  | .branch test consequent alternative =>
    max (max test.height consequent.height) (Stmt.heightOf? alternative) + step
  | .whileLoop test body | .doLoop body test => max test.height body.height + step
  | .forLoop init test update body =>
    max (max (max (Stmt.heightOf? init) (Expr.heightOf? test)) (Expr.heightOf? update))
      body.height + step
  | .forOf _ source body | .forIn _ source body => max source.height body.height + step
  | .block body => Stmt.heightOf body + step
  | .export inner => inner.height + step
  | .break | .continue | .empty => step

/-- The greatest height of statements. -/
def Stmt.heightOf : List Stmt → Nat
  | [] => 0
  | s :: rest => max s.height (Stmt.heightOf rest)

/-- The height of a statement that may be missing. -/
def Stmt.heightOf? : Option Stmt → Nat
  | none => 0
  | some s => s.height

/-- The greatest height in declarators. -/
def Stmt.heightOfDeclarators : List (String × Option Expr) → Nat
  | [] => 0
  | (_, init) :: rest => max (Expr.heightOf? init) (Stmt.heightOfDeclarators rest)

/-- The height of a function, which is that of its body. -/
def FunctionDef.height : FunctionDef → Nat
  | .mk _ _ body _ => body.height

/-- The height of the body of a function. -/
def FunctionBody.height : FunctionBody → Nat
  | .expr e => e.height + step
  | .block body => Stmt.heightOf body + step

end
end Height

/-! ## Heights and links -/

/-- The expression is taller than its links by at most `n`. -/
def Expr.WithinLinks (n : Nat) (e : Expr) : Prop :=
  e.height 1 1 ≤ n + e.height 1 0

/-- The statement is taller than its links by at most `n`. -/
def Stmt.WithinLinks (n : Nat) (s : Stmt) : Prop :=
  s.height 1 1 ≤ n + s.height 1 0

section Links
variable {n a b a' b' : Nat}

/-- A step down is a level. -/
theorem succ_le_of_le_add (h : a ≤ n + b) : a + 1 ≤ n + 1 + b := by
  omega

/-- A link is not. -/
theorem link_le_of_le_add (h : a ≤ n + b) : a + 1 ≤ n + (b + 1) :=
  Nat.succ_le_succ h

theorem max_le_add_max (h : a ≤ n + b) (h' : a' ≤ n + b') : max a a' ≤ n + max b b' := by
  omega

theorem Expr.heightOf_le {items : List Expr} (h : ∀ e ∈ items, e.WithinLinks n) :
    heightOf 1 1 items ≤ n + heightOf 1 0 items := by
  induction items with
  | nil => exact Nat.zero_le _
  | cons e rest ih =>
    obtain ⟨he, hrest⟩ := List.forall_mem_cons.mp h
    exact max_le_add_max he (ih hrest)

theorem Expr.heightOf?_le {e : Option Expr} (h : ∀ e' ∈ e, e'.WithinLinks n) :
    heightOf? 1 1 e ≤ n + heightOf? 1 0 e := by
  cases e with
  | none => exact Nat.zero_le _
  | some e => exact h e rfl

theorem Expr.heightOfEntries_le {entries : List (String × Expr)}
    (h : ∀ p ∈ entries, p.2.WithinLinks n) :
    heightOfEntries 1 1 entries ≤ n + heightOfEntries 1 0 entries := by
  induction entries with
  | nil => exact Nat.zero_le _
  | cons p rest ih =>
    obtain ⟨he, hrest⟩ := List.forall_mem_cons.mp h
    exact max_le_add_max he (ih hrest)

/-- The parts of a template literal are a level of their own. -/
theorem TemplatePart.heightOf_le {parts : List TemplatePart}
    (h : ∀ e, .interpolation e ∈ parts → e.WithinLinks n) :
    heightOf 1 1 parts ≤ n + 1 + heightOf 1 0 parts := by
  induction parts with
  | nil => exact Nat.zero_le _
  | cons part rest ih =>
    have hrest := ih fun e he => h e (List.mem_cons_of_mem _ he)
    cases part with
    | text s =>
      have htext : 1 ≤ n + 1 + 0 := Nat.le_add_left 1 n
      exact max_le_add_max htext hrest
    | interpolation e => exact max_le_add_max (succ_le_of_le_add (h e List.mem_cons_self)) hrest

theorem Stmt.heightOf_le {body : List Stmt} (h : ∀ s ∈ body, s.WithinLinks n) :
    heightOf 1 1 body ≤ n + heightOf 1 0 body := by
  induction body with
  | nil => exact Nat.zero_le _
  | cons s rest ih =>
    obtain ⟨hs, hrest⟩ := List.forall_mem_cons.mp h
    exact max_le_add_max hs (ih hrest)

theorem Stmt.heightOf?_le {s : Option Stmt} (h : ∀ s' ∈ s, s'.WithinLinks n) :
    heightOf? 1 1 s ≤ n + heightOf? 1 0 s := by
  cases s with
  | none => exact Nat.zero_le _
  | some s => exact h s rfl

theorem Stmt.heightOfDeclarators_le {ds : List (String × Option Expr)}
    (h : ∀ p ∈ ds, ∀ e ∈ p.2, e.WithinLinks n) :
    heightOfDeclarators 1 1 ds ≤ n + heightOfDeclarators 1 0 ds := by
  induction ds with
  | nil => exact Nat.zero_le _
  | cons p rest ih =>
    obtain ⟨hp, hrest⟩ := List.forall_mem_cons.mp h
    exact max_le_add_max (Expr.heightOf?_le hp) (ih hrest)

end Links

/-- Trees are taller than their links by at most their level. -/
def TreeLogic.links : TreeLogic where
  expr := Expr.WithinLinks
  definition n f := f.height 1 1 ≤ n + f.height 1 0
  stmt := Stmt.WithinLinks
  raiseExpr h := Nat.le_trans h (Nat.add_le_add_right (Nat.le_succ _) _)
  raiseStmt h := Nat.le_trans h (Nat.add_le_add_right (Nat.le_succ _) _)
  number _ := Nat.le_add_left 1 _
  string _ := Nat.le_add_left 1 _
  bool _ := Nat.le_add_left 1 _
  null := Nat.le_add_left 1 _
  undefined := Nat.le_add_left 1 _
  name _ := Nat.le_add_left 1 _
  template h := succ_le_of_le_add (TemplatePart.heightOf_le h)
  array h := succ_le_of_le_add (Expr.heightOf_le h)
  object h := succ_le_of_le_add (Expr.heightOfEntries_le fun p hp => (h p hp).2)
  member _ he hproperty := max_le_add_max (link_le_of_le_add he) (succ_le_of_le_add hproperty)
  call _ hcallee hargs :=
    max_le_add_max (link_le_of_le_add hcallee) (succ_le_of_le_add (Expr.heightOf_le hargs))
  construct hcallee hargs := succ_le_of_le_add (max_le_add_max hcallee (Expr.heightOf_le hargs))
  unary _ h := succ_le_of_le_add h
  update _ _ h := succ_le_of_le_add h
  binary _ hleft hright := max_le_add_max (link_le_of_le_add hleft) (succ_le_of_le_add hright)
  logical _ hleft hright := max_le_add_max (link_le_of_le_add hleft) (succ_le_of_le_add hright)
  conditional htest hconsequent halternative :=
    succ_le_of_le_add (max_le_add_max (max_le_add_max htest hconsequent) halternative)
  assign _ htarget hvalue := succ_le_of_le_add (max_le_add_max htarget hvalue)
  function h := succ_le_of_le_add h
  await h := succ_le_of_le_add h
  sequence h := succ_le_of_le_add (Expr.heightOf_le h)
  bodyExpr _ _ _ h := succ_le_of_le_add h
  bodyBlock _ _ _ h := succ_le_of_le_add (Stmt.heightOf_le h)
  exprStmt h := succ_le_of_le_add h
  decl _ h := succ_le_of_le_add (Stmt.heightOfDeclarators_le fun p hp => (h p hp).2)
  functionStmt h := succ_le_of_le_add h
  returnStmt h := succ_le_of_le_add (Expr.heightOf?_le h)
  branch htest hconsequent halternative := succ_le_of_le_add
    (max_le_add_max (max_le_add_max htest hconsequent) (Stmt.heightOf?_le halternative))
  whileLoop htest hbody := succ_le_of_le_add (max_le_add_max htest hbody)
  doLoop hbody htest := succ_le_of_le_add (max_le_add_max htest hbody)
  forLoop hinit htest hupdate hbody := succ_le_of_le_add (max_le_add_max
    (max_le_add_max (max_le_add_max (Stmt.heightOf?_le hinit) (Expr.heightOf?_le htest))
      (Expr.heightOf?_le hupdate)) hbody)
  forOf _ hsource hbody := succ_le_of_le_add (max_le_add_max hsource hbody)
  forIn _ hsource hbody := succ_le_of_le_add (max_le_add_max hsource hbody)
  blockStmt h := succ_le_of_le_add (Stmt.heightOf_le h)
  breakStmt := Nat.le_add_left 1 _
  continueStmt := Nat.le_add_left 1 _
  throwStmt h := succ_le_of_le_add h
  exportFunction h := succ_le_of_le_add h
  exportDecl h := succ_le_of_le_add h
  exportDefault h := succ_le_of_le_add h
  emptyStmt := Nat.le_add_left 1 _

/-! ## Long chains -/

/-- An expression and members of it, each called `a`, one behind the other. -/
def Expr.chained : Nat → Expr → Expr
  | 0, e => e
  | n + 1, e => chained n (.member e (.string "a") false)

theorem Expr.le_height_chained (n : Nat) :
    ∀ e : Expr, e.height 1 1 + n ≤ (chained n e).height 1 1 := by
  induction n with
  | zero => exact fun e => Nat.le_refl _
  | succ n ih =>
    intro e
    have hlink : e.height 1 1 + 1 ≤ (Expr.member e (.string "a") false).height 1 1 :=
      Nat.le_max_left _ _
    have hrest := ih (.member e (.string "a") false)
    rw [chained]
    omega

namespace Parser

/-- The text of the members. -/
def linkText : Nat → List Char
  | 0 => []
  | n + 1 => '.' :: 'a' :: linkText n

/-- The tokens of the members. -/
def linkTokens (o : Nat) : Nat → List Token
  | 0 => [⟨.eof, o⟩]
  | n + 1 => ⟨.punctuator .dot, o⟩ :: ⟨.word "a", o + 1⟩ :: linkTokens (o + 2) n

section Lexing
open Scan

theorem token_dot (rest : List Char) (o : Nat) :
    token ⟨'.' :: 'a' :: rest, o⟩ = .ok (.punctuator .dot, ⟨'a' :: rest, o + 1⟩) := rfl

theorem token_name (n o : Nat) :
    token ⟨'a' :: linkText n, o⟩ = .ok (.word "a", ⟨linkText n, o + 1⟩) := by
  have hend : startsWith isNameChar (linkText n) = false := by
    cases n <;> rfl
  have hname : ∀ c ∈ ['a'], isNameChar c = true := fun c hc => by
    rw [List.mem_singleton.mp hc]
    decide
  have hspan := spanAt_append hname hend o
  have hnumber : ¬ startsNumber 'a' (linkText n) = true := by
    simp [startsNumber, show Char.isDigit 'a' = false by decide]
  rw [token_cons, if_neg hnumber, if_neg (by decide), if_neg (by decide), if_pos (by decide)]
  rw [List.cons_append, List.nil_append] at hspan
  rw [hspan]
  rfl

theorem lexed_links (n : Nat) : ∀ o, Lexed ⟨linkText n, o⟩ (linkTokens o n) := by
  induction n with
  | zero => exact fun o => .done
  | succ n ih =>
    intro o
    have hblanks : trivia .blanks (o + 2) (linkText n) = .ok ⟨linkText n, o + 2⟩ := by
      cases n <;> rfl
    exact .next rfl (List.cons_ne_nil _ _) (token_dot (linkText n) o) rfl
      (.next rfl (List.cons_ne_nil _ _) (token_name n (o + 1)) hblanks (ih (o + 2)))

theorem tokenize_chain (n : Nat) :
    tokenize (String.ofList ('a' :: linkText n)) = .ok (⟨.word "a", 0⟩ :: linkTokens 1 n) := by
  have hblanks : trivia .blanks 1 (linkText n) = .ok ⟨linkText n, 1⟩ := by
    cases n <;> rfl
  have hlexed : Lexed ⟨'a' :: linkText n, 0⟩ (⟨.word "a", 0⟩ :: linkTokens 1 n) :=
    .next rfl (List.cons_ne_nil _ _) (token_name n 0) hblanks (lexed_links n 1)
  unfold tokenize
  rw [String.toList_ofList]
  exact hlexed.tokens_eq rfl (Nat.lt_succ_self _)

end Lexing

section Running
variable {g : Grammar} {ctx : ParseContext} {n : Nat}

theorem run_chain (n : Nat) : ∀ e o fuel, n < fuel →
    ∃ stop, chain g e fuel ctx (linkTokens o n) = .ok (.chained n e, [⟨.eof, stop⟩]) := by
  induction n with
  | zero =>
    intro e o fuel hfuel
    obtain ⟨fuel, rfl⟩ := Nat.exists_eq_succ_of_ne_zero (Nat.ne_of_gt hfuel)
    exact ⟨o, rfl⟩
  | succ n ih =>
    intro e o fuel hfuel
    obtain ⟨fuel, rfl⟩ := Nat.exists_eq_succ_of_ne_zero (Nat.ne_zero_of_lt hfuel)
    exact ih (.member e (.string "a") false) (o + 2) fuel (Nat.lt_of_succ_lt_succ hfuel)

/-- The tokens of a chain of `n` members behind a name. -/
def chainTokens (n : Nat) : List Token :=
  ⟨.word "a", 0⟩ :: linkTokens 1 n

theorem run_callMember (hn : n ≤ ctx.size) : ∃ stop,
    callMember g ctx (chainTokens n) = .ok (.chained n (.name "a"), [⟨.eof, stop⟩]) := by
  have hhead : head g ctx (chainTokens n) = .ok (.name "a", linkTokens 1 n) := rfl
  obtain ⟨stop, hchain⟩ : ∃ stop, chain g (.name "a") (ctx.size + 1) ctx (linkTokens 1 n) =
      .ok (.chained n (.name "a"), [⟨.eof, stop⟩]) := run_chain n _ 1 _ (Nat.lt_succ_of_le hn)
  exact ⟨stop, (run_bind_of_ok hhead).trans hchain⟩

theorem run_binaryBody (hn : n ≤ ctx.size) (min : Nat) : ∃ stop,
    binaryBody g min ctx (chainTokens n) = .ok (.chained n (.name "a"), [⟨.eof, stop⟩]) := by
  obtain ⟨stop, hcall⟩ := run_callMember (g := g) hn
  have hoffset : offset ctx (chainTokens n) = .ok (ctx.base + 0, chainTokens n) := rfl
  have hpostfixed : postfixed g ctx (chainTokens n) =
      .ok (.chained n (.name "a"), [⟨.eof, stop⟩]) :=
    (run_bind_of_ok hoffset).trans ((run_bind_of_ok hcall).trans rfl)
  have hunary : unaryBody g ctx (chainTokens n) =
      .ok (.chained n (.name "a"), [⟨.eof, stop⟩]) := hpostfixed
  exact ⟨stop, (run_bind_of_ok hunary).trans rfl⟩

theorem run_assignment (hn : n ≤ ctx.size) (depth : Nat) : ∃ stop,
    (grammar (depth + 2)).assignment ctx (chainTokens n) =
      .ok (.chained n (.name "a"), [⟨.eof, stop⟩]) := by
  obtain ⟨stop, hbinary⟩ := run_binaryBody (g := grammar depth) hn 0
  have hconditional : conditional (grammar (depth + 1)) ctx (chainTokens n) =
      .ok (.chained n (.name "a"), [⟨.eof, stop⟩]) := (run_bind_of_ok hbinary).trans rfl
  have harrow : startsArrow (chainTokens n) = false := by
    cases n <;> rfl
  have hoffset : offset ctx (chainTokens n) = .ok (ctx.base + 0, chainTokens n) := rfl
  have hassigned : assigned (grammar (depth + 1)) ctx (chainTokens n) =
      .ok (.chained n (.name "a"), [⟨.eof, stop⟩]) :=
    (run_bind_of_ok hoffset).trans ((run_bind_of_ok hconditional).trans rfl)
  have hbody : (grammar (depth + 2)).assignment ctx (chainTokens n) =
      (if startsArrow (chainTokens n) then (do
        set (chainTokens n)
        arrowFunction (grammar (depth + 1))) else assigned (grammar (depth + 1)) : Parser Expr)
        ctx (chainTokens n) := rfl
  rw [if_neg (by rw [harrow]; decide)] at hbody
  exact ⟨stop, hbody.trans hassigned⟩

theorem run_statement (hn : n ≤ ctx.size) (hctx : ctx.shorthand = false) (depth : Nat) : ∃ stop,
    (grammar (depth + 3)).statement ctx (chainTokens n) =
      .ok (.expr (.chained n (.name "a")), [⟨.eof, stop⟩]) := by
  obtain ⟨stop, hassignment⟩ := run_assignment hn depth
  have hexpression : expression (grammar (depth + 2)).assignment ctx (chainTokens n) =
      .ok (.chained n (.name "a"), [⟨.eof, stop⟩]) := (run_bind_of_ok hassignment).trans rfl
  have hstatement : (grammar (depth + 3)).statement ctx (chainTokens n) =
      expressionStatement (grammar (depth + 2)) ctx (chainTokens n) := by
    change (if ctx.shorthand && startsShorthand (chainTokens n) then
      namedFunction (grammar (depth + 2))
      else expressionStatement (grammar (depth + 2))) ctx (chainTokens n) = _
    rw [hctx, Bool.false_and, if_neg Bool.false_ne_true]
  exact ⟨stop, hstatement.trans ((run_bind_of_ok hexpression).trans rfl)⟩

end Running

theorem le_length_linkTokens (n : Nat) : ∀ o, n ≤ (linkTokens o n).length := by
  induction n with
  | zero => exact fun o => Nat.zero_le _
  | succ n ih =>
    intro o
    exact Nat.le_succ_of_le (Nat.succ_le_succ (ih (o + 2)))

end Parser

/-- A name and a chain of members behind it is a script, however long it is. -/
theorem parseProgram_chain (n : Nat) :
    parseProgram (String.ofList ('a' :: Parser.linkText n)) =
      .ok [.expr (.chained n (.name "a"))] := by
  let ctx : ParseContext := ⟨0, false, (Parser.chainTokens n).length⟩
  have hn : n ≤ ctx.size := Nat.le_succ_of_le (Parser.le_length_linkTokens n 1)
  obtain ⟨stop, hstatement⟩ : ∃ stop,
      (Parser.grammar (125 + 3)).statement ctx (Parser.chainTokens n) =
        .ok (.expr (.chained n (.name "a")), [⟨.eof, stop⟩]) := Parser.run_statement hn rfl 125
  have hprogram : Parser.program [] (ctx.size + 1) ctx (Parser.chainTokens n) =
      .ok ([(.expr (.chained n (.name "a")), 0, 0 + stop)], [⟨.eof, stop⟩]) := by
    have hoffset : Parser.offset ctx (Parser.chainTokens n) =
        .ok (0 + 0, Parser.chainTokens n) := rfl
    change (Parser.offset >>= fun start => do
      let s ← (Parser.grammar (125 + 3)).statement
      Parser.program [(s, start, ← Parser.offset)] ctx.size) ctx (Parser.chainTokens n) = _
    rw [Parser.run_bind_of_ok hoffset, Parser.run_bind_of_ok hstatement]
    rfl
  have hrun : Parser.run false (String.ofList ('a' :: Parser.linkText n)) =
      .ok [(.expr (.chained n (.name "a")), 0, 0 + stop)] := by
    unfold Parser.run
    rw [Parser.tokenize_chain]
    exact Parser.bind_eq_ok.mpr ⟨_, rfl, Parser.bind_eq_ok.mpr ⟨_, hprogram, rfl⟩⟩
  unfold parseProgram
  rw [hrun]
  rfl

/-- **Spines alone make trees tall.**  The tree of a source that the parser accepts is taller than
the number of links that stand above each other in it by no more than a number that is the same for
all sources. -/
theorem height_le_of_links {source : String} {body : List Stmt}
    (h : parseProgram source = .ok body ∨ parseDeclarations source = .ok body) :
    Stmt.heightOf 1 1 body ≤ Parser.levelsPerNesting * maxNesting + Stmt.heightOf 1 0 body := by
  refine Stmt.heightOf_le fun s hs => ?_
  rcases h with h | h
  · exact TreeLogic.links.ofProgram (fun _ _ _ _ => trivial) h s hs
  · exact TreeLogic.links.ofDeclarations (fun _ _ _ _ => trivial) h s hs

/-- A chain of two members. -/
theorem height_le_of_links_two :
    let body : List Stmt := [.expr (.chained 2 (.name "a"))]
    parseProgram (String.ofList ('a' :: Parser.linkText 2)) = .ok body ∧
      Stmt.heightOf 1 0 body = 2 ∧ Stmt.heightOf 1 1 body = 4 ∧
      Stmt.heightOf 1 1 body ≤ Parser.levelsPerNesting * maxNesting + 2 :=
  ⟨parseProgram_chain 2, rfl, rfl, height_le_of_links (.inl (parseProgram_chain 2))⟩

/-- **The limit on nesting does not bound the height:** for every bound there is a script whose tree
is taller. -/
theorem height_not_bounded :
    ¬ ∃ bound, ∀ source body, parseProgram source = .ok body → Stmt.heightOf 1 1 body ≤ bound := by
  rintro ⟨bound, hbound⟩
  have hle := hbound _ _ (parseProgram_chain bound)
  have hchain := Expr.le_height_chained bound (.name "a")
  rw [Stmt.heightOf, Stmt.heightOf, Stmt.height, Nat.max_zero] at hle
  omega

end Stencil.Script
