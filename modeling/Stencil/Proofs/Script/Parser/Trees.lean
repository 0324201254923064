import Stencil.Proofs.Script.Parser.Reading

/-! # What trees parsers build

Which trees come out of the parser is told by a **logic of trees** (`TreeLogic`): properties of
expressions, definitions and statements that go by levels, and one rule for each form of syntax.  A
form takes its parts from one level further in, with two kinds of exceptions.  What is kept on every
level below is kept on the levels above; and the left parts of operators, members and calls stand on
the level of the whole, since the parser reads them in loops and not by recursion.  The names and
texts in a tree come from tokens, so a logic may say something of them if it says something of the
tokens.

A parser **gives** a property if, from tokens that are as the logic says, all its results have it
and the tokens that are left are as the logic says (`Parser.Gives`).  The parsers of a level give
trees that are at most `levelsPerNesting` levels above those of the inner grammar, so **the
statements of a source are on the level `levelsPerNesting * maxNesting`** of every logic of trees
(`gives_source`).
-/
namespace Stencil.Script

/-- **A logic of trees**: properties of trees by levels for which the rules hold that compose
trees. -/
structure TreeLogic where
  /-- What is said of expressions on a level. -/
  expr : Nat → Expr → Prop
  /-- What is said of definitions of functions. -/
  definition : Nat → FunctionDef → Prop
  /-- What is said of statements. -/
  stmt : Nat → Stmt → Prop
  /-- What is said of tokens. -/
  token : TokenKind → Prop := fun _ => True
  /-- What is said of names, keys and the texts of strings. -/
  text : String → Prop := fun _ => True
  ofWord : ∀ {w}, token (.word w) → text w := by intros; exact True.intro
  ofString : ∀ {s}, token (.string s) → text s := by intros; exact True.intro
  ofNumber : ∀ {x}, token (.number x) → text (Number.text x) := by intros; exact True.intro
  ofSource : ∀ {chunks s o ts}, token (.template chunks) → .source s o ∈ chunks →
    tokenize s = .ok ts → ∀ t ∈ ts, token t.kind := by intros; exact True.intro
  raiseExpr : ∀ {n e}, expr n e → expr (n + 1) e
  raiseStmt : ∀ {n s}, stmt n s → stmt (n + 1) s
  number : ∀ {n} (x), expr (n + 1) (.number x)
  string : ∀ {n s}, text s → expr (n + 1) (.string s)
  bool : ∀ {n} (b), expr (n + 1) (.bool b)
  null : ∀ {n}, expr (n + 1) .null
  undefined : ∀ {n}, expr (n + 1) .undefined
  name : ∀ {n x}, text x → expr (n + 1) (.name x)
  template : ∀ {n parts}, (∀ e, .interpolation e ∈ parts → expr n e) →
    expr (n + 2) (.template parts)
  array : ∀ {n items}, (∀ e ∈ items, expr n e) → expr (n + 1) (.array items)
  object : ∀ {n entries}, (∀ p ∈ entries, text p.1 ∧ expr n p.2) → expr (n + 1) (.object entries)
  member : ∀ {n e property} (optional), expr (n + 1) e → expr n property →
    expr (n + 1) (.member e property optional)
  call : ∀ {n callee args} (optional), expr (n + 1) callee → (∀ e ∈ args, expr n e) →
    expr (n + 1) (.call callee args optional)
  construct : ∀ {n callee args}, expr n callee → (∀ e ∈ args, expr n e) →
    expr (n + 1) (.construct callee args)
  unary : ∀ {n e} (op), expr n e → expr (n + 1) (.unary op e)
  update : ∀ {n e} (op first), expr n e → expr (n + 1) (.update op first e)
  binary : ∀ {n left right} (op), expr (n + 1) left → expr n right →
    expr (n + 1) (.binary op left right)
  logical : ∀ {n left right} (op), expr (n + 1) left → expr n right →
    expr (n + 1) (.logical op left right)
  conditional : ∀ {n test consequent alternative}, expr n test → expr n consequent →
    expr n alternative → expr (n + 1) (.conditional test consequent alternative)
  assign : ∀ {n target value} (op), expr n target → expr n value →
    expr (n + 1) (.assign op target value)
  function : ∀ {n f}, definition n f → expr (n + 1) (.function f)
  await : ∀ {n e}, expr n e → expr (n + 1) (.await e)
  sequence : ∀ {n items}, (∀ e ∈ items, expr n e) → expr (n + 1) (.sequence items)
  bodyExpr : ∀ {n name params e} (arrow), (∀ x ∈ name, text x) → (∀ x ∈ params, text x) →
    expr n e → definition (n + 1) (.mk name params (.expr e) arrow)
  bodyBlock : ∀ {n name params body} (arrow), (∀ x ∈ name, text x) → (∀ x ∈ params, text x) →
    (∀ s ∈ body, stmt n s) → definition (n + 1) (.mk name params (.block body) arrow)
  exprStmt : ∀ {n e}, expr n e → stmt (n + 1) (.expr e)
  decl : ∀ {n declarators} (kind), (∀ p ∈ declarators, text p.1 ∧ ∀ e ∈ p.2, expr n e) →
    stmt (n + 1) (.decl kind declarators)
  functionStmt : ∀ {n f}, definition n f → stmt (n + 1) (.function f)
  returnStmt : ∀ {n value}, (∀ e ∈ value, expr n e) → stmt (n + 1) (.return value)
  branch : ∀ {n test consequent alternative}, expr n test → stmt n consequent →
    (∀ s ∈ alternative, stmt n s) → stmt (n + 1) (.branch test consequent alternative)
  whileLoop : ∀ {n test body}, expr n test → stmt n body → stmt (n + 1) (.whileLoop test body)
  doLoop : ∀ {n body test}, stmt n body → expr n test → stmt (n + 1) (.doLoop body test)
  forLoop : ∀ {n init test update body}, (∀ s ∈ init, stmt n s) → (∀ e ∈ test, expr n e) →
    (∀ e ∈ update, expr n e) → stmt n body → stmt (n + 1) (.forLoop init test update body)
  forOf : ∀ {n name source body}, text name → expr n source → stmt n body →
    stmt (n + 1) (.forOf name source body)
  forIn : ∀ {n name source body}, text name → expr n source → stmt n body →
    stmt (n + 1) (.forIn name source body)
  blockStmt : ∀ {n body}, (∀ s ∈ body, stmt n s) → stmt (n + 1) (.block body)
  breakStmt : ∀ {n}, stmt (n + 1) .break
  continueStmt : ∀ {n}, stmt (n + 1) .continue
  throwStmt : ∀ {n e}, expr n e → stmt (n + 1) (.throw e)
  /-- Only functions and declarations are exported. -/
  exportFunction : ∀ {n f}, stmt n (.function f) → stmt (n + 1) (.export (.function f))
  exportDecl : ∀ {n kind declarators}, stmt n (.decl kind declarators) →
    stmt (n + 1) (.export (.decl kind declarators))
  exportDefault : ∀ {n e}, expr n e → stmt (n + 1) (.exportDefault e)
  emptyStmt : ∀ {n}, stmt (n + 1) .empty

namespace TreeLogic
variable {L : TreeLogic} {n m : Nat}

theorem expr_mono {e : Expr} (h : L.expr n e) (hnm : n ≤ m) : L.expr m e := by
  induction hnm with
  | refl => exact h
  | step _ ih => exact L.raiseExpr ih

theorem stmt_mono {s : Stmt} (h : L.stmt n s) (hnm : n ≤ m) : L.stmt m s := by
  induction hnm with
  | refl => exact h
  | step _ ih => exact L.raiseStmt ih

/-- All tokens are as the logic says. -/
def AllowsTokens (L : TreeLogic) (ts : List Token) : Prop :=
  ∀ t ∈ ts, L.token t.kind

theorem join {left right : Expr} (joint : Parser.Joint) (hleft : L.expr (n + 1) left)
    (hright : L.expr n right) : L.expr (n + 1) (joint.join left right) := by
  cases joint with
  | binary op => exact L.binary op hleft hright
  | logical op => exact L.logical op hleft hright

end TreeLogic

namespace Parser
variable {L : TreeLogic} {α β : Type} {P Q : α → Prop} {R : β → Prop}

/-! ## What parsers leave -/

/-- The parser takes tokens off the front and adds none. -/
class Leaves (p : Parser α) : Prop where
  subset : ∀ {ctx ts a r}, p ctx ts = .ok (a, r) → r ⊆ ts

theorem Reads.leaves {n : Nat} {p : Parser α} (h : Reads n p) : Leaves p where
  subset hr := by
    obtain ⟨u, rfl, -⟩ := h _ _ _ _ hr
    exact List.subset_append_right u _

instance : Leaves skip where
  subset hr := by
    cases hr
    exact List.drop_subset 1 _

instance : Leaves ahead where
  subset hr := by
    cases hr
    exact List.Subset.refl _

instance : Leaves (read : Parser ParseContext) where
  subset hr := by
    cases hr
    exact List.Subset.refl _

instance (p : Punctuator) : Leaves (eat p) where
  subset hr := by
    rw [run_eat] at hr
    split at hr <;> cases hr
    · exact List.drop_subset 1 _
    · exact List.Subset.refl _

instance (p : Punctuator) : Leaves (expect p) where
  subset hr := by
    obtain ⟨-, rfl⟩ := run_expect_ok hr
    exact List.drop_subset 1 _

instance (w : String) : Leaves (eatWord w) := (reads_eatWord w).leaves

instance : Leaves budget := reads_budget.leaves

instance : Leaves offset := reads_offset.leaves

instance : Leaves endStatement := reads_endStatement.leaves

/-! ## Results of parsers -/

/-- From tokens that the logic allows, all results of the parser have the property, and the logic
allows the tokens that are left. -/
def Gives (L : TreeLogic) (p : Parser α) (Q : α → Prop) : Prop :=
  ∀ ctx ts a r, L.AllowsTokens ts → p ctx ts = .ok (a, r) → Q a ∧ L.AllowsTokens r

namespace Gives
variable {p : Parser α} {f : α → Parser β}

theorem result {a : α} (h : Q a) : Gives L (pure a) Q := by
  intro ctx ts b r hts hr
  cases hr
  exact ⟨h, hts⟩

theorem fail {message : String} : Gives L (Parser.fail message) Q :=
  fun _ _ _ _ _ hr => absurd hr fail_ne_ok

theorem unexpected : Gives L Parser.unexpected Q :=
  fun _ _ _ _ _ hr => absurd hr unexpected_ne_ok

theorem throw {e : ScriptError} : Gives L (throw e) Q :=
  fun _ _ _ _ _ hr => nomatch hr

theorem bind (hp : Gives L p P) (hf : ∀ a, P a → Gives L (f a) R) : Gives L (p >>= f) R := by
  intro ctx ts b r hts hr
  obtain ⟨a, s, hp', hf'⟩ := run_bind_ok hr
  obtain ⟨ha, hs⟩ := hp _ _ _ _ hts hp'
  exact hf a ha _ _ _ _ hs hf'

/-- The result of the first parser does not matter. -/
theorem seq [Leaves p] (hf : ∀ a, Gives L (f a) R) : Gives L (p >>= f) R := by
  intro ctx ts b r hts hr
  obtain ⟨a, s, hp, hf'⟩ := run_bind_ok hr
  exact hf a _ _ _ _ (fun t ht => hts t (Leaves.subset hp ht)) hf'

/-- The tokens ahead are as the logic says. -/
theorem look {f : List Token → Parser β} (h : ∀ ts, L.AllowsTokens ts → Gives L (f ts) R) :
    Gives L (ahead >>= f) R :=
  fun ctx ts a r hts hr => h ts hts ctx ts a r hts hr

theorem map {f : α → β} (hp : Gives L p P) (hf : ∀ a, P a → R (f a)) : Gives L (f <$> p) R :=
  hp.bind fun a ha => result (hf a ha)

theorem weaken (hp : Gives L p P) (hPQ : ∀ a, P a → Q a) : Gives L p Q := by
  intro ctx ts a r hts hr
  obtain ⟨ha, hr⟩ := hp ctx ts a r hts hr
  exact ⟨hPQ a ha, hr⟩

theorem present (hp : Gives L p P) : Gives L (some <$> p) fun x => ∀ a ∈ x, P a :=
  hp.map fun _ ha => by
    rintro _ ⟨⟩
    exact ha

theorem absent : Gives L (pure none) fun x => ∀ a ∈ x, P a :=
  result fun _ h => nomatch h

end Gives

/-! ## Names -/

/-- The token ahead is as the logic says. -/
theorem token_kindAt {ts : List Token} {k : TokenKind} (hts : L.AllowsTokens ts)
    (hk : kindAt ts = k) (hne : k ≠ .eof) : L.token k := by
  obtain ⟨t, s, rfl, ht⟩ := exists_cons_of_kindAt (hk ▸ hne)
  rw [← hk, ← ht]
  exact hts t List.mem_cons_self

theorem gives_ident : Gives L ident L.text := by
  refine .look fun ts hts => ?_
  split
  · rename_i name hk
    split
    · exact .unexpected
    · exact .seq fun _ => .result (L.ofWord (token_kindAt hts hk nofun))
  · exact .unexpected

theorem gives_propertyName : Gives L propertyName L.text := by
  refine .look fun ts hts => ?_
  split
  · rename_i name hk
    exact .seq fun _ => .result (L.ofWord (token_kindAt hts hk nofun))
  · exact .unexpected

/-! ## Lists -/

theorem forall_mem_reverse {xs : List α} (h : ∀ x ∈ xs, P x) : ∀ x ∈ xs.reverse, P x :=
  fun x hx => h x (List.mem_reverse.mp hx)

theorem gives_commaItems {close : Punctuator} {item : Parser α} (hitem : Gives L item P)
    (fuel : Nat) : ∀ done, (∀ x ∈ done, P x) →
      Gives L (commaItems close item done fuel) fun xs => ∀ x ∈ xs, P x := by
  induction fuel with
  | zero => exact fun done hdone => .result (forall_mem_reverse hdone)
  | succ fuel ih =>
    intro done hdone
    refine .seq fun tokens => ?_
    split
    · exact .result (forall_mem_reverse hdone)
    · refine hitem.bind fun x hx => .seq fun more => ?_
      have hnext := List.forall_mem_cons.mpr ⟨hx, hdone⟩
      split
      · exact ih _ hnext
      · exact .result (forall_mem_reverse hnext)

theorem gives_bracketed {opening closing : Punctuator} {item : Parser α} (hitem : Gives L item P) :
    Gives L (bracketed opening closing item) fun xs => ∀ x ∈ xs, P x :=
  .seq fun _ => .seq fun fuel => (gives_commaItems hitem fuel [] (List.forall_mem_nil _)).bind
    fun _ hitems => .seq fun _ => .result hitems

theorem gives_statementsToBrace {statement : Parser Stmt} {S : Stmt → Prop}
    (hs : Gives L statement S) (fuel : Nat) : ∀ done, (∀ s ∈ done, S s) →
      Gives L (statementsToBrace statement done fuel) fun body => ∀ s ∈ body, S s := by
  induction fuel with
  | zero => exact fun _ _ => .unexpected
  | succ fuel ih =>
    intro done hdone
    refine .seq fun closed => ?_
    split
    · exact .result (forall_mem_reverse hdone)
    · refine .seq fun tokens => ?_
      split
      · exact .unexpected
      · exact hs.bind fun s hs' => ih _ (List.forall_mem_cons.mpr ⟨hs', hdone⟩)

theorem gives_block {statement : Parser Stmt} {S : Stmt → Prop} (hs : Gives L statement S) :
    Gives L (block statement) fun body => ∀ s ∈ body, S s :=
  .seq fun _ => .seq fun fuel => gives_statementsToBrace hs fuel [] (List.forall_mem_nil _)

theorem gives_moreItems {assignment : Parser Expr} {E : Expr → Prop} (he : Gives L assignment E)
    (fuel : Nat) : ∀ done, (∀ e ∈ done, E e) →
      Gives L (moreItems assignment done fuel) fun items => ∀ e ∈ items, E e := by
  induction fuel with
  | zero => exact fun done hdone => .result (forall_mem_reverse hdone)
  | succ fuel ih =>
    intro done hdone
    refine .seq fun more => ?_
    split
    · exact he.bind fun e he' => ih _ (List.forall_mem_cons.mpr ⟨he', hdone⟩)
    · exact .result (forall_mem_reverse hdone)

/-! ## Parsers of one level -/

/-- The parsers of a grammar give trees on a level of the logic. -/
structure Grammar.Gives (L : TreeLogic) (n : Nat) (g : Grammar) : Prop where
  statement : Parser.Gives L g.statement (L.stmt n)
  assignment : Parser.Gives L g.assignment (L.expr n)
  unary : Parser.Gives L g.unary (L.expr n)
  binary : ∀ min, Parser.Gives L (g.binary min) (L.expr n)

/-- How many levels the syntax of one nesting can add: a function with a block, in an object, in a
construction, in an update. -/
def levelsPerNesting : Nat := 5

section Level
variable {L : TreeLogic} {n : Nat} {g : Grammar} (hg : g.Gives L n)
include hg

/-! ### Expressions -/

theorem gives_expression : Gives L (expression g.assignment) (L.expr (n + 1)) := by
  refine hg.assignment.bind fun first hfirst => .seq fun tokens => ?_
  split
  · refine .seq fun fuel => ?_
    have hmore := gives_moreItems hg.assignment fuel [first] (List.forall_mem_singleton.mpr hfirst)
    exact hmore.bind fun items hitems => .result (L.sequence hitems)
  · exact .result (L.raiseExpr hfirst)

theorem gives_args : Gives L (args g) fun es => ∀ e ∈ es, L.expr n e :=
  gives_bracketed hg.assignment

omit hg in
theorem gives_params : Gives L params fun ps => ∀ x ∈ ps, L.text x :=
  gives_bracketed gives_ident

theorem gives_functionRest {name : Option String} (hname : ∀ x ∈ name, L.text x) :
    Gives L (functionRest g name) (L.definition (n + 1)) :=
  gives_params.bind fun _ hps => (gives_block hg.statement).bind fun _ hbody =>
    .result (L.bodyBlock false hname hps hbody)

omit hg in
theorem text_some {x : String} (h : L.text x) : ∀ y ∈ some x, L.text y := by
  rintro _ ⟨⟩
  exact h

omit hg in
theorem text_none : ∀ y ∈ (none : Option String), L.text y :=
  fun _ h => nomatch h

theorem gives_objectEntry :
    Gives L (objectEntry g) fun p => L.text p.1 ∧ L.expr (n + 2) p.2 := by
  have hrest {key : String} (hkey : L.text key) : Gives L (do
      if ← eat .colon then pure (key, ← g.assignment)
      else if beginsWith .openParen (← ahead) then
        pure (key, .function (← functionRest g (some key)))
      else pure (key, .name key) : Parser (String × Expr))
      fun p => L.text p.1 ∧ L.expr (n + 2) p.2 := by
    refine .seq fun colon => ?_
    split
    · exact hg.assignment.bind fun e he => .result ⟨hkey, L.raiseExpr (L.raiseExpr he)⟩
    · refine .seq fun tokens => ?_
      split
      · exact (gives_functionRest hg (text_some hkey)).bind fun f hf =>
          .result ⟨hkey, L.function hf⟩
      · exact .result ⟨hkey, L.name hkey⟩
  have hkeyed {p : Parser String} (hp : Gives L p L.text) : Gives L (do
      let key ← p
      skip
      if ← eat .colon then pure (key, ← g.assignment)
      else if beginsWith .openParen (← ahead) then
        pure (key, .function (← functionRest g (some key)))
      else pure (key, .name key) : Parser (String × Expr))
      fun p => L.text p.1 ∧ L.expr (n + 2) p.2 := hp.bind fun key hkey => .seq fun _ => hrest hkey
  refine .look fun ts hts => ?_
  split
  · rename_i name hk
    exact hkeyed (.result (L.ofWord (token_kindAt hts hk nofun)))
  · rename_i text hk
    exact hkeyed (.result (L.ofString (token_kindAt hts hk nofun)))
  · rename_i x hk
    exact hkeyed (.result (L.ofNumber (token_kindAt hts hk nofun)))
  · exact hkeyed .unexpected

theorem gives_functionExpr : Gives L (functionExpr g) (L.expr (n + 2)) := by
  have hrest {name : Option String} (hname : ∀ x ∈ name, L.text x) : Gives L (do
      pure (.function (← functionRest g name)) : Parser Expr) (L.expr (n + 2)) :=
    (gives_functionRest hg hname).bind fun f hf => .result (L.function hf)
  refine .seq fun tokens => ?_
  split
  · exact (Gives.present gives_ident).bind fun _ => hrest
  · exact Gives.absent.bind fun _ => hrest

theorem gives_wordExpr {w : String} (hw : L.text w) :
    Gives L (wordExpr g w) (L.expr (n + 2)) := by
  unfold wordExpr
  split
  · exact .seq fun _ => .result (L.bool true)
  · exact .seq fun _ => .result (L.bool false)
  · exact .seq fun _ => .result L.null
  · exact .seq fun _ => .result L.undefined
  · exact .seq fun _ => gives_functionExpr hg
  · refine .seq fun tokens => ?_
    split
    · exact .seq fun _ => .seq fun _ => gives_functionExpr hg
    · split
      · exact .fail
      · exact .seq fun _ => .result (L.name hw)

theorem interpolation_level {base : Nat} {source : String} {e : Expr}
    (hsource : ∀ ts, tokenize source = .ok ts → L.AllowsTokens ts)
    (h : interpolation g base source = .ok e) : L.expr (n + 1) e := by
  unfold interpolation at h
  dsimp only at h
  split at h
  · cases h
  · rename_i ts hts
    obtain ⟨⟨e', r⟩, hrun, rfl⟩ := map_eq_ok.mp h
    have hwhole : Gives L (do
        let e ← expression g.assignment
        if atEnd (← ahead) then pure e else Parser.unexpected) (L.expr (n + 1)) := by
      refine (gives_expression hg).bind fun e he => .seq fun tokens => ?_
      split
      · exact .result he
      · exact .unexpected
    exact (hwhole _ _ _ _ (hsource ts hts) hrun).1

theorem templateParts_level {start : Nat} (chunks : List Chunk)
    (hsource : ∀ s o ts, .source s o ∈ chunks → tokenize s = .ok ts → L.AllowsTokens ts) :
    ∀ {parts : List TemplatePart}, templateParts g start chunks = .ok parts →
      ∀ e, .interpolation e ∈ parts → L.expr (n + 1) e := by
  induction chunks with
  | nil =>
    rintro _ ⟨⟩ e he
    exact absurd he List.not_mem_nil
  | cons chunk chunks ih =>
    intro parts h e he
    have ih := @ih fun s o ts hs => hsource s o ts (List.mem_cons_of_mem chunk hs)
    cases chunk with
    | text s =>
      obtain ⟨rest, hrest, hparts⟩ := bind_eq_ok.mp h
      cases hparts
      rcases List.mem_cons.mp he with he | he
      · cases he
      · exact ih hrest e he
    | source s o =>
      obtain ⟨first, hfirst, h⟩ := bind_eq_ok.mp h
      obtain ⟨rest, hrest, hparts⟩ := bind_eq_ok.mp h
      cases hparts
      rcases List.mem_cons.mp he with he | he
      · cases he
        exact interpolation_level hg (fun ts => hsource s o ts List.mem_cons_self) hfirst
      · exact ih hrest e he

theorem gives_primary : Gives L (primary g) (L.expr (n + 3)) := by
  refine .look fun ts hts => ?_
  split
  · exact .seq fun _ => .result (L.number _)
  · rename_i text hk
    exact .seq fun _ => .result (L.string (L.ofString (token_kindAt hts hk nofun)))
  · rename_i chunks hk
    refine .seq fun start => .seq fun _ => ?_
    have hparts : Gives L (liftM (templateParts g start chunks))
        fun parts => ∀ e, .interpolation e ∈ parts → L.expr (n + 1) e := by
      intro ctx ts' parts r hts' hr
      rw [run_lift] at hr
      obtain ⟨parts', h, hr⟩ := map_eq_ok.mp hr
      cases hr
      have hsource {s : String} {o : Nat} {ts : List Token} (hs : .source s o ∈ chunks)
          (hlexed : tokenize s = .ok ts) : ∀ t ∈ ts, L.token t.kind :=
        L.ofSource (token_kindAt hts hk nofun) hs hlexed
      exact ⟨templateParts_level hg chunks (fun _ _ _ => hsource) h, hts'⟩
    exact hparts.bind fun parts h => .result (L.template h)
  · rename_i w hk
    have hw := L.ofWord (token_kindAt hts hk nofun)
    exact (gives_wordExpr hg hw).weaken fun _ => L.raiseExpr
  · refine .seq fun _ => (gives_expression hg).bind fun e he => .seq fun _ => ?_
    exact .result (L.raiseExpr (L.raiseExpr he))
  · exact (gives_bracketed hg.assignment).bind fun items hitems =>
      .result (L.raiseExpr (L.raiseExpr (L.array hitems)))
  · exact (gives_bracketed (gives_objectEntry hg)).bind fun entries hentries =>
      .result (L.object hentries)
  · exact .unexpected

theorem gives_indexedMember {e : Expr} (optional : Bool) (he : L.expr (n + 4) e) :
    Gives L (indexedMember g e optional) (L.expr (n + 4)) :=
  (gives_expression hg).bind fun _ hproperty => .seq fun _ =>
    .result (L.member optional he (L.raiseExpr (L.raiseExpr hproperty)))

theorem gives_call {e : Expr} (optional : Bool) (he : L.expr (n + 4) e) :
    Gives L (do pure (.call e (← args g) optional)) (L.expr (n + 4)) :=
  (gives_args hg).bind fun _ hes =>
    .result (L.call optional he fun e' he' => L.expr_mono (hes e' he') (Nat.le_add_right n 3))

omit hg in
theorem gives_namedMember {e : Expr} (optional : Bool) (he : L.expr (n + 2) e) :
    Gives L (do pure (.member e (.string (← propertyName)) optional)) (L.expr (n + 2)) :=
  gives_propertyName.bind fun _ hname => .result (L.member optional he (L.string hname))

theorem gives_optionalLink {e : Expr} (he : L.expr (n + 4) e) :
    Gives L (optionalLink g e) (L.expr (n + 4)) := by
  refine .seq fun tokens => ?_
  split
  · exact gives_call hg true he
  · refine .seq fun bracket => ?_
    split
    · exact gives_indexedMember hg true he
    · exact gives_namedMember true he

theorem gives_link {e : Expr} (he : L.expr (n + 4) e) {k : TokenKind} {p : Parser Expr}
    (h : link? g e k = some p) : Gives L p (L.expr (n + 4)) := by
  unfold link? at h
  split at h <;> cases h
  · exact .seq fun _ => gives_namedMember false he
  · exact .seq fun _ => gives_optionalLink hg he
  · exact .seq fun _ => gives_indexedMember hg false he
  · exact gives_call hg false he
  · exact .unexpected

/-- However long a chain is, it stays on the level of its head. -/
theorem gives_chain (fuel : Nat) : ∀ e, L.expr (n + 4) e →
    Gives L (chain g e fuel) (L.expr (n + 4)) := by
  induction fuel with
  | zero => exact fun e he => .result he
  | succ fuel ih =>
    intro e he
    refine .seq fun tokens => ?_
    split
    · exact (gives_link hg he (by assumption)).bind ih
    · exact .result he

omit hg in
theorem gives_plainMembers (fuel : Nat) : ∀ e, L.expr (n + 2) e →
    Gives L (plainMembers e fuel) (L.expr (n + 2)) := by
  induction fuel with
  | zero => exact fun e he => .result he
  | succ fuel ih =>
    intro e he
    refine .seq fun dot => ?_
    split
    · exact gives_propertyName.bind fun _ hname => ih _ (L.member false he (L.string hname))
    · exact .result he

theorem gives_newArgs : Gives L (newArgs g) fun es => ∀ e ∈ es, L.expr n e := by
  refine .seq fun tokens => ?_
  split
  · exact gives_args hg
  · exact .result (List.forall_mem_nil _)

theorem gives_construction : Gives L (construction g) (L.expr (n + 4)) := by
  refine (gives_primary hg).bind fun e he => .seq fun fuel => ?_
  refine (gives_plainMembers fuel e he).bind fun callee hcallee => ?_
  exact (gives_newArgs hg).bind fun es hes =>
    .result (L.construct hcallee fun e' he' => L.expr_mono (hes e' he') (Nat.le_add_right n 3))

theorem gives_callMember : Gives L (callMember g) (L.expr (n + 4)) := by
  have hhead : Gives L (head g) (L.expr (n + 4)) := by
    refine .seq fun isNew => ?_
    split
    · exact gives_construction hg
    · exact (gives_primary hg).weaken fun _ => L.raiseExpr
  exact hhead.bind fun e he => .seq fun fuel => gives_chain hg fuel e he

theorem gives_postfixed : Gives L (postfixed g) (L.expr (n + levelsPerNesting)) := by
  refine .seq fun start => (gives_callMember hg).bind fun e he => .seq fun tokens => ?_
  split
  · exact .result (L.raiseExpr he)
  · split
    · exact .seq fun _ => .result (L.update _ false he)
    · exact .throw

theorem gives_prefixed : Gives L (prefixed g) (L.expr (n + levelsPerNesting)) := by
  refine .seq fun tokens => ?_
  split
  · exact gives_postfixed hg
  · refine .seq fun start => .seq fun _ => hg.unary.bind fun target htarget => ?_
    split
    · exact .result (L.expr_mono (L.update _ true htarget) (Nat.le_add_right (n + 1) 4))
    · exact .throw

theorem gives_unaryBody : Gives L (unaryBody g) (L.expr (n + levelsPerNesting)) := by
  refine .seq fun tokens => ?_
  split
  · exact .seq fun _ => hg.unary.bind fun e he =>
      .result (L.expr_mono (L.unary _ he) (Nat.le_add_right (n + 1) 4))
  · refine .seq fun isAwait => ?_
    split
    · exact hg.unary.bind fun e he =>
        .result (L.expr_mono (L.await he) (Nat.le_add_right (n + 1) 4))
    · exact gives_prefixed hg

/-- However many operators follow each other, they stay on the level of the first operand. -/
theorem gives_operators (min fuel : Nat) : ∀ left, L.expr (n + levelsPerNesting) left →
    Gives L (operators g.binary min left fuel) (L.expr (n + levelsPerNesting)) := by
  induction fuel with
  | zero => exact fun left hleft => .result hleft
  | succ fuel ih =>
    intro left hleft
    refine .seq fun tokens => ?_
    split
    · exact .result hleft
    · split
      · exact .result hleft
      · refine .seq fun _ => (hg.binary _).bind fun right hright => ih _ ?_
        exact L.join _ hleft (L.expr_mono hright (Nat.le_add_right n 4))

theorem gives_binaryBody (min : Nat) :
    Gives L (binaryBody g min) (L.expr (n + levelsPerNesting)) :=
  (gives_unaryBody hg).bind fun left hleft => .seq fun fuel =>
    gives_operators hg min fuel left hleft

theorem gives_conditional : Gives L (conditional g) (L.expr (n + 1)) := by
  refine (hg.binary 0).bind fun test htest => .seq fun more => ?_
  split
  · refine hg.assignment.bind fun consequent hconsequent => .seq fun _ => ?_
    exact hg.assignment.bind fun alternative halternative =>
      .result (L.conditional htest hconsequent halternative)
  · exact .result (L.raiseExpr htest)

omit hg in
theorem gives_arrowParams : Gives L arrowParams fun ps => ∀ x ∈ ps, L.text x := by
  refine .look fun ts hts => ?_
  split
  · rename_i name hk
    have hname := L.ofWord (token_kindAt hts hk nofun)
    exact .seq fun _ => .result (List.forall_mem_singleton.mpr hname)
  · exact gives_params

theorem gives_arrowFunction : Gives L (arrowFunction g) (L.expr (n + 2)) := by
  refine gives_arrowParams.bind fun ps hps => .seq fun _ => .seq fun tokens => ?_
  split
  · exact (gives_block hg.statement).bind fun body hbody =>
      .result (L.function (L.bodyBlock true text_none hps hbody))
  · exact hg.assignment.bind fun e he =>
      .result (L.function (L.bodyExpr true text_none hps he))

theorem gives_assigned : Gives L (assigned g) (L.expr (n + 2)) := by
  refine .seq fun start => (gives_conditional hg).bind fun target htarget => .seq fun tokens => ?_
  split
  · exact .result (L.raiseExpr htarget)
  · split
    · exact .seq fun _ => hg.assignment.bind fun value hvalue =>
        .result (L.assign _ htarget (L.raiseExpr hvalue))
    · exact .throw

theorem gives_assignmentBody : Gives L (assignmentBody g) (L.expr (n + levelsPerNesting)) := by
  refine Gives.weaken (P := L.expr (n + 2)) (.look fun ts hts => ?_)
    fun e he => L.expr_mono he (Nat.le_add_right (n + 2) 3)
  dsimp only
  split
  · intro ctx ts' a r _ hr
    refine gives_arrowFunction hg ctx (withoutAsync ts) a r (fun t ht => hts t ?_) hr
    unfold withoutAsync at ht
    split at ht
    · exact List.mem_of_mem_drop ht
    · exact ht
  · exact gives_assigned hg

/-! ### Statements -/

/-- The declarators are as the logic says. -/
abbrev AllowsDeclarators (L : TreeLogic) (n : Nat) (ds : List (String × Option Expr)) : Prop :=
  ∀ p ∈ ds, L.text p.1 ∧ ∀ e ∈ p.2, L.expr n e

theorem gives_declarators (kind : DeclKind) (fuel : Nat) : ∀ done, AllowsDeclarators L n done →
    Gives L (declarators g kind done fuel) (AllowsDeclarators L n) := by
  induction fuel with
  | zero => exact fun done hdone => .result (forall_mem_reverse hdone)
  | succ fuel ih =>
    intro done hdone
    have hmore {name : String} (hname : L.text name) (init : Option Expr)
        (hinit : ∀ e ∈ init, L.expr n e) : Gives L (do
          if kind = .constDecl && init.isNone then fail "Missing initializer in const declaration"
          else if ← eat .comma then declarators g kind ((name, init) :: done) fuel
          else pure ((name, init) :: done).reverse : Parser (List (String × Option Expr)))
          (AllowsDeclarators L n) := by
      have hnext : AllowsDeclarators L n ((name, init) :: done) :=
        List.forall_mem_cons.mpr ⟨⟨hname, hinit⟩, hdone⟩
      split
      · exact .fail
      · refine .seq fun more => ?_
        split
        · exact ih _ hnext
        · exact .result (forall_mem_reverse hnext)
    refine gives_ident.bind fun name hname => .seq fun assigned => ?_
    split
    · exact (Gives.present hg.assignment).bind (hmore hname)
    · exact Gives.absent.bind (hmore hname)

theorem gives_declaration (kind : DeclKind) : Gives L (declaration g kind) (L.stmt (n + 1)) :=
  .seq fun _ => .seq fun fuel =>
    (gives_declarators hg kind fuel [] (List.forall_mem_nil _)).bind fun _ hds =>
      .result (L.decl kind hds)

theorem gives_namedFunction : Gives L (namedFunction g) (L.stmt (n + 2)) :=
  gives_ident.bind fun _ hname => (gives_functionRest hg (text_some hname)).bind fun _ hf =>
    .result (L.functionStmt hf)

theorem gives_parenthesized : Gives L (parenthesized g) (L.expr (n + 1)) :=
  .seq fun _ => (gives_expression hg).bind fun _ he => .seq fun _ => .result he

theorem gives_exprUnless (p : Punctuator) :
    Gives L (exprUnless g p) fun x => ∀ e ∈ x, L.expr (n + 2) e := by
  refine .seq fun tokens => ?_
  split
  · exact .absent
  · exact .present ((gives_expression hg).weaken fun _ => L.raiseExpr)

theorem gives_iteration : Gives L (iteration g) (L.stmt (n + 3)) := by
  refine .seq fun _ => gives_ident.bind fun name hname => .seq fun tokens => .seq fun _ => ?_
  refine (gives_expression hg).bind fun source hsource => .seq fun _ => ?_
  refine hg.statement.bind fun body hbody => .result ?_
  have hsource := L.raiseExpr hsource
  have hbody := L.raiseStmt (L.raiseStmt hbody)
  split
  · exact L.forOf hname hsource hbody
  · exact L.forIn hname hsource hbody

theorem gives_loopInit : Gives L (loopInit g) fun x => ∀ s ∈ x, L.stmt (n + 2) s := by
  refine .seq fun tokens => ?_
  split
  · exact .absent
  · split
    · exact .present ((gives_declaration hg _).weaken fun _ => L.raiseStmt)
    · refine (gives_expression hg).map fun e he => ?_
      rintro _ ⟨⟩
      exact L.exprStmt he

theorem gives_countedLoop : Gives L (countedLoop g) (L.stmt (n + 3)) := by
  refine (gives_loopInit hg).bind fun init hinit => .seq fun _ => ?_
  refine (gives_exprUnless hg _).bind fun test htest => .seq fun _ => ?_
  refine (gives_exprUnless hg _).bind fun update hupdate => .seq fun _ => ?_
  exact hg.statement.bind fun body hbody =>
    .result (L.forLoop hinit htest hupdate (L.raiseStmt (L.raiseStmt hbody)))

theorem gives_forStatement : Gives L (forStatement g) (L.stmt (n + 3)) := by
  refine .seq fun _ => .seq fun tokens => ?_
  split
  · exact gives_iteration hg
  · exact gives_countedLoop hg

theorem gives_exportStatement : Gives L (exportStatement g) (L.stmt (n + 1)) := by
  refine .seq fun isDefault => ?_
  split
  · exact hg.assignment.bind fun value hvalue => .seq fun _ => .result (L.exportDefault hvalue)
  · refine hg.statement.bind fun inner hinner => ?_
    split
    · exact .result (L.exportFunction hinner)
    · exact .result (L.exportDecl hinner)
    · exact .fail

theorem gives_expressionStatement : Gives L (expressionStatement g) (L.stmt (n + 2)) :=
  (gives_expression hg).bind fun _ he => .seq fun _ => .result (L.exprStmt he)

theorem gives_returnValue : Gives L (returnValue g) fun x => ∀ e ∈ x, L.expr (n + 1) e := by
  refine .seq fun tokens => ?_
  split
  · exact .absent
  · exact .present (gives_expression hg)

theorem gives_keywordStatement {w : String} {p : Parser Stmt}
    (h : keywordStatement? g w = some p) : Gives L p (L.stmt (n + 3)) := by
  unfold keywordStatement? at h
  split at h <;> cases h
  iterate 3
    exact (gives_declaration hg _).bind fun s hs => .seq fun _ =>
      .result (L.raiseStmt (L.raiseStmt hs))
  · exact .seq fun _ => (gives_namedFunction hg).weaken fun _ => L.raiseStmt
  · exact .seq fun _ => (gives_returnValue hg).bind fun value hvalue => .seq fun _ =>
      .result (L.raiseStmt (L.returnStmt hvalue))
  · refine .seq fun _ => (gives_parenthesized hg).bind fun test htest => ?_
    refine hg.statement.bind fun consequent hconsequent => .seq fun more => ?_
    have hresult (alternative : Option Stmt) (h : ∀ s ∈ alternative, L.stmt n s) :
        L.stmt (n + 3) (.branch test consequent alternative) :=
      L.raiseStmt (L.branch htest (L.raiseStmt hconsequent) fun s hs => L.raiseStmt (h s hs))
    split
    · exact (Gives.present hg.statement).bind fun alternative h => .result (hresult alternative h)
    · exact Gives.absent.bind fun alternative h => .result (hresult alternative h)
  · exact .seq fun _ => (gives_parenthesized hg).bind fun test htest =>
      hg.statement.bind fun body hbody =>
        .result (L.raiseStmt (L.whileLoop htest (L.raiseStmt hbody)))
  · refine .seq fun _ => hg.statement.bind fun body hbody => .seq fun more => ?_
    split
    · exact (gives_parenthesized hg).bind fun test htest => .seq fun _ =>
        .result (L.raiseStmt (L.doLoop (L.raiseStmt hbody) htest))
    · exact .unexpected
  · exact .seq fun _ => gives_forStatement hg
  · exact .seq fun _ => .seq fun _ => .result L.breakStmt
  · exact .seq fun _ => .seq fun _ => .result L.continueStmt
  · exact .seq fun _ => (gives_expression hg).bind fun value hvalue => .seq fun _ =>
      .result (L.raiseStmt (L.throwStmt hvalue))
  · exact .seq fun _ => (gives_exportStatement hg).weaken fun _ hs =>
      L.raiseStmt (L.raiseStmt hs)

theorem gives_statementBody : Gives L (statementBody g) (L.stmt (n + levelsPerNesting)) := by
  refine Gives.weaken (P := L.stmt (n + 3)) (.seq fun tokens => ?_)
    fun s hs => L.stmt_mono hs (Nat.le_add_right (n + 3) 2)
  have hexpression := (gives_expressionStatement hg).weaken fun _ => L.raiseStmt
  have hfunction := (gives_namedFunction hg).weaken fun _ => L.raiseStmt
  split
  · exact .seq fun _ => .result L.emptyStmt
  · exact (gives_block hg.statement).bind fun body hbody =>
      .result (L.raiseStmt (L.raiseStmt (L.blockStmt hbody)))
  · split
    · exact gives_keywordStatement hg (by assumption)
    · split
      · exact .seq fun _ => .seq fun _ => hfunction
      · refine .seq fun ctx => ?_
        split
        · exact hfunction
        · exact hexpression
  · exact hexpression

end Level

/-! ## Whole sources -/

/-- Each nesting takes a fixed number of levels. -/
theorem gives_grammar (L : TreeLogic) (depth : Nat) :
    (grammar depth).Gives L (levelsPerNesting * depth) := by
  induction depth with
  | zero => exact ⟨.fail, .fail, .fail, fun _ => .fail⟩
  | succ depth ih =>
    exact ⟨gives_statementBody ih, gives_assignmentBody ih, gives_unaryBody ih,
      gives_binaryBody ih⟩

theorem gives_program (L : TreeLogic) (fuel : Nat) : ∀ done : List (Stmt × Nat × Nat),
    (∀ p ∈ done, L.stmt (levelsPerNesting * maxNesting) p.1) →
      Gives L (program done fuel) fun ss =>
        ∀ p ∈ ss, L.stmt (levelsPerNesting * maxNesting) p.1 := by
  induction fuel with
  | zero => exact fun done hdone => .result (forall_mem_reverse hdone)
  | succ fuel ih =>
    intro done hdone
    refine .seq fun tokens => ?_
    split
    · exact .result (forall_mem_reverse hdone)
    · refine .seq fun start => (gives_grammar L maxNesting).statement.bind fun s hs => ?_
      exact .seq fun stop => ih _ (List.forall_mem_cons.mpr ⟨hs, hdone⟩)

/-- **The statements of a source are trees of every logic that allows its tokens**, on a level that
is the same for all sources. -/
theorem gives_source (L : TreeLogic) {shorthand : Bool} {source : String}
    {statements : List (Stmt × Nat × Nat)}
    (htokens : ∀ ts, tokenize source = .ok ts → L.AllowsTokens ts)
    (h : run shorthand source = .ok statements) :
    ∀ p ∈ statements, L.stmt (levelsPerNesting * maxNesting) p.1 := by
  obtain ⟨tokens, hts, h⟩ := bind_eq_ok.mp h
  obtain ⟨⟨ss, r⟩, hrun, h⟩ := bind_eq_ok.mp h
  cases h
  exact (gives_program L _ [] (List.forall_mem_nil _) _ _ _ _ (htokens tokens hts) hrun).1

end Parser

namespace TreeLogic
variable (L : TreeLogic) {source : String}
  (htokens : ∀ ts, tokenize source = .ok ts → L.AllowsTokens ts)
include htokens

theorem ofProgram {body : List Stmt} (h : parseProgram source = .ok body) :
    ∀ s ∈ body, L.stmt (Parser.levelsPerNesting * maxNesting) s := by
  obtain ⟨statements, hrun, hbody⟩ := Parser.bind_eq_ok.mp h
  cases hbody
  exact List.forall_mem_map.mpr (Parser.gives_source L htokens hrun)

theorem ofDeclarations {body : List Stmt} (h : parseDeclarations source = .ok body) :
    ∀ s ∈ body, L.stmt (Parser.levelsPerNesting * maxNesting) s := by
  obtain ⟨statements, hrun, hbody⟩ := Parser.bind_eq_ok.mp h
  cases hbody
  exact List.forall_mem_map.mpr (Parser.gives_source L htokens hrun)

omit htokens in
/-- Where the parts of a source end makes no difference to their statements. -/
theorem map_statement_closeLast (size : Nat) (parts : List Located) :
    (closeLast size parts).map Located.statement = parts.map Located.statement := by
  induction parts with
  | nil => rfl
  | cons part rest ih =>
    cases rest with
    | nil => rfl
    | cons next rest => exact congrArg (part.statement :: ·) ih

theorem ofParts {parts : List Located} (h : splitDeclarations source = .ok parts) :
    ∀ part ∈ parts, L.stmt (Parser.levelsPerNesting * maxNesting) part.statement := by
  obtain ⟨statements, hrun, hparts⟩ := Parser.bind_eq_ok.mp h
  cases hparts
  refine List.forall_mem_map.mp ?_
  rw [map_statement_closeLast, List.map_map]
  exact List.forall_mem_map.mpr (Parser.gives_source L htokens hrun)

end TreeLogic
end Stencil.Script
