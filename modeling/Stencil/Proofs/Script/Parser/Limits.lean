import Stencil.Proofs.Script.Parser.Reading

/-! # The limit on nesting

A parser with a lower limit on nesting does what one with a higher limit does, unless it finds that
syntax is nested too deeply (`Parser.Within`).  No parser looks at the error of another one, so this
carries over from the parsers of a level to those that are built from them.  By induction on the
level, **raising the limit changes nothing but that error** (`within_grammar`).
-/
namespace Stencil.Script.Parser
variable {α β : Type}

/-- Syntax has been found to be nested too deeply. -/
def IsTooDeep (x : Except ScriptError α) : Prop :=
  ∃ offset, x = .error (.syntaxAt "Expression nested too deeply" offset)

/-- The first outcome is the second one, unless syntax has been found to be nested too deeply. -/
def EqOrTooDeep (x y : Except ScriptError α) : Prop :=
  x = y ∨ IsTooDeep x

namespace EqOrTooDeep
variable {x y : Except ScriptError α}

theorem refl (x : Except ScriptError α) : EqOrTooDeep x x :=
  .inl rfl

theorem bind {f f' : α → Except ScriptError β} (h : EqOrTooDeep x y)
    (hf : ∀ a, EqOrTooDeep (f a) (f' a)) : EqOrTooDeep (x >>= f) (y >>= f') := by
  rcases h with rfl | ⟨offset, rfl⟩
  · cases x with
    | error e => exact .refl _
    | ok a => exact hf a
  · exact .inr ⟨offset, rfl⟩

theorem map (h : EqOrTooDeep x y) (f : α → β) : EqOrTooDeep (x.map f) (y.map f) := by
  rcases h with rfl | ⟨offset, rfl⟩
  · exact .refl _
  · exact .inr ⟨offset, rfl⟩

theorem of_ok (h : EqOrTooDeep x y) {a : α} (hx : x = .ok a) : y = .ok a := by
  rcases h with rfl | ⟨offset, rfl⟩
  · exact hx
  · cases hx

end EqOrTooDeep

/-- The first parser does what the second one does, unless it finds that syntax is nested too
deeply. -/
def Within (p q : Parser α) : Prop :=
  ∀ ctx ts, EqOrTooDeep (p ctx ts) (q ctx ts)

namespace Within
variable {p q : Parser α} {f f' : α → Parser β}

theorem refl (p : Parser α) : Within p p :=
  fun _ _ => .refl _

theorem tooDeep (q : Parser α) : Within Parser.tooDeep q := by
  intro ctx ts
  cases ts <;> exact .inr ⟨_, rfl⟩

theorem bind (hp : Within p q) (hf : ∀ a, Within (f a) (f' a)) : Within (p >>= f) (q >>= f') :=
  fun ctx ts => (hp ctx ts).bind fun x => hf x.1 ctx x.2

/-- What comes first does not depend on the limit. -/
theorem after (p : Parser α) (hf : ∀ a, Within (f a) (f' a)) : Within (p >>= f) (p >>= f') :=
  (refl p).bind hf

theorem map (hp : Within p q) (f : α → β) : Within (f <$> p) (f <$> q) :=
  hp.bind fun a => refl (pure (f a))

theorem ite {p' q' : Parser α} (c : Prop) [Decidable c] (hp : Within p q) (hp' : Within p' q') :
    Within (if c then p else p') (if c then q else q') := by
  split
  · exact hp
  · exact hp'

theorem lift {x y : Except ScriptError α} (h : EqOrTooDeep x y) :
    Within (liftM x : Parser α) (liftM y) := by
  intro ctx ts
  rw [run_lift, run_lift]
  exact h.map _

end Within

/-! ## Lists and blocks -/

theorem within_commaItems {close : Punctuator} {item item' : Parser α} (h : Within item item')
    (fuel : Nat) : ∀ done, Within (commaItems close item done fuel) (commaItems close item' done fuel) := by
  induction fuel with
  | zero => exact fun _ => .refl _
  | succ fuel ih =>
    intro done
    refine .after ahead fun ts => .ite _ (.refl _) (h.bind fun x => ?_)
    exact .after (eat .comma) fun _ => .ite _ (ih _) (.refl _)

theorem within_bracketed {opening closing : Punctuator} {item item' : Parser α}
    (h : Within item item') : Within (bracketed opening closing item) (bracketed opening closing item') :=
  .after (expect opening) fun _ => .after budget fun fuel =>
    (within_commaItems h fuel []).bind fun _ => .refl _

theorem within_statementsToBrace {statement statement' : Parser Stmt}
    (h : Within statement statement') (fuel : Nat) : ∀ done,
      Within (statementsToBrace statement done fuel) (statementsToBrace statement' done fuel) := by
  induction fuel with
  | zero => exact fun _ => .refl _
  | succ fuel ih =>
    intro done
    refine .after (eat .closeBrace) fun _ => .ite _ (.refl _) (.after ahead fun ts => ?_)
    exact .ite _ (.refl _) (h.bind fun s => ih _)

theorem within_block {statement statement' : Parser Stmt} (h : Within statement statement') :
    Within (block statement) (block statement') :=
  .after (expect .openBrace) fun _ => .after budget fun fuel => within_statementsToBrace h fuel []

/-! ## The parsers of a level -/

/-- The parsers of a level do what those of another one do, unless they find that syntax is nested
too deeply. -/
structure Grammar.Within (g g' : Grammar) : Prop where
  statement : Parser.Within g.statement g'.statement
  assignment : Parser.Within g.assignment g'.assignment
  unary : Parser.Within g.unary g'.unary
  binary : ∀ min, Parser.Within (g.binary min) (g'.binary min)

section Level
variable {g g' : Grammar} (hg : g.Within g')
include hg

theorem within_moreItems (fuel : Nat) : ∀ done,
    Within (moreItems g.assignment done fuel) (moreItems g'.assignment done fuel) := by
  induction fuel with
  | zero => exact fun _ => .refl _
  | succ fuel ih =>
    intro done
    exact .after (eat .comma) fun _ => .ite _ (hg.assignment.bind fun e => ih _) (.refl _)

theorem within_expression : Within (expression g.assignment) (expression g'.assignment) := by
  refine hg.assignment.bind fun first => .after ahead fun ts => .ite _ ?_ (.refl _)
  exact .after budget fun fuel => (within_moreItems hg fuel _).bind fun _ => .refl _

theorem within_operators (min : Nat) (fuel : Nat) : ∀ left,
    Within (operators g.binary min left fuel) (operators g'.binary min left fuel) := by
  induction fuel with
  | zero => exact fun _ => .refl _
  | succ fuel ih =>
    refine fun left => .after ahead fun ts => ?_
    split
    · exact .refl _
    · exact .ite _ (.refl _) (.after skip fun _ => (hg.binary _).bind fun r => ih _)

theorem within_args : Within (args g) (args g') :=
  within_bracketed hg.assignment

theorem within_interpolation (base : Nat) (source : String) :
    EqOrTooDeep (interpolation g base source) (interpolation g' base source) := by
  have hwhole : Within (do
      let e ← expression g.assignment
      if atEnd (← ahead) then pure e else unexpected) (do
      let e ← expression g'.assignment
      if atEnd (← ahead) then pure e else unexpected) :=
    (within_expression hg).bind fun _ => .refl _
  unfold interpolation
  dsimp only
  split
  · exact .refl _
  · exact (hwhole _ _).map _

theorem within_templateParts (start : Nat) (chunks : List Chunk) :
    EqOrTooDeep (templateParts g start chunks) (templateParts g' start chunks) := by
  induction chunks with
  | nil => exact .refl _
  | cons chunk chunks ih =>
    cases chunk with
    | text s => exact ih.bind fun _ => .refl _
    | source s o => exact (within_interpolation hg _ s).bind fun _ => ih.bind fun _ => .refl _

theorem within_functionRest (name : Option String) :
    Within (functionRest g name) (functionRest g' name) :=
  .after params fun _ => (within_block hg.statement).bind fun _ => .refl _

theorem within_objectEntry : Within (objectEntry g) (objectEntry g') := by
  have hrest (key : String) : Within (do
      skip
      if ← eat .colon then pure (key, ← g.assignment)
      else if beginsWith .openParen (← ahead) then
        pure (key, .function (← functionRest g (some key)))
      else pure (key, .name key) : Parser (String × Expr)) (do
      skip
      if ← eat .colon then pure (key, ← g'.assignment)
      else if beginsWith .openParen (← ahead) then
        pure (key, .function (← functionRest g' (some key)))
      else pure (key, .name key) : Parser (String × Expr)) := by
    refine .after skip fun _ => .after (eat .colon) fun _ => .ite _ ?_ (.after ahead fun ts => ?_)
    · exact hg.assignment.bind fun _ => .refl _
    · exact .ite _ ((within_functionRest hg _).bind fun _ => .refl _) (.refl _)
  refine .after ahead fun ts => ?_
  split <;> exact .after _ hrest

theorem within_functionExpr : Within (functionExpr g) (functionExpr g') := by
  refine .after ahead fun ts => ?_
  split <;> exact .after _ fun name => (within_functionRest hg name).bind fun _ => .refl _

theorem within_wordExpr (w : String) : Within (wordExpr g w) (wordExpr g' w) := by
  have hfunction := within_functionExpr hg
  unfold wordExpr
  split
  iterate 4
    exact .refl _
  · exact .after skip fun _ => hfunction
  · exact .after ahead fun ts => .ite _ (.after skip fun _ => .after skip fun _ => hfunction) (.refl _)

theorem within_primary : Within (primary g) (primary g') := by
  refine .after ahead fun ts => ?_
  split
  · exact .refl _
  · exact .refl _
  · refine .after offset fun start => .after skip fun _ => ?_
    exact (Within.lift (within_templateParts hg start _)).bind fun _ => .refl _
  · exact within_wordExpr hg _
  · exact .after skip fun _ => (within_expression hg).bind fun _ => .refl _
  · exact (within_bracketed hg.assignment).bind fun _ => .refl _
  · exact (within_bracketed (within_objectEntry hg)).bind fun _ => .refl _
  · exact .refl _

theorem within_indexedMember (e : Expr) (optional : Bool) :
    Within (indexedMember g e optional) (indexedMember g' e optional) :=
  (within_expression hg).bind fun _ => .refl _

theorem within_optionalLink (e : Expr) : Within (optionalLink g e) (optionalLink g' e) := by
  refine .after ahead fun ts => .ite _ ((within_args hg).bind fun _ => .refl _) ?_
  exact .after (eat .openBracket) fun _ => .ite _ (within_indexedMember hg e true) (.refl _)

theorem within_link (e : Expr) (k : TokenKind) :
    (link? g e k = none ∧ link? g' e k = none) ∨
      ∃ p p', link? g e k = some p ∧ link? g' e k = some p' ∧ Within p p' := by
  unfold link?
  split
  · exact .inr ⟨_, _, rfl, rfl, .refl _⟩
  · exact .inr ⟨_, _, rfl, rfl, .after skip fun _ => within_optionalLink hg e⟩
  · exact .inr ⟨_, _, rfl, rfl, .after skip fun _ => within_indexedMember hg e false⟩
  · exact .inr ⟨_, _, rfl, rfl, (within_args hg).bind fun _ => .refl _⟩
  · exact .inr ⟨_, _, rfl, rfl, .refl _⟩
  · exact .inl ⟨rfl, rfl⟩

theorem within_chain (fuel : Nat) : ∀ e, Within (chain g e fuel) (chain g' e fuel) := by
  induction fuel with
  | zero => exact fun _ => .refl _
  | succ fuel ih =>
    intro e
    refine .after ahead fun ts => ?_
    rcases within_link hg e (kindAt ts) with ⟨h, h'⟩ | ⟨p, p', h, h', hp⟩
    · rw [h, h']
      exact .refl _
    · rw [h, h']
      exact hp.bind ih

theorem within_newArgs : Within (newArgs g) (newArgs g') :=
  .after ahead fun _ => .ite _ (within_args hg) (.refl _)

theorem within_construction : Within (construction g) (construction g') := by
  refine (within_primary hg).bind fun e => .after budget fun fuel => ?_
  exact .after (plainMembers e fuel) fun callee => (within_newArgs hg).bind fun _ => .refl _

theorem within_head : Within (head g) (head g') :=
  .after (eatWord "new") fun _ => .ite _ (within_construction hg) (within_primary hg)

theorem within_callMember : Within (callMember g) (callMember g') :=
  (within_head hg).bind fun e => .after budget fun fuel => within_chain hg fuel e

theorem within_postfixed : Within (postfixed g) (postfixed g') :=
  .after offset fun _ => (within_callMember hg).bind fun _ => .refl _

theorem within_prefixed : Within (prefixed g) (prefixed g') := by
  refine .after ahead fun ts => ?_
  split
  · exact within_postfixed hg
  · exact .after offset fun _ => .after skip fun _ => hg.unary.bind fun _ => .refl _

theorem within_unaryBody : Within (unaryBody g) (unaryBody g') := by
  refine .after ahead fun ts => ?_
  split
  · exact .after skip fun _ => hg.unary.bind fun _ => .refl _
  · exact .after (eatWord "await") fun _ =>
      .ite _ (hg.unary.bind fun _ => .refl _) (within_prefixed hg)

theorem within_binaryBody (min : Nat) : Within (binaryBody g min) (binaryBody g' min) :=
  (within_unaryBody hg).bind fun left => .after budget fun fuel => within_operators hg min fuel left

theorem within_conditional : Within (conditional g) (conditional g') := by
  refine (hg.binary 0).bind fun test => .after (eat .question) fun _ => .ite _ ?_ (.refl _)
  exact hg.assignment.bind fun _ => .after (expect .colon) fun _ =>
    hg.assignment.bind fun _ => .refl _

theorem within_arrowFunction : Within (arrowFunction g) (arrowFunction g') := by
  refine .after arrowParams fun ps => .after (expect .arrow) fun _ => .after ahead fun ts => ?_
  exact .ite _ ((within_block hg.statement).bind fun _ => .refl _)
    (hg.assignment.bind fun _ => .refl _)

theorem within_assigned : Within (assigned g) (assigned g') := by
  refine .after offset fun _ => (within_conditional hg).bind fun target => .after ahead fun ts => ?_
  split
  · exact .refl _
  · exact .ite _ (.after skip fun _ => hg.assignment.bind fun _ => .refl _) (.refl _)

theorem within_assignmentBody : Within (assignmentBody g) (assignmentBody g') :=
  .after ahead fun ts => .ite _ (.after (set (withoutAsync ts)) fun _ => within_arrowFunction hg)
    (within_assigned hg)

theorem within_declarators (kind : DeclKind) (fuel : Nat) : ∀ done,
    Within (declarators g kind done fuel) (declarators g' kind done fuel) := by
  induction fuel with
  | zero => exact fun _ => .refl _
  | succ fuel ih =>
    intro done
    have hmore (name : String) (init : Option Expr) : Within (do
        if kind = .constDecl && init.isNone then fail "Missing initializer in const declaration"
        else if ← eat .comma then declarators g kind ((name, init) :: done) fuel
        else pure ((name, init) :: done).reverse : Parser _) (do
        if kind = .constDecl && init.isNone then fail "Missing initializer in const declaration"
        else if ← eat .comma then declarators g' kind ((name, init) :: done) fuel
        else pure ((name, init) :: done).reverse : Parser _) :=
      .ite _ (.refl _) (.after (eat .comma) fun _ => .ite _ (ih _) (.refl _))
    refine .after ident fun name => .after (eat .assign) fun _ => .ite _ ?_ ?_
    · exact (hg.assignment.map some).bind (hmore name)
    · exact .after (pure none) (hmore name)

theorem within_declaration (kind : DeclKind) : Within (declaration g kind) (declaration g' kind) :=
  .after skip fun _ => .after budget fun fuel =>
    (within_declarators hg kind fuel []).bind fun _ => .refl _

theorem within_namedFunction : Within (namedFunction g) (namedFunction g') :=
  .after ident fun name => (within_functionRest hg name).bind fun _ => .refl _

theorem within_parenthesized : Within (parenthesized g) (parenthesized g') :=
  .after (expect .openParen) fun _ => (within_expression hg).bind fun _ => .refl _

theorem within_exprUnless (p : Punctuator) : Within (exprUnless g p) (exprUnless g' p) :=
  .after ahead fun _ => .ite _ (.refl _) ((within_expression hg).map some)

theorem within_iteration : Within (iteration g) (iteration g') := by
  refine .after skip fun _ => .after ident fun name => .after ahead fun ts => .after skip fun _ => ?_
  exact (within_expression hg).bind fun source => .after (expect .closeParen) fun _ =>
    hg.statement.bind fun _ => .refl _

theorem within_loopInit : Within (loopInit g) (loopInit g') := by
  refine .after ahead fun ts => .ite _ (.refl _) ?_
  split
  · exact (within_declaration hg _).map _
  · exact (within_expression hg).map _

theorem within_countedLoop : Within (countedLoop g) (countedLoop g') := by
  refine (within_loopInit hg).bind fun init => .after (expect .semicolon) fun _ => ?_
  refine (within_exprUnless hg _).bind fun test => .after (expect .semicolon) fun _ => ?_
  refine (within_exprUnless hg _).bind fun update => .after (expect .closeParen) fun _ => ?_
  exact hg.statement.bind fun _ => .refl _

theorem within_forStatement : Within (forStatement g) (forStatement g') :=
  .after (expect .openParen) fun _ => .after ahead fun _ =>
    .ite _ (within_iteration hg) (within_countedLoop hg)

theorem within_exportStatement : Within (exportStatement g) (exportStatement g') :=
  .after (eatWord "default") fun _ =>
    .ite _ (hg.assignment.bind fun _ => .refl _) (hg.statement.bind fun _ => .refl _)

theorem within_expressionStatement : Within (expressionStatement g) (expressionStatement g') :=
  (within_expression hg).bind fun _ => .refl _

theorem within_returnValue : Within (returnValue g) (returnValue g') :=
  .after ahead fun _ => .ite _ (.refl _) ((within_expression hg).map some)

theorem within_branch : Within (do
    let test ← parenthesized g
    let consequent ← g.statement
    let alternative ← if ← eatWord "else" then some <$> g.statement else pure none
    pure (.branch test consequent alternative) : Parser Stmt) (do
    let test ← parenthesized g'
    let consequent ← g'.statement
    let alternative ← if ← eatWord "else" then some <$> g'.statement else pure none
    pure (.branch test consequent alternative)) := by
  refine (within_parenthesized hg).bind fun test => hg.statement.bind fun consequent => ?_
  refine .after (eatWord "else") fun _ => .ite _ ?_ (.refl _)
  exact (hg.statement.map some).bind fun _ => .refl _

theorem within_doLoop : Within (do
    let body ← g.statement
    if ← eatWord "while" then
      let test ← parenthesized g
      endStatement
      pure (.doLoop body test)
    else unexpected : Parser Stmt) (do
    let body ← g'.statement
    if ← eatWord "while" then
      let test ← parenthesized g'
      endStatement
      pure (.doLoop body test)
    else unexpected) :=
  hg.statement.bind fun _ => .after (eatWord "while") fun _ =>
    .ite _ ((within_parenthesized hg).bind fun _ => .refl _) (.refl _)

theorem within_keywordStatement (w : String) :
    (keywordStatement? g w = none ∧ keywordStatement? g' w = none) ∨
      ∃ p p', keywordStatement? g w = some p ∧ keywordStatement? g' w = some p' ∧ Within p p' := by
  unfold keywordStatement?
  split
  iterate 3
    exact .inr ⟨_, _, rfl, rfl, (within_declaration hg _).bind fun _ => .refl _⟩
  · exact .inr ⟨_, _, rfl, rfl, .after skip fun _ => within_namedFunction hg⟩
  · exact .inr ⟨_, _, rfl, rfl, .after skip fun _ => (within_returnValue hg).bind fun _ => .refl _⟩
  · exact .inr ⟨_, _, rfl, rfl, .after skip fun _ => within_branch hg⟩
  · exact .inr ⟨_, _, rfl, rfl, .after skip fun _ => (within_parenthesized hg).bind fun _ =>
      hg.statement.bind fun _ => .refl _⟩
  · exact .inr ⟨_, _, rfl, rfl, .after skip fun _ => within_doLoop hg⟩
  · exact .inr ⟨_, _, rfl, rfl, .after skip fun _ => within_forStatement hg⟩
  · exact .inr ⟨_, _, rfl, rfl, .refl _⟩
  · exact .inr ⟨_, _, rfl, rfl, .refl _⟩
  · exact .inr ⟨_, _, rfl, rfl, .after skip fun _ => (within_expression hg).bind fun _ => .refl _⟩
  · exact .inr ⟨_, _, rfl, rfl, .after skip fun _ => within_exportStatement hg⟩
  · exact .inl ⟨rfl, rfl⟩

theorem within_statementBody : Within (statementBody g) (statementBody g') := by
  refine .after ahead fun ts => ?_
  split
  · exact .refl _
  · exact (within_block hg.statement).bind fun _ => .refl _
  · rename_i w _
    rcases within_keywordStatement hg w with ⟨h, h'⟩ | ⟨p, p', h, h', hp⟩
    · rw [h, h']
      refine .ite _ (.after skip fun _ => .after skip fun _ => within_namedFunction hg) ?_
      exact .after read fun _ => .ite _ (within_namedFunction hg) (within_expressionStatement hg)
    · rw [h, h']
      exact hp
  · exact within_expressionStatement hg

end Level

/-- **Raising the limit on nesting changes nothing** but what was nested too deeply for it. -/
theorem within_grammar {low high : Nat} (h : low ≤ high) : (grammar low).Within (grammar high) := by
  induction low generalizing high with
  | zero => exact ⟨.tooDeep _, .tooDeep _, .tooDeep _, fun _ => .tooDeep _⟩
  | succ low ih =>
    obtain ⟨high, rfl⟩ := Nat.exists_eq_add_of_le' (Nat.le_trans (Nat.le_add_left 1 low) h)
    have hg := ih (Nat.le_of_succ_le_succ h)
    exact ⟨within_statementBody hg, within_assignmentBody hg, within_unaryBody hg,
      within_binaryBody hg⟩

end Stencil.Script.Parser
