import Stencil.Proofs.Script.Parser.Tracking

/-! # The parser makes progress

If the steppers of a level track the parsers of a level, so does each stepper that is built from
them.  Statements, assignments, operands and the right sides of operators are one level further in
than what they stand in: a level is opened for them and closed behind them (`tracks_nested`), and one
level too many fails (`tracks_tooDeep`).  By induction on the levels that may still be opened, **the
steppers keep pace with the grammar** (`tracks_level`).

The parsers of the grammar read at least one token, hence **each call moves the cursor on, within the
tokens and back to the same depth, and every source is parsed to its end** (`parser_progress`).
-/
namespace Stencil.Script.Stepper
open Stencil.Script.Parser (kindAt beginsWith kindAt_of_beginsWithWord Reads)

variable {α β : Type} {depth n : Nat} {text : Text} {c c' : Cursor}

/-! ## Steppers of one level -/

/-- The steppers of a level do what the parsers of a level do, and these read at least a token. -/
structure Level.Tracks (depth : Nat) (l : Level) (g : Parser.Grammar) : Prop where
  reads : g.Reads
  statement : Stepper.Tracks depth l.statement g.statement
  assignment : Stepper.Tracks depth l.assignment g.assignment
  unary : Stepper.Tracks depth l.unary g.unary
  binary : ∀ min, Stepper.Tracks depth (l.binary min) (g.binary min)

/-- Another text is parsed from its front, with a cursor that stands at the same depth. -/
theorem tracks_onText {p : Stepper α} {q : Parser α} (hp : Tracks depth p q) {other : Text}
    (hends : other.Ends) :
    Tracks depth (onText other p)
      (liftM ((q other.context other.tokens).map Prod.fst) : Parser α) := by
  intro text c h
  have hother := hp other ⟨0, c.depth⟩ ⟨hends, hends.length_pos, h.depth_eq⟩
  unfold TracksAt at hother ⊢
  rw [Parser.run_lift, onText]
  change Agrees other ⟨0, c.depth⟩ (p other ⟨0, c.depth⟩) (q other.context other.tokens) at hother
  generalize p other ⟨0, c.depth⟩ = x at hother ⊢
  generalize q other.context other.tokens = y at hother ⊢
  cases hother with
  | done => exact .done (Nat.le_refl _) h.lt rfl
  | failed => exact .failed h.lt (.inl rfl)

section Level
variable {l : Level} {g : Parser.Grammar} (hl : l.Tracks depth g)
include hl

theorem tracks_moreItems (n : Nat) : ∀ done, TracksWithin depth n (moreItems l.assignment done n)
    (Parser.moreItems g.assignment done n) := by
  induction n with
  | zero => exact fun _ => .zero
  | succ n ih =>
    intro done
    refine (tracks_eat .comma).within.bind fun more => ?_
    split
    · exact .turn hl.assignment hl.reads.assignment fun e => ih (e :: done)
    · exact (Tracks.result _).within

theorem tracks_expression :
    Tracks depth (expression l.assignment) (Parser.expression g.assignment) := by
  refine hl.assignment.bind fun first => Tracks.look fun text c h => ?_
  split
  · refine (tracks_budget fun n => ?_) text c h
    exact (tracks_moreItems hl n [first]).bind fun items => (Tracks.result _).within
  · exact .result h first

theorem tracks_args : Tracks depth (args l) (Parser.args g) :=
  tracks_bracketed hl.assignment hl.reads.assignment

theorem tracks_interpolation (base : Nat) (source : String) :
    Tracks depth (interpolation l base source)
      (liftM (Parser.interpolation g base source) : Parser Expr) := by
  unfold interpolation Parser.interpolation
  cases htokens : tokenize source with
  | error e => exact .error _
  | ok tokens =>
    refine tracks_onText ?_ (ends_of_tokenize htokens base false)
    refine (tracks_expression hl).bind fun e => Tracks.look fun text c h => ?_
    split
    · exact .result h e
    · exact tracks_unexpected text c h

theorem tracks_templateParts (start : Nat) (chunks : List Chunk) :
    Tracks depth (templateParts l start chunks)
      (liftM (Parser.templateParts g start chunks) : Parser _) := by
  induction chunks with
  | nil => exact .result []
  | cons chunk chunks ih =>
    cases chunk with
    | text s =>
      rw [templateParts, Parser.templateParts, liftM_bind]
      exact ih.bind fun parts => .result _
    | source s o =>
      rw [templateParts, Parser.templateParts, liftM_bind]
      refine (tracks_interpolation hl _ s).bind fun e => ?_
      rw [liftM_bind]
      exact ih.bind fun parts => .result _

theorem tracks_functionRest (name : Option String) :
    Tracks depth (functionRest l name) (Parser.functionRest g name) := by
  refine tracks_params.bind fun ps => (tracks_block hl.statement hl.reads.statement).bind ?_
  exact fun body => .result _

theorem tracks_objectEntry : Tracks depth (objectEntry l) (Parser.objectEntry g) := by
  have hrest (key : String) : Tracks depth (do
      if ← eat .colon then pure (key, ← l.assignment)
      else if beginsWith .openParen (← ahead) then
        pure (key, .function (← functionRest l (some key)))
      else pure (key, .name key) : Stepper (String × Expr)) (do
      if ← Parser.eat .colon then pure (key, ← g.assignment)
      else if beginsWith .openParen (← Parser.ahead) then
        pure (key, .function (← Parser.functionRest g (some key)))
      else pure (key, .name key) : Parser (String × Expr)) := by
    refine (tracks_eat .colon).bind fun colon => ?_
    split
    · exact hl.assignment.bind fun e => .result _
    · refine Tracks.look fun text c h => ?_
      split
      · exact (tracks_functionRest hl _ text c h).andThen h fun f => .result _
      · exact .result h _
  intro text c h
  refine .of_eq (run_taking_bind key? _ h.lt) (.lookRight ?_)
  cases hk : kindAt (text.ahead c) with
  | word name => exact (TracksAt.bump h hk nofun).andThen h fun _ => hrest name
  | string s => exact (TracksAt.bump h hk nofun).andThen h fun _ => hrest s
  | number x => exact (TracksAt.bump h hk nofun).andThen h fun _ => hrest _
  | _ =>
    refine (tracks_unexpected text c h).bind h fun _ _ hok _ _ => ?_
    exact absurd hok Parser.unexpected_ne_ok

theorem tracks_functionExpr : Tracks depth (functionExpr l) (Parser.functionExpr g) := by
  have hrest (name : Option String) : Tracks depth (do
      pure (.function (← functionRest l name)) : Stepper Expr) (do
      pure (.function (← Parser.functionRest g name)) : Parser Expr) :=
    (tracks_functionRest hl name).bind fun f => .result _
  refine Tracks.look fun text c h => ?_
  cases kindAt (text.ahead c) with
  | word _ => exact (tracks_ident.map some).bind hrest text c h
  | _ => exact (Tracks.result none).bind hrest text c h

theorem tracksAt_wordExpr (h : Stands depth text c) {w : String}
    (hk : kindAt (text.ahead c) = .word w) :
    TracksAt (wordExpr l w) (Parser.wordExpr g w) text c := by
  have hbump : TracksAt bump Parser.skip text c := .bump h hk nofun
  unfold Parser.wordExpr
  split
  iterate 4
    exact hbump.andThen h fun _ => .result _
  · exact hbump.andThen h fun _ => tracks_functionExpr hl
  · -- a word without a meaning of its own, hence none of those before
    unfold wordExpr
    split <;> try contradiction
    refine TracksAt.look ?_
    split
    · rename_i hasync
      exact .bump_word h hk (Bool.and_eq_true_iff.mp hasync).2 (tracks_functionExpr hl text)
    · split
      · exact tracks_fail _ text c h
      · exact hbump.andThen h fun _ => .result _

theorem tracks_primary : Tracks depth (primary l) (Parser.primary g) := by
  refine Tracks.look fun text c h => ?_
  cases hk : kindAt (text.ahead c) with
  | number x => exact (TracksAt.bump h hk nofun).andThen h fun _ => .result _
  | string s => exact (TracksAt.bump h hk nofun).andThen h fun _ => .result _
  | template chunks =>
    refine .offset_bind h fun start => ?_
    refine (TracksAt.bump h hk nofun).andThen h fun _ => ?_
    exact (tracks_templateParts hl start chunks).bind fun parts => .result _
  | word w => exact tracksAt_wordExpr hl h hk
  | eof => exact tracks_unexpected text c h
  | punctuator p =>
    cases p with
    | openParen =>
      refine (TracksAt.bump h hk nofun).andThen h fun _ => (tracks_expression hl).bind ?_
      exact fun e => (tracks_expect .closeParen).bind fun _ => .result e
    | openBracket =>
      have hreads := hl.reads.assignment
      exact (tracks_bracketed hl.assignment hreads).bind (fun items => .result _) text c h
    | openBrace =>
      have hreads := Parser.reads_objectEntry hl.reads
      exact (tracks_bracketed (tracks_objectEntry hl) hreads).bind (fun entries => .result _) text c h
    | _ => exact tracks_unexpected text c h

theorem tracks_indexedMember (e : Expr) (optional : Bool) :
    Tracks depth (indexedMember l e optional) (Parser.indexedMember g e optional) :=
  (tracks_expression hl).bind fun _ => (tracks_expect .closeBracket).bind fun _ => .result _

theorem tracks_optionalLink (e : Expr) :
    Tracks depth (optionalLink l e) (Parser.optionalLink g e) := by
  refine Tracks.look fun text c h => ?_
  split
  · exact (tracks_args hl).bind (fun arguments => .result _) text c h
  · refine (tracks_eat .openBracket).bind (fun bracket => ?_) text c h
    split
    · exact tracks_indexedMember hl e true
    · exact tracks_propertyName.bind fun name => .result _

/-- A token introduces the same behind an expression for both. -/
theorem tracksAt_link (h : Stands depth text c) (e : Expr) :
    Option.Rel (fun p q => TracksAt p q text c) (link? l e (kindAt (text.ahead c)))
      (Parser.link? g e (kindAt (text.ahead c))) := by
  cases hk : kindAt (text.ahead c) with
  | template chunks => exact .some (tracks_unexpected text c h)
  | punctuator p =>
    cases p with
    | dot =>
      refine .some ((TracksAt.bump h hk nofun).andThen h fun _ => ?_)
      exact tracks_propertyName.bind fun name => .result _
    | optionalChain =>
      refine .some ((TracksAt.bump h hk nofun).andThen h fun _ => ?_)
      exact tracks_optionalLink hl e
    | openBracket =>
      refine .some ((TracksAt.bump h hk nofun).andThen h fun _ => ?_)
      exact tracks_indexedMember hl e false
    | openParen =>
      exact .some ((tracks_args hl).bind (fun arguments => .result _) text c h)
    | _ => exact .none
  | _ => exact .none

theorem tracks_chain (n : Nat) :
    ∀ e, TracksWithin depth n (chain l e n) (Parser.chain g e n) := by
  induction n with
  | zero => exact fun _ => .zero
  | succ n ih =>
    intro e text c h hlength
    refine TracksAt.look ?_
    have hlink := tracksAt_link hl h e
    generalize hp : link? l e (kindAt (text.ahead c)) = p at hlink
    generalize hq : Parser.link? g e (kindAt (text.ahead c)) = q at hlink
    cases hlink with
    | none => exact .result h e
    | some hlink =>
      refine hlink.bind h fun e' c' hrun _ hc' => ih e' text c' hc' ?_
      have hless := (Parser.reads_link hl.reads hq).length_add_le hrun
      omega

theorem tracks_newArgs : Tracks depth (newArgs l) (Parser.newArgs g) := by
  refine Tracks.look fun text c h => ?_
  split
  · exact tracks_args hl text c h
  · exact .result h []

theorem tracks_construction : Tracks depth (construction l) (Parser.construction g) := by
  refine (tracks_primary hl).bind fun e => tracks_budget fun n => ?_
  refine (tracks_plainMembers n e).bind fun callee => Tracks.within ?_
  exact (tracks_newArgs hl).bind fun _ => .result _

theorem tracks_head : Tracks depth (head l) (Parser.head g) := by
  refine (tracks_eatWord "new").bind fun isNew => ?_
  split
  · exact tracks_construction hl
  · exact tracks_primary hl

theorem tracks_callMember : Tracks depth (callMember l) (Parser.callMember g) :=
  (tracks_head hl).bind fun first => tracks_budget fun n => tracks_chain hl n first

theorem tracks_postfixed : Tracks depth (postfixed l) (Parser.postfixed g) := by
  refine tracks_offset.bind fun start => (tracks_callMember hl).bind fun e => ?_
  refine Tracks.look fun text c h => ?_
  cases hop : Parser.updateOp? (kindAt (text.ahead c)) with
  | none => exact .result h e
  | some op =>
    have hne := TokenKind.ne_eof_of_isPhrase (Parser.isPhrase_of_updateOp hop)
    dsimp only
    split
    · exact (TracksAt.bump h rfl hne).andThen h fun _ => .result _
    · exact .error h _

theorem tracks_prefixed : Tracks depth (prefixed l) (Parser.prefixed g) := by
  refine Tracks.look fun text c h => ?_
  cases hop : Parser.updateOp? (kindAt (text.ahead c)) with
  | none => exact tracks_postfixed hl text c h
  | some op =>
    have hne := TokenKind.ne_eof_of_isPhrase (Parser.isPhrase_of_updateOp hop)
    refine .offset_bind h fun start => (TracksAt.bump h rfl hne).andThen h fun _ => ?_
    refine hl.unary.bind fun target => ?_
    split
    · exact .result _
    · exact .error _

theorem tracks_unaryBody : Tracks depth (unaryBody l) (Parser.unaryBody g) := by
  refine Tracks.look fun text c h => ?_
  cases hop : Parser.unaryOp? (kindAt (text.ahead c)) with
  | some op =>
    have hne := TokenKind.ne_eof_of_isPhrase (Parser.isPhrase_of_unaryOp hop)
    refine (TracksAt.bump h rfl hne).andThen h fun _ => ?_
    exact hl.unary.bind fun e => .result _
  | none =>
    refine (tracks_eatWord "await").bind (fun isAwait => ?_) text c h
    split
    · exact hl.unary.bind fun e => .result _
    · exact tracks_prefixed hl

theorem tracks_conditional : Tracks depth (conditional l) (Parser.conditional g) := by
  refine (hl.binary 0).bind fun test => (tracks_eat .question).bind fun more => ?_
  split
  · refine hl.assignment.bind fun consequent => (tracks_expect .colon).bind fun _ => ?_
    exact hl.assignment.bind fun alternative => .result _
  · exact .result test

theorem tracks_arrowRest (ps : List String) :
    Tracks depth (arrowRest l ps) (Parser.arrowRest g ps) := by
  refine (tracks_expect .arrow).bind fun _ => Tracks.look fun text c h => ?_
  split
  · exact (tracks_block hl.statement hl.reads.statement).bind (fun body => .result _) text c h
  · exact hl.assignment.bind (fun e => .result _) text c h

theorem tracks_assigned : Tracks depth (assigned l) (Parser.assigned g) := by
  refine tracks_offset.bind fun start => (tracks_conditional hl).bind fun target => ?_
  refine Tracks.look fun text c h => ?_
  cases hop : Parser.assignOp? (kindAt (text.ahead c)) with
  | none => exact .result h target
  | some op =>
    have hne := TokenKind.ne_eof_of_isPhrase (Parser.isPhrase_of_assignOp hop)
    dsimp only
    split
    · refine (TracksAt.bump h rfl hne).andThen h fun _ => ?_
      exact hl.assignment.bind fun e => .result _
    · exact .error h _

theorem tracks_arrowFunction : Tracks depth (arrowFunction l) (Parser.arrowFunction g) :=
  tracks_arrowParams.bind fun ps => tracks_arrowRest hl ps

omit hl in
/-- What an assignment does is seen once the word `async` has been passed. -/
theorem run_assignmentBody (h : skipAsync text c = some (.ok (), c')) :
    assignmentBody l text c =
      if Parser.startsArrow (text.ahead c') then arrowFunction l text c'
      else assigned l text c := by
  have htry : tryArrow l text c =
      (if Parser.startsArrow (text.ahead c') then some <$> arrowFunction l else do
        set c
        pure none : Stepper (Option Expr)) text c' := by
    change (skipAsync >>= fun _ => _) text c = _
    rw [run_bind, h]
    rfl
  rw [assignmentBody, run_bind, htry]
  by_cases harrow : Parser.startsArrow (text.ahead c') = true
  · rw [if_pos harrow, if_pos harrow, map_eq_pure_bind, run_bind]
    rcases arrowFunction l text c' with _ | ⟨_ | _, _⟩ <;> rfl
  · rw [if_neg harrow, if_neg harrow]
    rfl

theorem tracks_assignmentBody : Tracks depth (assignmentBody l) (Parser.assignmentBody g) := by
  intro text c h
  obtain ⟨c', hskip, hahead, hle, hc'⟩ := exists_skipAsync h
  -- the parser decides by the tokens behind the word, which are those ahead of the stepper
  have hparser : Parser.assignmentBody g text.context (text.ahead c) =
      if Parser.startsArrow (text.ahead c') then
        Parser.arrowFunction g text.context (text.ahead c')
      else Parser.assigned g text.context (text.ahead c) := by
    rw [hahead]
    change (if _ then _ else _ : Parser Expr) text.context (text.ahead c) = _
    split <;> rfl
  unfold TracksAt
  rw [run_assignmentBody hskip, hparser]
  split
  · exact Agrees.of_moved (tracks_arrowFunction hl text c' hc') hle
      (hc'.depth_eq.trans h.depth_eq.symm)
  · exact tracks_assigned hl text c h

theorem tracks_declarators (kind : DeclKind) (n : Nat) :
    ∀ done, TracksWithin depth n (declarators l kind done n)
      (Parser.declarators g kind done n) := by
  induction n with
  | zero => exact fun _ => .zero
  | succ n ih =>
    intro done
    have hmore (name : String) (init : Option Expr) : TracksWithin depth n (do
        if kind = .constDecl && init.isNone then fail "Missing initializer in const declaration"
        else if ← eat .comma then declarators l kind ((name, init) :: done) n
        else pure ((name, init) :: done).reverse) (do
        if kind = .constDecl && init.isNone then
          Parser.fail "Missing initializer in const declaration"
        else if ← Parser.eat .comma then Parser.declarators g kind ((name, init) :: done) n
        else pure ((name, init) :: done).reverse) := by
      split
      · exact (tracks_fail _).within
      · refine (tracks_eat .comma).within.bind fun more => ?_
        split
        · exact ih _
        · exact (Tracks.result _).within
    refine .turn tracks_ident Parser.reads_ident fun name => ?_
    refine (tracks_eat .assign).within.bind fun assigned => ?_
    split
    · exact (hl.assignment.map some).within.bind fun init => hmore name init
    · exact (Tracks.result none).within.bind fun init => hmore name init

theorem tracksAt_declaration (kind : DeclKind) (h : Stands depth text c) {w : String}
    (hw : kindAt (text.ahead c) = .word w) :
    TracksAt (declaration l kind) (Parser.declaration g kind) text c := by
  refine (TracksAt.bump h hw nofun).andThen h fun _ => tracks_budget fun n => ?_
  exact (tracks_declarators hl kind n []).bind fun _ => (Tracks.result _).within

theorem tracks_namedFunction : Tracks depth (namedFunction l) (Parser.namedFunction g) :=
  tracks_ident.bind fun name => (tracks_functionRest hl name).bind fun _ => .result _

theorem tracks_parenthesized : Tracks depth (parenthesized l) (Parser.parenthesized g) :=
  (tracks_expect .openParen).bind fun _ => (tracks_expression hl).bind fun e =>
    (tracks_expect .closeParen).bind fun _ => .result e

theorem tracks_exprUnless (p : Punctuator) :
    Tracks depth (exprUnless l p) (Parser.exprUnless g p) := by
  refine Tracks.look fun text c h => ?_
  split
  · exact .result h none
  · exact (tracks_expression hl).map some text c h

/-- Where a loop over items or keys starts, the words are there that show it. -/
theorem tracksAt_iteration (h : Stands depth text c)
    (hstarts : Parser.startsIteration (text.ahead c) = true) :
    TracksAt (iteration l) (Parser.iteration g) text c := by
  obtain ⟨hstarts, hlink⟩ := Bool.and_eq_true_iff.mp hstarts
  obtain ⟨hdecl, -⟩ := Bool.and_eq_true_iff.mp hstarts
  obtain ⟨w, hw⟩ := Parser.kindAt_of_declAhead hdecl
  obtain ⟨link, -, hlink⟩ := kindAt_of_beginsWithWord hlink
  refine .bump_bind h hw nofun fun c₁ h₁ hc₁ => ?_
  refine (tracks_ident text c₁ hc₁).bind hc₁ fun name c₂ hname _ hc₂ => ?_
  obtain ⟨-, h₂⟩ := Parser.run_ident_ok hname
  have hk : kindAt (text.ahead c₂) = .word link := by
    rw [h₂, h₁, List.drop_drop]
    exact hlink
  refine TracksAt.look ((TracksAt.bump hc₂ hk nofun).andThen hc₂ fun _ => ?_)
  refine (tracks_expression hl).bind fun source => (tracks_expect .closeParen).bind fun _ => ?_
  exact hl.statement.bind fun body => .result _

theorem tracks_loopInit : Tracks depth (loopInit l) (Parser.loopInit g) := by
  refine Tracks.look fun text c h => ?_
  split
  · exact .result h none
  · cases hdecl : Parser.declAhead? (text.ahead c) with
    | some kind =>
      obtain ⟨w, hw⟩ := Parser.kindAt_of_declAhead (Option.isSome_iff_exists.mpr ⟨_, hdecl⟩)
      exact (tracksAt_declaration hl kind h hw).map h some
    | none => exact (tracks_expression hl).map _ text c h

theorem tracks_countedLoop : Tracks depth (countedLoop l) (Parser.countedLoop g) := by
  refine (tracks_loopInit hl).bind fun init => (tracks_expect .semicolon).bind fun _ => ?_
  refine (tracks_exprUnless hl .semicolon).bind fun test => ?_
  refine (tracks_expect .semicolon).bind fun _ => ?_
  refine (tracks_exprUnless hl .closeParen).bind fun update => ?_
  exact (tracks_expect .closeParen).bind fun _ => hl.statement.bind fun body => .result _

theorem tracks_forStatement : Tracks depth (forStatement l) (Parser.forStatement g) := by
  refine (tracks_expect .openParen).bind fun _ => Tracks.look fun text c h => ?_
  split
  · exact tracksAt_iteration hl h (by assumption)
  · exact tracks_countedLoop hl text c h

theorem tracks_exportStatement : Tracks depth (exportStatement l) (Parser.exportStatement g) := by
  refine (tracks_eatWord "default").bind fun isDefault => ?_
  split
  · exact hl.assignment.bind fun value => tracks_endStatement.bind fun _ => .result _
  · refine hl.statement.bind fun inner => ?_
    cases inner with
    | function _ => exact .result _
    | decl _ _ => exact .result _
    | _ => exact tracks_fail _

theorem tracks_expressionStatement :
    Tracks depth (expressionStatement l) (Parser.expressionStatement g) :=
  (tracks_expression hl).bind fun _ => tracks_endStatement.bind fun _ => .result _

theorem tracks_returnValue : Tracks depth (returnValue l) (Parser.returnValue g) := by
  refine Tracks.look fun text c h => ?_
  split
  · exact .result h none
  · exact (tracks_expression hl).map some text c h

/-- A word introduces the same statement for both. -/
theorem tracksAt_keywordStatement (h : Stands depth text c) {w : String}
    (hw : kindAt (text.ahead c) = .word w) :
    Option.Rel (fun p q => TracksAt p q text c) (keywordStatement? l w)
      (Parser.keywordStatement? g w) := by
  have hbump {p : Stepper Stmt} {q : Parser Stmt} (hp : Tracks depth p q) :
      TracksAt (do bump; p) (do Parser.skip; q) text c :=
    (TracksAt.bump h hw nofun).andThen h fun _ => hp
  have hdeclaration (kind : DeclKind) : TracksAt (do
      let s ← declaration l kind
      endStatement
      pure s) (do
      let s ← Parser.declaration g kind
      Parser.endStatement
      pure s) text c :=
    (tracksAt_declaration hl kind h hw).andThen h fun s =>
      tracks_endStatement.bind fun _ => .result s
  unfold Parser.keywordStatement?
  split
  iterate 3
    exact .some (hdeclaration _)
  · exact .some (hbump (tracks_namedFunction hl))
  · exact .some (hbump ((tracks_returnValue hl).bind fun value =>
      tracks_endStatement.bind fun _ => .result _))
  · refine .some (hbump ((tracks_parenthesized hl).bind fun test =>
      hl.statement.bind fun consequent => (tracks_eatWord "else").bind fun more => ?_))
    split
    · exact (hl.statement.map some).bind fun alternative => .result _
    · exact (Tracks.result none).bind fun alternative => .result _
  · exact .some (hbump ((tracks_parenthesized hl).bind fun test =>
      hl.statement.bind fun body => .result _))
  · refine .some (hbump (hl.statement.bind fun body =>
      (tracks_eatWord "while").bind fun more => ?_))
    split
    · exact (tracks_parenthesized hl).bind fun test =>
        tracks_endStatement.bind fun _ => .result _
    · exact tracks_unexpected
  · exact .some (hbump (tracks_forStatement hl))
  · exact .some (hbump (tracks_endStatement.bind fun _ => .result _))
  · exact .some (hbump (tracks_endStatement.bind fun _ => .result _))
  · exact .some (hbump ((tracks_expression hl).bind fun value =>
      tracks_endStatement.bind fun _ => .result _))
  · exact .some (hbump (tracks_exportStatement hl))
  · -- no keyword, hence none of those before
    unfold keywordStatement?
    split <;> try contradiction
    exact .none

theorem tracks_statementBody : Tracks depth (statementBody l) (Parser.statementBody g) := by
  refine Tracks.look fun text c h => ?_
  cases hk : kindAt (text.ahead c) with
  | punctuator p =>
    cases p with
    | semicolon => exact (TracksAt.bump h hk nofun).andThen h fun _ => .result _
    | openBrace =>
      exact (tracks_block hl.statement hl.reads.statement).bind (fun body => .result _) text c h
    | _ => exact tracks_expressionStatement hl text c h
  | word w =>
    dsimp only
    have hkeyword := tracksAt_keywordStatement hl h hk
    generalize keywordStatement? l w = p at hkeyword ⊢
    generalize Parser.keywordStatement? g w = q at hkeyword ⊢
    cases hkeyword with
    | some hkeyword => exact hkeyword
    | none =>
      dsimp only
      split
      · rename_i hasync
        exact .bump_word h hk (Bool.and_eq_true_iff.mp hasync).2 (tracks_namedFunction hl text)
      · change TracksAt (if text.shorthand && _ then _ else _)
          (if text.shorthand && _ then _ else _) text c
        split
        · exact tracks_namedFunction hl text c h
        · exact tracks_expressionStatement hl text c h
  | _ => exact tracks_expressionStatement hl text c h

end Level

/-! ## Levels -/

theorem tracks_nested {p : Stepper α} {q : Parser α} (hp : Tracks (depth + 1) p q)
    (hdepth : depth < maxNesting) : Tracks depth (nested p) q := by
  intro text c h
  have hinner := hp text ⟨c.pos, c.depth + 1⟩ ⟨h.ends, h.lt, congrArg (· + 1) h.depth_eq⟩
  unfold TracksAt at hinner ⊢
  rw [run_nested p (h.depth_eq ▸ hdepth)]
  change Agrees text _ _ (q text.context (text.ahead c)) at hinner
  generalize p text ⟨c.pos, c.depth + 1⟩ = x at hinner ⊢
  generalize q text.context (text.ahead c) = y at hinner ⊢
  -- the depth behind the inner level is at least one, so that it can be closed
  cases hinner with
  | @done a c' le lt after =>
    obtain ⟨pos, after'⟩ := c'
    obtain rfl : after' = c.depth + 1 := after
    exact @Agrees.done α text c a ⟨pos, c.depth⟩ le lt rfl
  | @failed e c' lt after =>
    obtain ⟨pos, after'⟩ := c'
    rcases after with after | ⟨after, hdeep⟩ <;> obtain rfl := after
    · exact @Agrees.failed α text c e ⟨pos, c.depth⟩ lt (.inl rfl)
    · exact @Agrees.failed α text c e ⟨pos, c.depth + 1⟩ lt (.inr ⟨rfl, hdeep⟩)

/-- One level too many fails right away, and is not closed. -/
theorem tracks_tooDeep (p : Stepper α) (f : α → Stepper β) (hdepth : maxNesting ≤ depth) :
    Tracks depth (nested p >>= f) Parser.tooDeep := by
  intro text c h
  obtain ⟨o, hp, hq⟩ := run_offset (c := ⟨c.pos, c.depth + 1⟩)
    ⟨h.ends, h.lt, congrArg (· + 1) h.depth_eq⟩
  have henter : enter text c =
      some (.error (.syntaxAt "Expression nested too deeply" o), ⟨c.pos, c.depth + 1⟩) := by
    change (if maxNesting < c.depth + 1 then fail "Expression nested too deeply" else pure () :
      Stepper Unit) text ⟨c.pos, c.depth + 1⟩ = _
    rw [if_pos (Nat.lt_succ_of_le (h.depth_eq ▸ hdepth)), run_fail hp]
  have hparser : (Parser.tooDeep : Parser β) text.context (text.ahead c) =
      .error (.syntaxAt "Expression nested too deeply" o) :=
    Parser.run_bind_of_ok hq
  unfold TracksAt
  rw [run_bind, nested, run_bind, henter, hparser]
  exact .failed h.lt (.inr ⟨rfl, o, rfl⟩)

theorem tracks_binaryBody {l : Level} {g : Parser.Grammar} (hl : l.Tracks (depth + 1) g)
    (hdepth : depth < maxNesting) (min : Nat) :
    Tracks depth (binaryBody l min) (Parser.binaryBody g min) := by
  refine (tracks_nested (tracks_unaryBody hl) hdepth).bind fun left => tracks_budget fun n => ?_
  exact tracks_operators (fun power => tracks_nested (hl.binary power) hdepth) hl.reads.binary
    min n left

/-- **The steppers keep pace with the parsers of the grammar.** -/
theorem tracks_level (d : Nat) : ∀ n depth, maxNesting - depth = d → d < n →
    (level n).Tracks depth (Parser.grammar d) := by
  induction d with
  | zero =>
    intro n depth hd hn
    obtain ⟨n, rfl⟩ := Nat.exists_eq_add_one_of_ne_zero (Nat.ne_zero_of_lt hn)
    have hdepth : maxNesting ≤ depth := Nat.le_of_sub_eq_zero hd
    have hdeep {α : Type} (p : Stepper α) : Tracks depth (nested p) Parser.tooDeep := by
      have hpure := tracks_tooDeep p pure hdepth
      rwa [bind_pure] at hpure
    exact {
      reads := Parser.reads_grammar 0
      statement := hdeep _
      assignment := hdeep _
      unary := hdeep _
      binary := fun _ => tracks_tooDeep _ _ hdepth }
  | succ d ih =>
    intro n depth hd hn
    obtain ⟨n, rfl⟩ := Nat.exists_eq_add_one_of_ne_zero (Nat.ne_zero_of_lt hn)
    have hinner := ih n (depth + 1) (by omega) (by omega)
    have hdepth : depth < maxNesting := by omega
    exact {
      reads := Parser.reads_grammar (d + 1)
      statement := tracks_nested (tracks_statementBody hinner) hdepth
      assignment := tracks_nested (tracks_assignmentBody hinner) hdepth
      unary := tracks_nested (tracks_unaryBody hinner) hdepth
      binary := tracks_binaryBody hinner hdepth }

/-! ## Whole texts -/

theorem tracks_program {l : Level} (hl : l.Tracks depth (Parser.grammar maxNesting)) (n : Nat) :
    ∀ done, TracksWithin depth n (program l done n) (Parser.program done n) := by
  induction n with
  | zero => exact fun _ => .zero
  | succ n ih =>
    intro done
    refine TracksWithin.look fun ts => ?_
    split
    · exact (Tracks.result _).within
    · refine tracks_offset.within.bind fun start => ?_
      refine .turn hl.statement hl.reads.statement fun s => ?_
      exact tracks_offset.within.bind fun stop => ih _

theorem run_eq (hn : maxNesting < n) (shorthand : Bool) (source : String) :
    run (level n) shorthand source = some (Parser.run shorthand source) := by
  unfold run Parser.run
  cases htokens : tokenize source with
  | error e => rfl
  | ok tokens =>
    let text : Text := ⟨tokens, 0, shorthand⟩
    have hends : text.Ends := ends_of_tokenize htokens 0 shorthand
    have hl := tracks_level maxNesting n 0 rfl hn
    have h := tracks_program hl (tokens.length + 1) [] text ⟨0, 0⟩
      ⟨hends, hends.length_pos, rfl⟩ (Nat.le_succ _)
    unfold TracksAt at h
    change (program (level n) [] (tokens.length + 1) text ⟨0, 0⟩).map _ =
      some (Parser.program [] (tokens.length + 1) text.context (text.ahead ⟨0, 0⟩) >>= _)
    generalize program (level n) [] (tokens.length + 1) text ⟨0, 0⟩ = x at h ⊢
    generalize Parser.program [] _ text.context (text.ahead ⟨0, 0⟩) = y at h ⊢
    cases h <;> rfl

theorem statements_eq (hn : maxNesting < n) (source : String) :
    statements (level n) false source = some (parseProgram source) ∧
      statements (level n) true source = some (parseDeclarations source) := by
  unfold statements parseProgram parseDeclarations
  rw [run_eq hn, run_eq hn]
  constructor
  · cases Parser.run false source <;> rfl
  · cases Parser.run true source <;> rfl

/-- A call from the cursor on comes to an end.  If it succeeds, the cursor has moved on to a later
token, with as many levels open as before.  If it fails, the cursor is left on a token.  The parser
gives the same value and leaves the same tokens, or it fails with the same error. -/
def Progresses (text : Text) (c : Cursor) (p : Stepper α) (q : Parser α) : Prop :=
  (∃ a c', p text c = some (.ok a, c') ∧ c.pos < c'.pos ∧ c'.pos < text.tokens.length ∧
      c'.depth = c.depth ∧ q text.context (text.ahead c) = .ok (a, text.ahead c')) ∨
    ∃ e c', p text c = some (.error e, c') ∧ c'.pos < text.tokens.length ∧
      Abandons c.depth e c'.depth ∧ q text.context (text.ahead c) = .error e

/-- What reads a token makes progress. -/
theorem Tracks.progresses {p : Stepper α} {q : Parser α} (hp : Tracks depth p q) (hq : Reads 1 q)
    (h : Stands depth text c) : Progresses text c p q := by
  have hagrees := hp text c h
  unfold TracksAt at hagrees
  unfold Progresses
  generalize p text c = x at hagrees
  generalize hy : q text.context (text.ahead c) = y at hagrees
  cases hagrees with
  | @done a c' le lt hdepth =>
    have hless := (hq _ _).length_add_le hy
    simp only [Text.ahead, List.length_drop] at hless
    exact .inl ⟨a, c', rfl, by omega, lt, hdepth, rfl⟩
  | @failed e c' lt hdepth => exact .inr ⟨e, c', rfl, lt, hdepth, rfl⟩

/-- A token that does not fit is given back, and the cursor is where it was. -/
theorem run_taking_refused {fitting? : TokenKind → Option α} (f : α → Stepper β)
    (h : Stands depth text c) (hrefused : fitting? (kindAt (text.ahead c)) = none) :
    ∃ e, (taking fitting? >>= f) text c = some (.error e, c) := by
  obtain ⟨o, ho, -⟩ := run_offset h
  have hunexpected : (unexpected : Stepper α) text c =
      some (.error (.syntaxAt (Parser.describe (kindAt (text.ahead c))) o), c) :=
    run_fail ho _
  refine ⟨.syntaxAt (Parser.describe (kindAt (text.ahead c))) o, ?_⟩
  rw [run_taking_bind fitting? f h.lt, hrefused]
  dsimp only
  rw [run_bind, hunexpected]

/-- **The parser makes progress.**  Take any tokens that end in `eof`, a cursor on one of them and
any number of open levels.  Each of these calls comes to an end there without a crash, so that the
cursor has never been moved behind the last token or in front of the first one.  If the call
succeeds, the cursor has moved on and the depth is what it was.  A name or a key that is refused
leaves the cursor where it was.

No loop of the tokenizer or of the parser is ever out of turns, nor are the levels exhausted: whole
sources are parsed without a crash, and the outcome is that of the parser. -/
theorem parser_progress (hn : maxNesting < n) :
    (∀ (text : Text) (c : Cursor), text.Ends → c.pos < text.tokens.length →
      let l := level n
      let g := Parser.grammar (maxNesting - c.depth)
      Progresses text c l.statement g.statement ∧
      Progresses text c (expression l.assignment) (Parser.expression g.assignment) ∧
      Progresses text c l.assignment g.assignment ∧
      (∀ min, Progresses text c (l.binary min) (g.binary min)) ∧
      Progresses text c l.unary g.unary ∧
      Progresses text c (callMember l) (Parser.callMember g) ∧
      Progresses text c (primary l) (Parser.primary g) ∧
      (name? (kindAt (text.ahead c)) = none → ∃ e, propertyName text c = some (.error e, c)) ∧
      (key? (kindAt (text.ahead c)) = none → ∃ e, objectEntry l text c = some (.error e, c))) ∧
    ∀ source : String,
      (∀ turns, source.toList.length < turns →
        Scan.tokens [] turns ⟨source.toList, 0⟩ = tokenize source) ∧
      statements (level n) false source = some (parseProgram source) ∧
      statements (level n) true source = some (parseDeclarations source) := by
  refine ⟨fun text c hends hpos => ?_, fun source => ⟨fun turns hturns => ?_, ?_⟩⟩
  · have h : Stands c.depth text c := ⟨hends, hpos, rfl⟩
    have hl := tracks_level (maxNesting - c.depth) n c.depth rfl (by omega)
    refine ⟨hl.statement.progresses hl.reads.statement h,
      (tracks_expression hl).progresses (Parser.reads_expression hl.reads) h,
      hl.assignment.progresses hl.reads.assignment h,
      fun min => (hl.binary min).progresses (hl.reads.binary min) h,
      hl.unary.progresses hl.reads.unary h,
      (tracks_callMember hl).progresses (Parser.reads_callMember hl.reads) h,
      (tracks_primary hl).progresses (Parser.reads_primary hl.reads) h, fun hname => ?_,
      run_taking_refused _ h⟩
    obtain ⟨e, he⟩ := run_taking_refused pure h hname
    rw [bind_pure] at he
    exact ⟨e, he⟩
  · exact Scan.tokens_congr_fuel hturns (Nat.lt_succ_self _)
  · exact statements_eq hn source

/-- A parenthesis in the place of a key is refused and stays the next token, and the call before it
ends as the parser does; a source that breaks off is parsed to its end as well. -/
theorem parser_progress_refusedKey :
    let text : Text :=
      ⟨[⟨.punctuator .openBrace, 0⟩, ⟨.punctuator .closeParen, 1⟩, ⟨.eof, 2⟩], 0, false⟩
    maxNesting < 129 ∧ text.Ends ∧ 1 < text.tokens.length ∧
      key? (kindAt (text.ahead ⟨1, 3⟩)) = none ∧
      (∃ e, objectEntry (level 129) text ⟨1, 3⟩ = some (.error e, ⟨1, 3⟩)) ∧
      Progresses text ⟨0, 3⟩ (primary (level 129)) (Parser.primary (Parser.grammar 125)) ∧
      statements (level 129) false "let x = (" = some (parseProgram "let x = (") := by
  intro text
  have hn : maxNesting < 129 := by decide
  have hends : text.Ends :=
    ⟨[⟨.punctuator .openBrace, 0⟩, ⟨.punctuator .closeParen, 1⟩], ⟨.eof, 2⟩, rfl, rfl⟩
  obtain ⟨hcalls, hsources⟩ := parser_progress hn
  obtain ⟨-, -, -, -, -, -, hprimary, -, -⟩ := hcalls text ⟨0, 3⟩ hends (by decide)
  obtain ⟨-, -, -, -, -, -, -, -, hkey⟩ := hcalls text ⟨1, 3⟩ hends (by decide)
  exact ⟨hn, hends, by decide, rfl, hkey rfl, hprimary, (hsources "let x = (").2.1⟩

/-- The cursor is left in front of the parenthesis, and the three levels that were open still are. -/
example : primary (level 129)
    ⟨[⟨.punctuator .openBrace, 0⟩, ⟨.punctuator .closeParen, 1⟩, ⟨.eof, 2⟩], 0, false⟩ ⟨0, 3⟩ =
      some (.error (.syntaxAt "Unexpected token ')'" 1), ⟨1, 3⟩) :=
  rfl

end Stencil.Script.Stepper
