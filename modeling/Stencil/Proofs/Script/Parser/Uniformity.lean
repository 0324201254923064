import Stencil.Proofs.Script.Parser.Holes
import Stencil.Proofs.Script.Token.Offsets

/-! # All fillings of a hole are parsed alike

Every parser of a level runs alike with all texts in a hole and with the whole text at every offset
(`Situation.Level`), if the parsers of the level below do so and parse every interpolation alike
wherever it stands (`Settled`).  The hole itself comes up in one place only, where an operand is a
template literal: there the chunks in front of the hole, the text in it and those behind it are
parsed one after the other (`uniform_hole`).

A text without a hole is a filling too, all of whose tokens are behind the hole.  So interpolations
at one level are settled because its parsers run alike (`settled_grammar`), and **the parsers of all
levels run alike** by induction on the level (`level_grammar`), and with them those of whole programs
(`uniform_program`).
-/
namespace Stencil.Script.Parser
variable {α β : Type}

/-! ## Template literals -/

/-- Where the text of an interpolation stands only moves what is wrong with it. -/
def Settled (g : Grammar) : Prop :=
  ∀ text, (∃ message i, ∀ base, interpolation g base text = .error (.syntaxAt message (base + i))) ∨
    ∀ base, ∃ e, interpolation g base text = .ok e

theorem Settled.ok_of_ok {g : Grammar} (hg : Settled g) {text : String} {e : Expr}
    (he : interpolation g 0 text = .ok e) (base : Nat) :
    ∃ e, interpolation g base text = .ok e := by
  rcases hg text with ⟨message, i, hfault⟩ | hok
  · rw [hfault] at he
    cases he
  · exact hok base

theorem Settled.error_shift {g : Grammar} (hg : Settled g) {text : String} {e : ScriptError}
    (he : interpolation g 0 text = .error e) (base : Nat) :
    interpolation g base text = .error (e.shift base) := by
  rcases hg text with ⟨message, i, hfault⟩ | hok
  · rw [hfault] at he ⊢
    cases he
    change _ = Except.error (ScriptError.syntaxAt message (base + (0 + i)))
    rw [Nat.zero_add]
  · obtain ⟨e', he'⟩ := hok 0
    rw [he] at he'
    cases he'

theorem templateParts_append (g : Grammar) (start : Nat) (xs ys : List Chunk) :
    templateParts g start (xs ++ ys) = (do
      let front ← templateParts g start xs
      let back ← templateParts g start ys
      pure (front ++ back)) := by
  induction xs with
  | nil => simp [templateParts]
  | cons x xs ih =>
    cases x with
    | text s => simp [templateParts, ih]
    | source s o => simp [templateParts, ih]

/-- The text in a hole is parsed behind the chunks in front of it. -/
theorem templateParts_chunks (g : Grammar) (base : Nat) (h : Hole) (text : String) :
    templateParts g (base + h.start) (h.chunks text) = (do
      let front ← templateParts g (base + h.start) h.front
      let e ← interpolation g (base + h.position) text
      let back ← templateParts g (base + h.start) h.back
      pure (front ++ .interpolation e :: back)) := by
  rw [Hole.chunks, templateParts_append, templateParts, Nat.add_assoc]
  simp only [bind_assoc, pure_bind]
  rfl

/-- What is read where a template literal comes first. -/
def templateLiteral (g : Grammar) (chunks : List Chunk) : Parser Expr := do
  let start ← offset
  skip
  pure (.template (← templateParts g start chunks))

theorem run_templateLiteral (g : Grammar) (ctx : ParseContext) (t : Token) (ts : List Token)
    (chunks : List Chunk) : templateLiteral g chunks ctx (t :: ts) =
      (templateParts g (ctx.base + t.offset) chunks).map fun parts => (.template parts, ts) := by
  change (liftM (templateParts g (ctx.base + t.offset) chunks) >>=
    fun parts => pure (.template parts) : Parser Expr) ctx ts = _
  rw [run_bind, run_lift]
  cases templateParts g (ctx.base + t.offset) chunks <;> rfl

/-- The text of an interpolation is one expression. -/
def wholeExpression (assignment : Parser Expr) : Parser Expr := do
  let e ← expression assignment
  if atEnd (← ahead) then pure e else unexpected

theorem interpolation_eq (g : Grammar) (base : Nat) (text : String) :
    interpolation g base text = match tokenize text with
      | .error e => .error (e.shift base)
      | .ok ts => (wholeExpression g.assignment ⟨base, false, ts.length⟩ ts).map (·.1) :=
  rfl

namespace Situation
variable {k : Situation} {T : Stream}

/-- The parsers of a level run alike with all fillings. -/
structure Level (k : Situation) (g : Grammar) : Prop where
  statement : k.Uniform fun _ => g.statement
  assignment : k.Uniform fun _ => g.assignment
  unary : k.Uniform fun _ => g.unary
  binary : ∀ min, k.Uniform fun _ => g.binary min

/-- The level is one of those at which interpolations are parsed. -/
structure InnerLevel (k : Situation) (g : Grammar) : Prop extends k.Level g where
  lower : ∃ d < k.depth, g = grammar d
  settled : Settled g

section Lists
variable [Visible α] [Visible β]

theorem uniform_commaItems {close : Punctuator} {item : Parser α}
    (h : k.Uniform fun _ => item) (fuel : Nat) :
    ∀ done : Filling → List α, k.Uniform fun w => commaItems close item (done w) fuel := by
  induction fuel with
  | zero => exact fun _ _ => .result fun _ _ => rfl
  | succ fuel ih =>
    intro done T
    refine .ahead (.ifTest (blind_beginsWith close) (fun _ => .result fun _ _ => rfl) ?_)
    exact .bind (h T) fun x _ T => .eat (fun _ => ih _ _) (.result fun _ _ => rfl)

theorem uniform_bracketed {opening closing : Punctuator} {item : Parser α}
    (h : k.Uniform fun _ => item) : k.Uniform fun _ => bracketed opening closing item :=
  fun _ => .expect (.budget (.bind (uniform_commaItems h _ _ _) fun _ _ _ =>
    .expect (.result fun _ _ => rfl)))

theorem uniform_params : k.Uniform fun _ => params :=
  uniform_bracketed fun _ => .of_bind_pure (.ident fun _ _ => .result fun _ _ => rfl)

theorem uniform_statementsToBrace {statement : Parser Stmt} (h : k.Uniform fun _ => statement)
    (fuel : Nat) : ∀ done : Filling → List Stmt,
      k.Uniform fun w => statementsToBrace statement (done w) fuel := by
  induction fuel with
  | zero => exact fun _ _ => .unexpected
  | succ fuel ih =>
    intro done T
    refine .eat (fun _ => .result fun _ _ => rfl) (.ahead ?_)
    exact .ifTest blind_atEnd (fun _ => .unexpected) (.bind (h T) fun s _ => ih _)

theorem uniform_block {statement : Parser Stmt} (h : k.Uniform fun _ => statement) :
    k.Uniform fun _ => block statement :=
  fun _ => .expect (.budget (uniform_statementsToBrace h _ _ _))

/-- The words `async` and `function` are both taken, or none of them. -/
theorem uniform_async {w : String} (hw : T.front = some (.word w)) {P Q : Filling → Parser α}
    (hP : k.Uniform P) (hQ : k.UniformAt T Q) : k.UniformAt T fun u =>
      if w = "async" && beginsWithWord ["function"] ((T.tokens k.hole u.text).drop 1) then do
        skip
        skip
        P u
      else Q u := by
  refine .ifTest (.map₂ and (.const _) ((blind_beginsWithWord _).drop 1)) (fun hasync => ?_) hQ
  have hfunction := (Bool.and_eq_true_iff.mp (hasync "")).2
  rw [Stream.drop_tokens hw] at hfunction
  obtain ⟨_, -, hk⟩ := Stream.front_of_beginsWithWord hfunction
  exact .skip hw (.skip hk (hP _))

end Lists

section Sequences
variable {assignment : Parser Expr} (h : k.Uniform fun _ => assignment)
include h

theorem uniform_moreItems (fuel : Nat) : ∀ done : Filling → List Expr,
    k.Uniform fun w => moreItems assignment (done w) fuel := by
  induction fuel with
  | zero => exact fun _ _ => .result fun _ _ => rfl
  | succ fuel ih =>
    intro done T
    exact .eat (fun _ => .bind (h _) fun _ _ => ih _) (.result fun _ _ => rfl)

theorem uniform_expression : k.Uniform fun _ => expression assignment := by
  refine fun T => .bind (h T) fun first hfirst T => .ahead ?_
  refine .ifTest (blind_beginsWith _) (fun _ => .budget ?_) (.result hfirst)
  exact .bind (uniform_moreItems h _ _ _) fun _ _ _ => .result fun _ _ => rfl

theorem uniform_wholeExpression : k.Uniform fun _ => wholeExpression assignment :=
  fun T => .bind (uniform_expression h T) fun _ he _ =>
    .ahead (.ifTest blind_atEnd (fun _ => .result he) .unexpected)

end Sequences

section Level
variable {g : Grammar} (hg : k.InnerLevel g)
include hg

theorem uniform_operators (min : Nat) (fuel : Nat) : ∀ left : Filling → Expr, Steady left →
    k.Uniform fun w => operators g.binary min (left w) fuel := by
  induction fuel with
  | zero => exact fun _ h _ => .result h
  | succ fuel ih =>
    intro left hleft T
    refine .ahead ?_
    obtain rfl | ⟨kind, hk, hkind⟩ := T.front_cases
    · exact .result hleft
    · simp only [hkind]
      cases operator? kind with
      | none => exact .result hleft
      | some op =>
        obtain ⟨power, joint⟩ := op
        dsimp only
        split
        · exact .result hleft
        · refine .skip hk (.bind (hg.binary _ _) fun r _ => ih _ fun _ _ => ?_)
          cases joint <;> rfl

theorem uniform_args : k.Uniform fun _ => args g :=
  uniform_bracketed hg.assignment

theorem uniform_functionRest (name : Option String) : k.Uniform fun _ => functionRest g name :=
  fun T => .bind (uniform_params T) fun _ _ T => .bind (uniform_block hg.statement T) fun _ _ _ =>
    .result fun _ _ => rfl

theorem uniform_objectEntry : k.Uniform fun _ => objectEntry g := by
  intro T
  refine .ahead ?_
  have hrest {kind : TokenKind} (hk : T.front = some kind) (key : String) :
      k.UniformAt T fun _ => (do
        skip
        if ← eat .colon then pure (key, ← g.assignment)
        else if beginsWith .openParen (← ahead) then
          pure (key, .function (← functionRest g (some key)))
        else pure (key, .name key) : Parser (String × Expr)) := by
    refine .skip hk (.eat (fun _ => ?_) (.ahead ?_))
    · exact .bind (hg.assignment _) fun _ _ _ => .result fun _ _ => rfl
    · refine .ifTest (blind_beginsWith _) (fun _ => ?_) (.result fun _ _ => rfl)
      exact .bind (uniform_functionRest hg _ _) fun _ _ _ => .result fun _ _ => rfl
  obtain rfl | ⟨kind, hk, hkind⟩ := T.front_cases
  · exact .unexpected_bind
  · simp only [hkind]
    cases kind with
    | word name => exact hrest hk name
    | string s => exact hrest hk s
    | number x => exact hrest hk (Number.text x)
    | _ => exact .unexpected_bind

theorem uniform_functionExpr : k.Uniform fun _ => functionExpr g := by
  intro T
  refine .ahead ?_
  have hrest (name : Option String) : k.Uniform fun _ => (do
      pure (.function (← functionRest g name)) : Parser Expr) :=
    fun T => .bind (uniform_functionRest hg name T) fun _ _ _ => .result fun _ _ => rfl
  obtain rfl | ⟨kind, hk, hkind⟩ := T.front_cases
  · exact hrest none _
  · simp only [hkind]
    cases kind with
    | word name => exact .mapped (.ident fun _ _ => hrest _ _)
    | _ => exact hrest none _

theorem uniform_wordExpr {w : String} (hw : T.front = some (.word w)) :
    k.UniformAt T fun _ => wordExpr g w := by
  unfold wordExpr
  split
  iterate 4
    exact .skip hw (.result fun _ _ => rfl)
  · exact .skip hw (uniform_functionExpr hg _)
  · refine .ahead (uniform_async hw (uniform_functionExpr hg) ?_)
    split
    · exact .fail
    · exact .skip hw (.result fun _ _ => rfl)

/-- The interpolations of a literal without the hole. -/
theorem templateParts_cases {start : Nat} {chunks : List Chunk}
    (hchunks : ∀ text gap message i, .source text gap ∈ chunks →
      interpolation g 0 text = .error (.syntaxAt message i) → k.Allowed (start + gap + i)) :
    (∃ message i, k.Allowed i ∧
      ∀ base, templateParts g (base + start) chunks = .error (.syntaxAt message (base + i))) ∨
    ∀ base, ∃ parts, templateParts g (base + start) chunks = .ok parts := by
  induction chunks with
  | nil => exact .inr fun _ => ⟨[], rfl⟩
  | cons chunk chunks ih =>
    have ih := ih fun text gap message i hmem =>
      hchunks text gap message i (List.mem_cons_of_mem _ hmem)
    cases chunk with
    | text s =>
      rcases ih with ⟨message, i, hi, hrun⟩ | hrun
      · exact .inl ⟨message, i, hi, fun base => by rw [templateParts, hrun]; rfl⟩
      · refine .inr fun base => ?_
        obtain ⟨parts, hparts⟩ := hrun base
        exact ⟨.text s :: parts, by rw [templateParts, hparts]; rfl⟩
    | source s gap =>
      rcases hg.settled s with ⟨message, i, hfault⟩ | hok
      · have hi := hchunks s gap message i List.mem_cons_self (by rw [hfault, Nat.zero_add])
        refine .inl ⟨message, _, hi, fun base => ?_⟩
        rw [templateParts, hfault, Nat.add_assoc, Nat.add_assoc, Nat.add_assoc]
        rfl
      · rcases ih with ⟨message, i, hi, hrun⟩ | hrun
        · refine .inl ⟨message, i, hi, fun base => ?_⟩
          obtain ⟨e, he⟩ := hok (base + start + gap)
          rw [templateParts, he, hrun]
          rfl
        · refine .inr fun base => ?_
          obtain ⟨e, he⟩ := hok (base + start + gap)
          obtain ⟨parts, hparts⟩ := hrun base
          exact ⟨.interpolation e :: parts, by rw [templateParts, he, hparts]; rfl⟩

theorem Fits.chunks {t : Token} (ht : k.Fits t) {chunks : List Chunk}
    (hkind : t.kind = .template chunks) (text : String) (gap : Nat) (message : String) (i : Nat)
    (hmem : .source text gap ∈ chunks)
    (hfault : interpolation g 0 text = .error (.syntaxAt message i)) :
    k.Allowed (t.offset + gap + i) := by
  obtain ⟨d, hd, rfl⟩ := hg.lower
  exact ht.source hkind hmem hd hfault

omit hg in
/-- A template literal whose parts can be read is read. -/
theorem Outcome.ofParts {live : Filling → Prop} {U : Stream}
    {parts : Filling → Except ScriptError (List TemplatePart)}
    {X : Filling → Except ScriptError (Expr × List Token)} (side : U.isBefore = T.isBefore)
    (clear : k.Clear U) (hX : ∀ w, X w = (parts w).map fun parts =>
      (.template parts, U.tokens k.hole w.text))
    (hparts : ∀ w, live w → ∃ read, parts w = .ok read) : k.Outcome live T X := by
  refine .goesOn (fun w => .template ((parts w).toOption.getD [])) U (fun _ _ => rfl) side clear
    fun w hw => ?_
  obtain ⟨read, hread⟩ := hparts w hw
  rw [hX, hread]
  rfl

theorem uniform_template {chunks : List Chunk} (hk : T.front = some (.template chunks)) :
    k.UniformAt T fun _ => templateLiteral g chunks := by
  intro hT live
  obtain ⟨t, htail, ht⟩ : ∃ t, (∀ text, T.tokens k.hole text = t :: T.tail.tokens k.hole text) ∧
      t.kind = .template chunks := by
    rcases T with (_ | ⟨t, ts⟩) | (_ | ⟨t, ts⟩)
    · cases hk
    · exact ⟨t, fun _ => rfl, Option.some.inj hk⟩
    · cases hk
    · exact ⟨t, fun _ => rfl, Option.some.inj hk⟩
  have hrun (w : Filling) : k.run T (fun _ => templateLiteral g chunks) w =
      (templateParts g (w.base + t.offset) chunks).map
        fun parts => (.template parts, T.tail.tokens k.hole w.text) := by
    unfold run
    rw [htail]
    exact run_templateLiteral g (k.context w) t _ chunks
  have hfits : k.Fits t := hT "" t (by rw [htail]; exact List.mem_cons_self)
  rcases templateParts_cases hg (hfits.chunks hg ht) with ⟨message, i, hi, hparts⟩ | hparts
  · exact .fails message i hi fun w _ => by rw [hrun, hparts]; rfl
  · exact .ofParts T.isBefore_tail hT.tail hrun fun w _ => hparts w.base

/-- **At the hole, what is wrong with the text in it is found.** -/
theorem uniform_hole : k.UniformAt (.before []) fun w =>
    templateLiteral g (k.hole.chunks w.text) := by
  intro hT live
  have hrun (w : Filling) :
      k.run (.before []) (fun w => templateLiteral g (k.hole.chunks w.text)) w =
        (templateParts g (w.base + k.hole.start) (k.hole.chunks w.text)).map
          fun parts => (.template parts, k.hole.behind) :=
    run_templateLiteral g (k.context w) (k.hole.token w.text) _ _
  have hfits (text : String) (gap : Nat) (message : String) (i : Nat)
      (hmem : .source text gap ∈ k.hole.chunks "") :
      interpolation g 0 text = .error (.syntaxAt message i) → k.Allowed (k.hole.start + gap + i) :=
    (hT "" _ List.mem_cons_self).chunks hg rfl text gap message i hmem
  have hfront := templateParts_cases hg fun text gap message i hmem =>
    hfits text gap message i (List.mem_append_left _ hmem)
  have hback := templateParts_cases hg fun text gap message i hmem =>
    hfits text gap message i (List.mem_append_right _ (List.mem_cons_of_mem _ hmem))
  have hparts (w : Filling) := templateParts_chunks g w.base k.hole w.text
  obtain ⟨d, hd, rfl⟩ := hg.lower
  rcases hfront with ⟨message, i, hi, hfront⟩ | hfront
  · exact .fails message i hi fun w _ => by rw [hrun, hparts, hfront]; rfl
  · refine .asks d hd (fun w e _ he => ?_) ?_
    · obtain ⟨front, hfront⟩ := hfront w.base
      rw [hrun, hparts, hfront, hg.settled.error_shift he]
      rfl
    rcases hback with ⟨message, i, hi, hback⟩ | hback
    · refine .fails message i hi fun w ⟨_, e, he⟩ => ?_
      obtain ⟨front, hfront⟩ := hfront w.base
      obtain ⟨e, he⟩ := hg.settled.ok_of_ok he (w.base + k.hole.position)
      rw [hrun, hparts, hfront, he, hback]
      rfl
    · refine .ofParts (U := .behind k.hole.behind) rfl ?_ hrun fun w ⟨_, e, he⟩ => ?_
      · exact fun text t ht => hT text t (List.mem_cons_of_mem _ ht)
      · obtain ⟨front, hfront⟩ := hfront w.base
        obtain ⟨e, he⟩ := hg.settled.ok_of_ok he (w.base + k.hole.position)
        obtain ⟨back, hback⟩ := hback w.base
        exact ⟨front ++ .interpolation e :: back, by rw [hparts, hfront, he, hback]; rfl⟩

theorem uniform_primary : k.Uniform fun _ => primary g := by
  intro T
  refine .ahead ?_
  obtain rfl | ⟨kind, hk, hkind⟩ := T.front_cases
  · exact uniform_hole hg
  · simp only [hkind]
    cases kind with
    | number x => exact .skip hk (.result fun _ _ => rfl)
    | string s => exact .skip hk (.result fun _ _ => rfl)
    | template chunks => exact uniform_template hg hk
    | word w => exact uniform_wordExpr hg hk
    | eof => exact .unexpected
    | punctuator p =>
      cases p with
      | openParen =>
        exact .skip hk (.bind (uniform_expression hg.assignment _) fun _ he _ =>
          .expect (.result he))
      | openBracket =>
        exact .bind (uniform_bracketed hg.assignment _) fun _ _ _ => .result fun _ _ => rfl
      | openBrace =>
        exact .bind (uniform_bracketed (uniform_objectEntry hg) _) fun _ _ _ =>
          .result fun _ _ => rfl
      | _ => exact .unexpected

omit hg in
theorem uniform_plainMembers (fuel : Nat) : ∀ e : Filling → Expr, Steady e →
    k.Uniform fun w => plainMembers (e w) fuel := by
  induction fuel with
  | zero => exact fun _ he _ => .result he
  | succ fuel ih =>
    intro e he T
    exact .eat (fun _ => .propertyName fun _ => ih _ (fun _ _ => rfl) _) (.result he)

theorem uniform_indexedMember (e : Filling → Expr) (optional : Bool) :
    k.Uniform fun w => indexedMember g (e w) optional :=
  fun T => .bind (uniform_expression hg.assignment T) fun _ _ _ => .expect (.result fun _ _ => rfl)

theorem uniform_optionalLink (e : Filling → Expr) : k.Uniform fun w => optionalLink g (e w) := by
  refine fun T => .ahead (.ifTest (blind_beginsWith _) (fun _ => ?_) ?_)
  · exact .bind (uniform_args hg T) fun _ _ _ => .result fun _ _ => rfl
  · exact .eat (fun _ => uniform_indexedMember hg e true _)
      (.propertyName fun _ => .result fun _ _ => rfl)

/-- A token introduces a member or a call behind every expression or behind none. -/
theorem uniform_link (e : Filling → Expr) {kind : TokenKind} (hk : T.front = some kind) :
    (∀ w, link? g (e w) kind = none) ∨ ∃ P : Filling → Parser Expr,
      (∀ w, link? g (e w) kind = some (P w)) ∧ k.UniformAt T P := by
  cases kind with
  | template chunks => exact .inr ⟨_, fun _ => rfl, .unexpected⟩
  | punctuator p =>
    cases p with
    | dot => exact .inr ⟨_, fun _ => rfl, .skip hk (.propertyName fun _ => .result fun _ _ => rfl)⟩
    | optionalChain => exact .inr ⟨_, fun _ => rfl, .skip hk (uniform_optionalLink hg e _)⟩
    | openBracket => exact .inr ⟨_, fun _ => rfl, .skip hk (uniform_indexedMember hg e false _)⟩
    | openParen =>
      exact .inr ⟨_, fun _ => rfl, .bind (uniform_args hg T) fun _ _ _ => .result fun _ _ => rfl⟩
    | _ => exact .inl fun _ => rfl
  | _ => exact .inl fun _ => rfl

theorem uniform_chain (fuel : Nat) : ∀ e : Filling → Expr, Steady e →
    k.Uniform fun w => chain g (e w) fuel := by
  induction fuel with
  | zero => exact fun _ he _ => .result he
  | succ fuel ih =>
    intro e he T
    refine .ahead ?_
    obtain rfl | ⟨kind, hk, hkind⟩ := T.front_cases
    · exact .unexpected_bind
    · simp only [hkind]
      rcases uniform_link hg e hk with hnone | ⟨P, hsome, hP⟩
      · simp only [hnone]
        exact .result he
      · simp only [hsome]
        exact .bind hP ih

theorem uniform_newArgs : k.Uniform fun _ => newArgs g :=
  fun T => .ahead (.ifTest (blind_beginsWith _) (fun _ => uniform_args hg T)
    (.result fun _ _ => rfl))

theorem uniform_construction : k.Uniform fun _ => construction g := by
  refine fun T => .bind (uniform_primary hg T) fun e he T => .budget ?_
  exact .bind (uniform_plainMembers _ e he T) fun _ _ T => .bind (uniform_newArgs hg T) fun _ _ _ =>
    .result fun _ _ => rfl

theorem uniform_head : k.Uniform fun _ => head g :=
  fun _ => .eatWord (uniform_construction hg _) (uniform_primary hg _)

theorem uniform_callMember : k.Uniform fun _ => callMember g :=
  fun T => .bind (uniform_head hg T) fun e he _ => .budget (uniform_chain hg _ e he _)

theorem uniform_postfixed : k.Uniform fun _ => postfixed g := by
  refine fun T => .offset fun i hi => .bind (uniform_callMember hg T) fun e he T => .ahead ?_
  obtain rfl | ⟨kind, hk, hkind⟩ := T.front_cases
  · exact .result he
  · simp only [hkind]
    cases updateOp? kind with
    | none => exact .result he
    | some op => exact .ifSame he (.skip hk (.result fun _ _ => rfl)) (.throwAt hi)

theorem uniform_prefixed : k.Uniform fun _ => prefixed g := by
  refine fun T => .ahead ?_
  obtain rfl | ⟨kind, hk, hkind⟩ := T.front_cases
  · exact uniform_postfixed hg _
  · simp only [hkind]
    cases updateOp? kind with
    | none => exact uniform_postfixed hg _
    | some op =>
      refine .offset fun i hi => .skip hk (.bind (hg.unary _) fun target htarget T => ?_)
      exact .ifSame htarget (.result fun _ _ => rfl) (.throwAt hi)

theorem uniform_unaryBody : k.Uniform fun _ => unaryBody g := by
  refine fun T => .ahead ?_
  have hrest : k.Uniform fun _ => (do
      if ← eatWord "await" then pure (.await (← g.unary))
      else prefixed g : Parser Expr) :=
    fun T => .eatWord (.bind (hg.unary _) fun _ _ _ => .result fun _ _ => rfl)
      (uniform_prefixed hg T)
  obtain rfl | ⟨kind, hk, hkind⟩ := T.front_cases
  · exact hrest _
  · simp only [hkind]
    cases unaryOp? kind with
    | none => exact hrest _
    | some op => exact .skip hk (.bind (hg.unary _) fun _ _ _ => .result fun _ _ => rfl)

theorem uniform_binaryBody (min : Nat) : k.Uniform fun _ => binaryBody g min :=
  fun T => .bind (uniform_unaryBody hg T) fun left hleft _ =>
    .budget (uniform_operators hg min _ left hleft _)

theorem uniform_conditional : k.Uniform fun _ => conditional g := by
  refine fun T => .bind (hg.binary 0 T) fun test htest T => .eat (fun _ => ?_) (.result htest)
  exact .bind (hg.assignment _) fun _ _ _ => .expect (.bind (hg.assignment _) fun _ _ _ =>
    .result fun _ _ => rfl)

theorem uniform_arrowRest (ps : Filling → List String) : k.Uniform fun w => arrowRest g (ps w) := by
  refine fun T => .expect (.ahead (.ifTest (blind_beginsWith _) (fun _ => ?_) ?_))
  · exact .bind (uniform_block hg.statement _) fun _ _ _ => .result fun _ _ => rfl
  · exact .bind (hg.assignment _) fun _ _ _ => .result fun _ _ => rfl

omit hg in
theorem uniform_arrowParams : k.Uniform fun _ => arrowParams := by
  refine fun T => .ahead ?_
  obtain rfl | ⟨kind, hk, hkind⟩ := T.front_cases
  · exact uniform_params _
  · simp only [hkind]
    cases kind with
    | word name => exact .skip hk (.result fun _ _ => rfl)
    | _ => exact uniform_params _

theorem uniform_arrowFunction : k.Uniform fun _ => arrowFunction g :=
  fun T => .bind (uniform_arrowParams T) fun ps _ => uniform_arrowRest hg ps

theorem uniform_assigned : k.Uniform fun _ => assigned g := by
  refine fun T => .offset fun i hi => .bind (uniform_conditional hg T) fun target htarget T =>
    .ahead ?_
  obtain rfl | ⟨kind, hk, hkind⟩ := T.front_cases
  · exact .result htarget
  · simp only [hkind]
    cases assignOp? kind with
    | none => exact .result htarget
    | some op =>
      refine .ifSame htarget (.skip hk ?_) (.throwAt hi)
      exact .bind (hg.assignment _) fun _ _ _ => .result fun _ _ => rfl

theorem uniform_declarators (kind : DeclKind) (fuel : Nat) :
    ∀ done : Filling → List (String × Option Expr),
      k.Uniform fun w => declarators g kind (done w) fuel := by
  induction fuel with
  | zero => exact fun _ _ => .result fun _ _ => rfl
  | succ fuel ih =>
    intro done T
    have hmore (name : String) (init : Filling → Option Expr) (hinit : Steady init) :
        k.Uniform fun w => (do
          if kind = .constDecl && (init w).isNone then
            fail "Missing initializer in const declaration"
          else if ← eat .comma then declarators g kind ((name, init w) :: done w) fuel
          else pure ((name, init w) :: done w).reverse : Parser _) := by
      have hsame (w w' : Filling) : (init w).isNone = (init w').isNone := hinit w w'
      refine fun T => .ifSame (fun w w' => by rw [hsame w w']) .fail (.eat (fun _ => ih _ _) ?_)
      exact .result fun _ _ => rfl
    refine .ident fun name _ => .eat (fun _ => ?_) (hmore name (fun _ => none) (fun _ _ => rfl) _)
    exact .mapped (.bind (hg.assignment _) fun e _ =>
      hmore name (fun w => some (e w)) fun _ _ => rfl)

theorem uniform_declaration (kind : DeclKind) {w : String} (hw : T.front = some (.word w)) :
    k.UniformAt T fun _ => declaration g kind :=
  .skip hw (.budget (.bind (uniform_declarators hg kind _ _ _) fun _ _ _ => .result fun _ _ => rfl))

theorem uniform_namedFunction : k.Uniform fun _ => namedFunction g :=
  fun _ => .ident fun _ _ => .bind (uniform_functionRest hg _ _) fun _ _ _ => .result fun _ _ => rfl

theorem uniform_parenthesized : k.Uniform fun _ => parenthesized g :=
  fun _ => .expect (.bind (uniform_expression hg.assignment _) fun _ he _ => .expect (.result he))

theorem uniform_exprUnless (p : Punctuator) : k.Uniform fun _ => exprUnless g p :=
  fun T => .ahead (.ifTest (blind_beginsWith p) (fun _ => .result fun _ _ => rfl)
    (.map (uniform_expression hg.assignment T) _ fun _ _ _ _ => rfl))

/-- A loop over items or keys shows itself by words, none of which is the token with the hole. -/
theorem uniform_iteration
    (h : ∀ text, startsIteration (T.tokens k.hole text) = true) :
    k.UniformAt T fun _ => iteration g := by
  have h := h ""
  unfold startsIteration at h
  obtain ⟨h, hlink⟩ := Bool.and_eq_true_iff.mp h
  obtain ⟨hdecl, -⟩ := Bool.and_eq_true_iff.mp h
  obtain ⟨kind, hkind⟩ := Option.isSome_iff_exists.mp hdecl
  obtain ⟨w, hw⟩ := T.front_of_declAhead hkind
  refine .skip hw (.ident fun name hname => .ahead ?_)
  rw [← List.drop_drop (i := 1), Stream.drop_tokens hw, Stream.drop_tokens hname] at hlink
  obtain ⟨link, -, hlink⟩ := Stream.front_of_beginsWithWord hlink
  simp only [(blind_beginsWithWord _).eq T.tail.tail k.hole _ ""]
  refine .skip hlink (.bind (uniform_expression hg.assignment _) fun source _ _ => .expect ?_)
  refine .bind (hg.statement _) fun body _ _ => .result fun _ _ => ?_
  cases beginsWithWord ["of"] (T.tail.tail.tokens k.hole "") <;> rfl

theorem uniform_loopInit : k.Uniform fun _ => loopInit g := by
  refine fun T => .ahead (.ifTest (blind_beginsWith _) (fun _ => .result fun _ _ => rfl) ?_)
  simp only [blind_declAhead.eq T k.hole _ ""]
  cases hdecl : declAhead? (T.tokens k.hole "") with
  | none => exact .map (uniform_expression hg.assignment T) _ fun _ _ _ _ => rfl
  | some kind =>
    obtain ⟨w, hw⟩ := T.front_of_declAhead hdecl
    exact .map (uniform_declaration hg kind hw) _ fun _ _ _ _ => rfl

theorem uniform_countedLoop : k.Uniform fun _ => countedLoop g := by
  refine fun T => .bind (uniform_loopInit hg T) fun init _ T => .expect ?_
  refine .bind (uniform_exprUnless hg _ _) fun test _ T => .expect ?_
  refine .bind (uniform_exprUnless hg _ _) fun update _ T => .expect ?_
  exact .bind (hg.statement _) fun _ _ _ => .result fun _ _ => rfl

theorem uniform_forStatement : k.Uniform fun _ => forStatement g :=
  fun _ => .expect (.ahead (.ifTest blind_startsIteration (uniform_iteration hg)
    (uniform_countedLoop hg _)))

theorem uniform_exportStatement : k.Uniform fun _ => exportStatement g := by
  refine fun T => .eatWord ?_ (.bind (hg.statement T) fun inner hinner T => ?_)
  · exact .bind (hg.assignment _) fun _ _ _ => .endStatement fun _ => .result fun _ _ => rfl
  · have h : k.UniformAt T fun w =>
        (if declares (inner w) = true then pure (.export (inner w)) else fail "Unexpected export" :
          Parser Stmt) :=
      .ifSame hinner (.result fun _ _ => rfl) .fail
    convert h using 2 with w
    cases inner w <;> rfl

theorem uniform_expressionStatement : k.Uniform fun _ => expressionStatement g :=
  fun T => .bind (uniform_expression hg.assignment T) fun _ _ _ =>
    .endStatement fun _ => .result fun _ _ => rfl

theorem uniform_returnValue : k.Uniform fun _ => returnValue g := by
  have hends : Blind fun ts => beginsWith .semicolon ts || beginsWith .closeBrace ts || atEnd ts :=
    .map₂ or (.map₂ or (blind_beginsWith _) (blind_beginsWith _)) blind_atEnd
  exact fun T => .ahead (.ifTest hends (fun _ => .result fun _ _ => rfl)
    (.map (uniform_expression hg.assignment T) _ fun _ _ _ _ => rfl))

theorem uniform_keywordStatement {w : String} {p : Parser Stmt}
    (h : keywordStatement? g w = some p) (hw : T.front = some (.word w)) :
    k.UniformAt T fun _ => p := by
  have hstatement := hg.statement
  have htest := uniform_parenthesized hg
  unfold keywordStatement? at h
  split at h <;> cases h
  iterate 3
    exact .bind (uniform_declaration hg _ hw) fun _ hs _ => .endStatement fun _ => .result hs
  · exact .skip hw (uniform_namedFunction hg _)
  · exact .skip hw (.bind (uniform_returnValue hg _) fun _ _ _ =>
      .endStatement fun _ => .result fun _ _ => rfl)
  · refine .skip hw (.bind (htest _) fun _ _ _ => .bind (hstatement _) fun _ _ _ => ?_)
    refine .eatWord (.mapped (.bind (hstatement _) fun _ _ _ => .result fun _ _ => rfl)) ?_
    exact .result fun _ _ => rfl
  · exact .skip hw (.bind (htest _) fun _ _ _ => .bind (hstatement _) fun _ _ _ =>
      .result fun _ _ => rfl)
  · refine .skip hw (.bind (hstatement _) fun _ _ _ => .eatWord ?_ .unexpected)
    exact .bind (htest _) fun _ _ _ => .endStatement fun _ => .result fun _ _ => rfl
  · exact .skip hw (uniform_forStatement hg _)
  · exact .skip hw (.endStatement fun _ => .result fun _ _ => rfl)
  · exact .skip hw (.endStatement fun _ => .result fun _ _ => rfl)
  · exact .skip hw (.bind (uniform_expression hg.assignment _) fun _ _ _ =>
      .endStatement fun _ => .result fun _ _ => rfl)
  · exact .skip hw (uniform_exportStatement hg _)

theorem uniform_assignmentBody : k.Uniform fun _ => assignmentBody g := by
  refine fun T => .ahead ?_
  have harrow (T' : Stream) (hside : T'.isBefore = T.isBefore) (hclear : k.Clear T → k.Clear T') :
      k.UniformAt T fun w => (do
        if startsArrow (T'.tokens k.hole w.text) then
          set (T'.tokens k.hole w.text)
          arrowFunction g
        else assigned g : Parser Expr) := by
    simp only [blind_startsArrow.eq T' k.hole _ ""]
    split
    · exact .moveTo hside hclear (uniform_arrowFunction hg T')
    · exact uniform_assigned hg T
  simp only [Cut.withoutAsync_eq, blind_asyncAhead.eq T k.hole _ ""]
  by_cases hasync : Cut.asyncAhead (T.tokens k.hole "") = true
  · obtain ⟨_, -, hk⟩ := T.front_of_beginsWithWord (Bool.and_eq_true_iff.mp hasync).1
    simp only [if_pos hasync, Stream.drop_tokens hk]
    exact harrow T.tail T.isBefore_tail Clear.tail
  · simp only [if_neg hasync]
    exact harrow T rfl id

theorem uniform_statementBody : k.Uniform fun _ => statementBody g := by
  refine fun T => .ahead ?_
  obtain rfl | ⟨kind, hk, hkind⟩ := T.front_cases
  · exact uniform_expressionStatement hg _
  · simp only [hkind]
    cases kind with
    | punctuator p =>
      cases p with
      | semicolon => exact .skip hk (.result fun _ _ => rfl)
      | openBrace => exact .bind (uniform_block hg.statement _) fun _ _ _ => .result fun _ _ => rfl
      | _ => exact uniform_expressionStatement hg _
    | word w =>
      dsimp only
      cases hkeyword : keywordStatement? g w with
      | some p => exact uniform_keywordStatement hg hkeyword hk
      | none =>
        refine uniform_async hk (uniform_namedFunction hg) ?_
        exact .ifTest (.map₂ and (.const k.shorthand) blind_startsShorthand)
          (fun _ => uniform_namedFunction hg _) (uniform_expressionStatement hg _)
    | _ => exact uniform_expressionStatement hg _

end Level

/-- If the parsers of a level run alike, interpolations do wherever they stand. -/
theorem settled_grammar {d : Nat} (h : ∀ k : Situation, d ≤ k.depth → k.Level (grammar d)) :
    Settled (grammar d) := by
  intro text
  simp only [interpolation_eq]
  cases htokens : tokenize text with
  | error e =>
    obtain ⟨message, i, rfl, -⟩ := tokenize_error htokens
    exact .inl ⟨message, i, fun _ => rfl⟩
  | ok ts =>
    -- There is no hole in the text: all its tokens count as standing behind one.
    let k : Situation := ⟨default, d, false, ts.length, fun _ => True, trivial⟩
    have hclear : k.Clear (.behind ts) := fun _ t _ => ⟨trivial, fun _ _ _ _ => trivial⟩
    have hrun (base : Nat) : k.run (.behind ts) (fun _ => wholeExpression (grammar d).assignment)
        ⟨base, ""⟩ = wholeExpression (grammar d).assignment ⟨base, false, ts.length⟩ ts := rfl
    have hlevel := h k (Nat.le_refl d)
    cases uniform_wholeExpression hlevel.assignment _ hclear fun _ => True with
    | fails message i allowed ends =>
      refine .inl ⟨message, i, fun base => ?_⟩
      dsimp only
      rw [← hrun, ends _ trivial]
      rfl
    | goesOn A T steady side clear ends =>
      refine .inr fun base => ⟨A ⟨base, ""⟩, ?_⟩
      dsimp only
      rw [← hrun, ends _ trivial]
      rfl

/-- **The parsers of all levels run alike with all fillings.** -/
theorem level_grammar (d : Nat) : ∀ k : Situation, d ≤ k.depth → k.Level (grammar d) := by
  induction d with
  | zero => exact fun k _ => ⟨fun _ => .fail, fun _ => .fail, fun _ => .fail, fun _ _ => .fail⟩
  | succ d ih =>
    intro k hd
    have hg : k.InnerLevel (grammar d) :=
      ⟨ih k (Nat.le_of_succ_le hd), ⟨d, hd, rfl⟩, settled_grammar ih⟩
    exact ⟨uniform_statementBody hg, uniform_assignmentBody hg, uniform_unaryBody hg,
      uniform_binaryBody hg⟩

theorem uniform_program (hdepth : maxNesting ≤ k.depth) (fuel : Nat) :
    ∀ done : Filling → List (Stmt × Nat × Nat), k.Uniform fun w => program (done w) fuel := by
  have hstatement := (level_grammar maxNesting k hdepth).statement
  induction fuel with
  | zero => exact fun _ _ => .result fun _ _ => rfl
  | succ fuel ih =>
    refine fun done T => .ahead (.ifTest blind_atEnd (fun _ => .result fun _ _ => rfl) ?_)
    exact .offset fun _ _ => .bind (hstatement _) fun _ _ _ => .offset fun _ _ => ih _ _

end Situation
end Stencil.Script.Parser
