import Stencil.Proofs.Script.Parser.Locality

/-! # The parsers of a grammar do not look behind what they read

If the parsers of the inner level follow across every cut (`Grammar.Follows`), so does each parser
of the level that is built from them.  By induction on the level, **the parsers of a grammar follow
across every cut** (`follows_grammar`).

Three places look further ahead than one token.  Before a function with an arrow, before a loop over
items and before a function without the word `function`, the test of the tokens ahead finds nothing
in the part that is not in the text, and what is read when the test has come out true holds all that
it has looked at.
-/
namespace Stencil.Script.Parser

/-- The parsers of a level read what is not empty and follow across every cut. -/
structure Grammar.Follows (g : Grammar) : Prop where
  reads : g.Reads
  statement : ∀ c : Cut, c.Follows 0 g.statement g.statement
  assignment : ∀ c : Cut, c.Follows 0 g.assignment g.assignment
  unary : ∀ c : Cut, c.Follows 0 g.unary g.unary
  binary : ∀ (c : Cut) (min : Nat), c.Follows 0 (g.binary min) (g.binary min)

namespace Cut
variable {c : Cut} {b n m : Nat} {ts ts' r r' : List Token}

section Level
variable {g : Grammar} (hg : g.Follows)
include hg

theorem follows_moreItems (done : List Expr) :
    c.FollowsLoop 0 (moreItems g.assignment done) (moreItems g.assignment done) := by
  have hloop (n : Nat) (done : List Expr) : Shrinks (moreItems g.assignment done n) :=
    (reads_moreItems hg.reads n done).shrinks
  refine FollowsLoop.of_turn (fun done n => hloop n done) ?_ done
  intro n n' ih done ts ts' hnear hn hn'
  refine sim_more _ ?_ ?_ hnear hn hn'
  · exact hg.reads.assignment.shrinks.bind fun e => hloop n _
  · intro r r' hnear hn hn'
    refine Sim.bind ((hg.assignment c).sim r r' hnear) (fun e => hloop n _) fun e s s' hs hnear' => ?_
    have hle := hg.reads.assignment.shrinks _ _ _ _ hs
    have hle' := hnear.length_le_of hnear' hle
    exact ih _ s s' hnear' (by omega) (by omega)

theorem follows_expression :
    c.Follows 0 (expression g.assignment) (expression g.assignment) := by
  refine (hg.assignment c).bind fun first => ?_
  refine .ifFront (front_beginsWith .comma) ?_ (.result first) (.inl fun ctx ts hcomma => ?_)
  · exact ((follows_moreItems hg [first]).bind fun items => .result (Expr.sequence items)).budget
  · have hrest : Shrinks (do
        let e ← g.assignment
        moreItems g.assignment [e, first] ctx.size) :=
      hg.reads.assignment.shrinks.bind fun e => (reads_moreItems hg.reads _ _).shrinks
    have hmore : Advances (moreItems g.assignment [first] (ctx.size + 1)) ctx ts := by
      intro items r hr
      rw [moreItems, run_eat_bind, if_pos hcomma] at hr
      exact ((advances_skip ((front_beginsWith _).ne_nil hcomma)).bind fun _ => hrest) items r hr
    exact hmore.bind fun items => shrinks_result _

theorem follows_operators (min : Nat) (left : Expr) :
    c.FollowsLoop 0 (operators g.binary min left) (operators g.binary min left) := by
  have hloop (n : Nat) (left : Expr) : Shrinks (operators g.binary min left n) :=
    (reads_operators hg.reads min n left).shrinks
  refine FollowsLoop.of_turn (fun left n => hloop n left) ?_ left
  intro n n' ih left ts ts' hnear hn hn'
  have hrest (n power : Nat) (joint : Joint) : Reads 1 (do
      let r ← g.binary (rightPower power joint)
      operators g.binary min (joint.join left r) n) :=
    (hg.reads.binary _).bind fun r => reads_operators hg.reads min n _
  unfold operators
  simp only [run_ahead]
  cases hnear with
  | cut =>
    have hend : operator? (kindAt c.ending) = none := by
      rw [c.kindAt_ending]
      rfl
    rcases operator? (kindAt c.behind) with _ | ⟨power, joint⟩
    · rw [hend]
      exact (Follows.result left).sim _ _ .cut
    · rw [hend]
      dsimp only
      split
      · exact (Follows.result left).sim _ _ .cut
      · exact sim_cut ((advances_skip c.behind_ne).bind fun _ => (hrest n power joint).shrinks)
  | @cons t t' ts ts' kind last whole part rest =>
    have hnear := Near.cons kind last whole part rest
    simp only [kindAt_cons, kind]
    rcases operator? t.kind with _ | ⟨power, joint⟩
    · exact (Follows.result left).sim _ _ hnear
    · dsimp only
      split
      · exact (Follows.result left).sim _ _ hnear
      · refine Sim.bind (Follows.skip.sim _ _ hnear) (fun _ => (hrest n power joint).shrinks) ?_
        intro _ s s' hs hnear'
        cases hs
        refine Sim.bind ((hg.binary c _).sim _ _ hnear') (fun r => hloop n _) fun r u u' hu hnear'' => ?_
        have hlt := (hg.reads.binary _ _ _).length_add_le hu
        have hlt' := hnear'.length_lt hnear'' hlt
        have hle := hnear.length_le_of hnear' (List.length_drop ▸ Nat.sub_le _ _)
        simp only [List.drop_one, List.tail_cons, List.length_cons] at *
        exact ih _ u u' hnear'' (by omega) (by omega)

theorem follows_args : c.Follows b (args g) (args g) :=
  follows_bracketed hg.reads.assignment.zero ((hg.assignment c).mono (Nat.zero_le 1))

theorem follows_functionRest (name : Option String) :
    c.Follows 0 (functionRest g name) (functionRest g name) := by
  refine follows_params.bind fun ps => ?_
  exact (follows_block hg.reads.statement (hg.statement c)).bind fun body => .result _

theorem follows_objectEntry : c.Follows 0 (objectEntry g) (objectEntry g) := by
  have hrest (key : String) : c.Follows 0 (do
      if ← eat .colon then pure (key, ← g.assignment)
      else if beginsWith .openParen (← ahead) then
        pure (key, .function (← functionRest g (some key)))
      else pure (key, .name key) : Parser (String × Expr)) (do
      if ← eat .colon then pure (key, ← g.assignment)
      else if beginsWith .openParen (← ahead) then
        pure (key, .function (← functionRest g (some key)))
      else pure (key, .name key) : Parser (String × Expr)) := by
    refine (follows_eat .colon).bind fun colon => ?_
    split
    · exact (hg.assignment c).bind fun e => .result _
    · refine .ifFront (front_beginsWith .openParen) ?_ (.result _) (.inl fun ctx ts _ => ?_)
      · exact (follows_functionRest hg _).bind fun f => .result _
      · exact ((reads_functionRest hg.reads _ ctx ts).advances).bind fun f => shrinks_result _
  refine .of_front (reads_objectEntry hg.reads) fun t t' ts ts' hkind => ?_
  simp only [kindAt_cons, hkind]
  split
  iterate 3
    exact .bind (.result _) fun key => .bind .skip fun _ => hrest key
  exact .bind .unexpected fun key => .bind .skip fun _ => hrest key

theorem follows_functionExpr : c.Follows 0 (functionExpr g) (functionExpr g) := by
  refine .of_front (reads_functionExpr hg.reads) fun t t' ts ts' hkind => ?_
  simp only [kindAt_cons, hkind]
  split
  · exact (follows_ident.map some).bind fun name =>
      (follows_functionRest hg name).bind fun f => .result _
  · exact (Follows.result none).bind fun name =>
      (follows_functionRest hg name).bind fun f => .result _

theorem follows_wordExpr (w : String) : c.Follows 0 (wordExpr g w) (wordExpr g w) := by
  unfold wordExpr
  split
  iterate 4
    exact .bind .skip fun _ => .result _
  · exact .bind .skip fun _ => follows_functionExpr hg
  · refine .ifTest ?_ ?_ ?_ ?_
    · exact .bind .skip fun _ => .bind .skip fun _ => follows_functionExpr hg
    · split
      · exact .fail
      · exact .bind .skip fun _ => .result _
    · intro ts ts' hnear htest
      obtain ⟨hw, hfunction⟩ := Bool.and_eq_true_iff.mp htest
      rw [hw, hnear.of_front_drop (front_beginsWithWord _) hfunction]
      rfl
    · intro ts ts' a r r' hnear htest hr hb _
      obtain ⟨hw, hfunction⟩ := Bool.and_eq_true_iff.mp htest
      obtain ⟨_, s, hs, hr⟩ := run_bind_ok hr
      obtain ⟨_, s', hs', hr⟩ := run_bind_ok hr
      cases hs
      cases hs'
      have hle := (reads_functionExpr hg.reads _ _).length_add_le hr
      simp only [List.length_drop] at hle
      rw [hw, hnear.front_drop (front_beginsWithWord _) (i := 1) (by omega), hfunction]
      rfl

/-- An interpolation is the same wherever its text stands. -/
theorem interpolation_ok {source : String} {base base' : Nat} {e : Expr}
    (h : interpolation g base source = .ok e) : interpolation g base' source = .ok e := by
  unfold interpolation at h ⊢
  dsimp only at h ⊢
  rcases htokens : tokenize source with error | tokens
  · rw [htokens] at h
    cases h
  rw [htokens] at h
  dsimp only at h ⊢
  obtain ⟨q, -, hlexed⟩ := tokenize_eq_ok.mp htokens
  obtain ⟨init, o, rfl, hinit⟩ := hlexed.exists_init
  obtain ⟨⟨_, r⟩, hwhole, rfl⟩ := map_eq_ok.mp h
  obtain ⟨e, s, hs, hend⟩ := run_bind_ok hwhole
  rw [run_ahead] at hend
  split at hend
  · rename_i hs'
    obtain ⟨u, hu, -, hphrase⟩ := reads_expression hg.reads _ _ _ _ hs
    obtain ⟨rfl, rfl⟩ := eq_of_atEnd hinit hu hphrase.noEof hs'
    cases hend
    let c : Cut :=
      { whole := ⟨base, false, (u ++ [Token.mk .eof o]).length⟩
        part := ⟨base', false, (u ++ [Token.mk .eof o]).length⟩
        behind := [⟨.eof, o⟩]
        ending := [⟨.eof, o⟩]
        shorthand := rfl
        behind_ne := List.cons_ne_nil _ _
        ends := kindAt_drop_eof o
        whole_fits := List.length_append ▸ Nat.le_add_left _ _
        part_fits := List.length_append ▸ Nat.le_add_left _ _ }
    have hnear : c.Near (u ++ c.behind) (u ++ c.ending) :=
      near_append rfl hphrase.toPiece (Nat.le_refl (u ++ [_]).length) (Nat.le_refl (u ++ [_]).length)
    obtain ⟨r', hr', hnear'⟩ := (follows_expression hg).sim _ _ hnear _ _ hs (Nat.le_refl _)
    refine map_eq_ok.mpr ⟨(_, r'), (run_bind_of_ok hr').trans ?_, rfl⟩
    obtain rfl := hnear'.eq_ending rfl
    rfl
  · exact absurd hend unexpected_ne_ok

theorem templateParts_ok {chunks : List Chunk} {start start' : Nat} {parts : List TemplatePart}
    (h : templateParts g start chunks = .ok parts) : templateParts g start' chunks = .ok parts := by
  induction chunks generalizing parts with
  | nil => exact h
  | cons chunk chunks ih =>
    cases chunk with
    | text s =>
      obtain ⟨rest, hrest, hparts⟩ := bind_eq_ok.mp h
      exact bind_eq_ok.mpr ⟨rest, ih hrest, hparts⟩
    | source s o =>
      obtain ⟨e, he, h⟩ := bind_eq_ok.mp h
      obtain ⟨rest, hrest, hparts⟩ := bind_eq_ok.mp h
      exact bind_eq_ok.mpr ⟨e, interpolation_ok hg he, bind_eq_ok.mpr ⟨rest, ih hrest, hparts⟩⟩

theorem follows_primary : c.Follows 0 (primary g) (primary g) := by
  refine .of_front (reads_primary hg.reads) fun t t' ts ts' hkind => ?_
  simp only [kindAt_cons, hkind]
  split
  · exact .bind .skip fun _ => .result _
  · exact .bind .skip fun _ => .result _
  · refine .offset fun start start' => .bind .skip fun _ => .bind (.lift ?_) fun _ => .result _
    exact fun parts => templateParts_ok hg
  · exact follows_wordExpr hg _
  · refine .bind .skip fun _ => (follows_expression hg).bind fun e => ?_
    exact (follows_expect .closeParen).bind fun _ => .result e
  · refine (follows_bracketed hg.reads.assignment.zero ?_).bind fun items => .result _
    exact (hg.assignment c).mono (Nat.zero_le 1)
  · refine (follows_bracketed (reads_objectEntry hg.reads).zero ?_).bind fun items => .result _
    exact (follows_objectEntry hg).mono (Nat.zero_le 1)
  · exact .unexpected

theorem follows_indexedMember (e : Expr) (optional : Bool) :
    c.Follows 0 (indexedMember g e optional) (indexedMember g e optional) :=
  (follows_expression hg).bind fun _ => (follows_expect .closeBracket).bind fun _ => .result _

theorem follows_optionalLink (e : Expr) :
    c.Follows 0 (optionalLink g e) (optionalLink g e) := by
  refine .ifFront (front_beginsWith .openParen) ?_ ?_ (.inl fun ctx ts _ => ?_)
  · exact (follows_args hg).bind fun arguments => .result _
  · refine (follows_eat .openBracket).bind fun bracket => ?_
    split
    · exact follows_indexedMember hg e true
    · exact follows_propertyName.bind fun name => .result _
  · exact (reads_args hg.reads ctx ts).advances.bind fun arguments => shrinks_result _

theorem follows_link {e : Expr} {k : TokenKind} {p : Parser Expr} (h : link? g e k = some p) :
    c.Follows 0 p p := by
  unfold link? at h
  split at h <;> cases h
  · exact .bind .skip fun _ => follows_propertyName.bind fun name => .result _
  · exact .bind .skip fun _ => follows_optionalLink hg e
  · exact .bind .skip fun _ => follows_indexedMember hg e false
  · exact (follows_args hg).bind fun arguments => .result _
  · exact .unexpected

theorem follows_chain (e : Expr) : c.FollowsLoop 0 (chain g e) (chain g e) := by
  have hloop (n : Nat) (e : Expr) : Shrinks (chain g e n) := (reads_chain hg.reads n e).shrinks
  refine FollowsLoop.of_turn (fun e n => hloop n e) ?_ e
  intro n n' ih e ts ts' hnear hn hn'
  unfold chain
  simp only [run_ahead]
  cases hnear with
  | cut =>
    rw [c.kindAt_ending]
    rcases hlink : link? g e (kindAt c.behind) with _ | link
    · exact (Follows.result e).sim _ _ .cut
    · exact sim_cut ((reads_link hg.reads hlink).advances.bind (hloop n))
  | @cons t t' ts ts' kind last whole part rest =>
    have hnear := Near.cons kind last whole part rest
    simp only [kindAt_cons, kind]
    rcases hlink : link? g e t.kind with _ | link
    · exact (Follows.result e).sim _ _ hnear
    · refine Sim.bind ((follows_link hg hlink).sim _ _ hnear) (hloop n) fun e' s s' hs hnear' => ?_
      have hlink' : ReadsAt 1 link c.whole (t :: ts) := reads_link hg.reads hlink
      have hlt := hlink'.length_add_le hs
      have hlt' := hnear.length_lt hnear' hlt
      exact ih _ s s' hnear' (by omega) (by omega)

theorem follows_newArgs : c.Follows 0 (newArgs g) (newArgs g) :=
  .ifFront (front_beginsWith .openParen) (follows_args hg) (.result [])
    (.inl fun ctx ts _ => (reads_args hg.reads ctx ts).advances)

theorem follows_construction : c.Follows 0 (construction g) (construction g) := by
  refine (follows_primary hg).bind fun e => ?_
  refine ((follows_plainMembers e).bind fun callee => ?_).budget
  exact (follows_newArgs hg).bind fun arguments => .result _

theorem follows_head : c.Follows 0 (head g) (head g) := by
  refine (follows_eatWord "new").bind fun isNew => ?_
  split
  · exact follows_construction hg
  · exact follows_primary hg

theorem follows_callMember : c.Follows 0 (callMember g) (callMember g) :=
  (follows_head hg).bind fun first => (follows_chain hg first).budget

theorem follows_postfixed : c.Follows 0 (postfixed g) (postfixed g) := by
  refine .offset fun start start' => (follows_callMember hg).bind fun e => ?_
  refine .of_front_or (fun t t' ts ts' hkind => ?_) (shrinks_result e) ?_
  · simp only [kindAt_cons, hkind]
    split
    · exact .result e
    · split
      · exact .bind .skip fun _ => .result _
      · exact .of_ne_ok fun _ _ _ => nofun
  · rw [c.kindAt_ending]
    rcases updateOp? (kindAt c.behind) with _ | op
    · exact (Follows.result e).sim _ _ .cut
    · dsimp only
      split
      · exact sim_cut ((advances_skip c.behind_ne).bind fun _ => shrinks_result _)
      · exact Sim.of_ne_ok nofun

theorem follows_prefixed : c.Follows 0 (prefixed g) (prefixed g) := by
  refine .of_front (reads_prefixed hg.reads) fun t t' ts ts' hkind => ?_
  simp only [kindAt_cons, hkind]
  split
  · exact follows_postfixed hg
  · refine .offset fun start start' => .bind .skip fun _ => (hg.unary c).bind fun target => ?_
    split
    · exact .result _
    · exact .of_ne_ok fun _ _ _ => nofun

theorem follows_unaryBody : c.Follows 0 (unaryBody g) (unaryBody g) := by
  refine .of_front (reads_unaryBody hg.reads) fun t t' ts ts' hkind => ?_
  simp only [kindAt_cons, hkind]
  split
  · exact .bind .skip fun _ => (hg.unary c).bind fun e => .result _
  · refine (follows_eatWord "await").bind fun isAwait => ?_
    split
    · exact (hg.unary c).bind fun e => .result _
    · exact follows_prefixed hg

theorem follows_binaryBody (min : Nat) : c.Follows 0 (binaryBody g min) (binaryBody g min) :=
  (follows_unaryBody hg).bind fun left => (follows_operators hg min left).budget

theorem follows_conditional : c.Follows 0 (conditional g) (conditional g) := by
  refine (hg.binary c 0).bind fun test => (follows_eat .question).bind fun more => ?_
  split
  · refine (hg.assignment c).bind fun consequent => (follows_expect .colon).bind fun _ => ?_
    exact (hg.assignment c).bind fun alternative => .result _
  · exact .result test

theorem follows_arrowRest (ps : List String) : c.Follows 0 (arrowRest g ps) (arrowRest g ps) := by
  refine (follows_expect .arrow).bind fun _ => ?_
  refine .ifFront (front_beginsWith .openBrace) ?_ ?_ (.inl fun ctx ts _ => ?_)
  · exact (follows_block hg.reads.statement (hg.statement c)).bind fun body => .result _
  · exact (hg.assignment c).bind fun e => .result _
  · have hblock := reads_block hg.reads.statement.zero ctx ts
    exact hblock.advances.bind fun body => shrinks_result _

theorem follows_arrowFunction : c.Follows 0 (arrowFunction g) (arrowFunction g) :=
  follows_arrowParams.bind fun ps => follows_arrowRest hg ps

theorem follows_assigned : c.Follows 0 (assigned g) (assigned g) := by
  refine .offset fun start start' => (follows_conditional hg).bind fun target => ?_
  refine .of_front_or (fun t t' ts ts' hkind => ?_) (shrinks_result target) ?_
  · simp only [kindAt_cons, hkind]
    split
    · exact .result target
    · split
      · exact .bind .skip fun _ => (hg.assignment c).bind fun e => .result _
      · exact .of_ne_ok fun _ _ _ => nofun
  · rw [c.kindAt_ending]
    rcases assignOp? (kindAt c.behind) with _ | op
    · exact (Follows.result target).sim _ _ .cut
    · dsimp only
      split
      · refine sim_cut ((advances_skip c.behind_ne).bind fun _ => ?_)
        exact hg.reads.assignment.shrinks.bind fun e => shrinks_result _
      · exact Sim.of_ne_ok nofun

omit hg in
theorem run_arrowParams (ctx : ParseContext) (ts : List Token) :
    arrowParams ctx ts = match kindAt ts with
      | .word name => .ok ([name], ts.drop 1)
      | _ => params ctx ts := by
  unfold arrowParams
  rw [run_ahead]
  cases kindAt ts <;> rfl

omit hg in
/-- What has been read as a function with an arrow shows that it is one. -/
theorem startsArrow_of_ok {ctx : ParseContext} {e : Expr}
    (h : arrowFunction g ctx ts = .ok (e, r)) (hname : ∀ w, kindAt ts = .word w → isReserved w = false) :
    startsArrow ts = true := by
  obtain ⟨ps, s, hs, h⟩ := run_bind_ok h
  obtain ⟨_, _, harrow, -⟩ := run_bind_ok h
  have harrow := (run_expect_ok harrow).1
  unfold startsArrow
  rw [run_arrowParams] at hs
  split at hs
  · rename_i w hk
    cases hs
    rw [hk]
    exact Bool.and_eq_true_iff.mpr ⟨beginsWith_of_kindAt harrow, by rw [hname w hk]; rfl⟩
  · obtain ⟨hopen, hclose⟩ := afterClose_params hs
    rw [hopen]
    simp only [hclose]
    exact beginsWith_of_kindAt harrow

theorem follows_assignmentBody : c.Follows 0 (assignmentBody g) (assignmentBody g) := by
  refine ⟨(reads_assignmentBody hg.reads).shrinks, fun ts ts' hnear e r hr hb => ?_⟩
  have hrun (ctx : ParseContext) (ts : List Token) : assignmentBody g ctx ts =
      if startsArrow (withoutAsync ts) then arrowFunction g ctx (withoutAsync ts)
      else assigned g ctx ts := by
    unfold assignmentBody
    rw [run_ahead]
    split <;> rfl
  rw [hrun] at hr ⊢
  split at hr
  · rename_i hstarts
    have hlen := (reads_arrowFunction hg.reads _ _).length_add_le hr
    have hnear' : c.Near (withoutAsync ts) (withoutAsync ts') := by
      rw [withoutAsync_eq] at hlen ⊢
      rw [withoutAsync_eq]
      split at hlen
      · rename_i hasync
        rw [List.length_drop] at hlen
        have hasync' := (hnear.asyncAhead_eq (by omega)).trans hasync
        rw [if_pos hasync, if_pos hasync']
        exact hnear.drop_one (by rw [kindAt_of_asyncAhead hasync']; nofun)
      · rename_i hasync
        rw [if_neg hasync, if_neg fun h => hasync (hnear.of_asyncAhead h)]
        exact hnear
    obtain ⟨r', hr', hnear''⟩ := (follows_arrowFunction hg).sim _ _ hnear' e r hr hb
    refine ⟨r', ?_, hnear''⟩
    rw [if_pos (startsArrow_of_ok hr' fun w hk => ?_)]
    · exact hr'
    · have hk : kindAt (withoutAsync ts) = .word w := hnear'.kindAt_of (i := 0) nofun hk
      unfold startsArrow at hstarts
      rw [hk] at hstarts
      exact (Bool.not_eq_eq_eq_not).mp (Bool.and_eq_true_iff.mp hstarts).2
  · rename_i hstarts
    rw [if_neg fun h => hstarts (hnear.of_startsArrow_withoutAsync h)]
    exact (follows_assigned hg).sim ts ts' hnear e r hr hb

theorem follows_declarators (kind : DeclKind) (done : List (String × Option Expr)) :
    c.FollowsLoop 0 (declarators g kind done) (declarators g kind done) := by
  have hloop (n : Nat) (done : List (String × Option Expr)) : Shrinks (declarators g kind done n) :=
    (reads_declarators hg.reads kind n done).shrinks
  refine FollowsLoop.of_turn (fun done n => hloop n done) ?_ done
  intro n n' ih done ts ts' hnear hn hn'
  have hmore (n : Nat) (name : String) (init : Option Expr) : Shrinks (do
      if kind = .constDecl && init.isNone then fail "Missing initializer in const declaration"
      else if ← eat .comma then declarators g kind ((name, init) :: done) n
      else pure ((name, init) :: done).reverse : Parser _) := by
    split
    · exact (Reads.fail (n := 0)).shrinks
    · refine (reads_eat rfl).shrinks.bind fun more => ?_
      split
      · exact hloop n _
      · exact shrinks_result _
  have hturn (name : String) (init : Option Expr) {u u' : List Token} (hnear : c.Near u u')
      (hn : u.length ≤ n) (hn' : u'.length ≤ n') : c.Sim 0 ((do
      if kind = .constDecl && init.isNone then fail "Missing initializer in const declaration"
      else if ← eat .comma then declarators g kind ((name, init) :: done) n
      else pure ((name, init) :: done).reverse : Parser _) c.whole u) ((do
      if kind = .constDecl && init.isNone then fail "Missing initializer in const declaration"
      else if ← eat .comma then declarators g kind ((name, init) :: done) n'
      else pure ((name, init) :: done).reverse : Parser _) c.part u') := by
    split
    · exact Sim.of_ne_ok fun _ => fail_ne_ok
    · exact sim_more _ (hloop n _) (ih _) hnear hn hn'
  unfold declarators
  refine Sim.bind (follows_ident.sim ts ts' hnear) (fun name => ?_) fun name s s' hs hnear' => ?_
  · refine (reads_eat rfl).shrinks.bind fun assigned => ?_
    split
    · exact (hg.reads.assignment.map some).shrinks.bind fun init => hmore n name init
    · exact (shrinks_result none).bind fun init => hmore n name init
  have hle := reads_ident.shrinks _ _ _ _ hs
  have hle' := hnear.length_le_of hnear' hle
  refine Sim.bind ((follows_eat .assign).sim s s' hnear') (fun assigned => ?_) ?_
  · split
    · exact (hg.reads.assignment.map some).shrinks.bind fun init => hmore n name init
    · exact (shrinks_result none).bind fun init => hmore n name init
  intro assigned u u' hu hnear''
  have hle₂ : u.length ≤ s.length := (reads_eat rfl).shrinks _ _ _ _ hu
  have hle₂' := hnear'.length_le_of hnear'' hle₂
  split
  · refine Sim.bind (((hg.assignment c).map some).sim u u' hnear'') (hmore n name) ?_
    intro init v v' hv hnear₃
    have hle₃ := (hg.reads.assignment.map some).shrinks _ _ _ _ hv
    have hle₃' := hnear''.length_le_of hnear₃ hle₃
    exact hturn name init hnear₃ (by omega) (by omega)
  · exact hturn name none hnear'' (by omega) (by omega)

theorem follows_declaration (kind : DeclKind) :
    c.Follows 0 (declaration g kind) (declaration g kind) :=
  .bind .skip fun _ => ((follows_declarators hg kind []).bind fun _ => .result _).budget

theorem follows_namedFunction : c.Follows 0 (namedFunction g) (namedFunction g) :=
  follows_ident.bind fun name => (follows_functionRest hg name).bind fun _ => .result _

theorem follows_parenthesized : c.Follows 0 (parenthesized g) (parenthesized g) :=
  (follows_expect .openParen).bind fun _ => (follows_expression hg).bind fun e =>
    (follows_expect .closeParen).bind fun _ => .result e

theorem follows_exprUnless (p : Punctuator) : c.Follows 1 (exprUnless g p) (exprUnless g p) :=
  .ifFront (front_beginsWith p) (.result none)
    (((follows_expression hg).mono (Nat.zero_le 1)).map some) (.inr (Nat.le_refl 1))

theorem follows_iteration : c.Follows 0 (iteration g) (iteration g) := by
  refine .bind .skip fun _ => follows_ident.bind fun name => ?_
  have hrest (overItems : Bool) : c.Follows 0 (do
      let source ← expression g.assignment
      expect .closeParen
      let body ← g.statement
      pure (if overItems then .forOf name source body else .forIn name source body) : Parser Stmt)
      (do
      let source ← expression g.assignment
      expect .closeParen
      let body ← g.statement
      pure (if overItems then .forOf name source body else .forIn name source body)) :=
    (follows_expression hg).bind fun _ => (follows_expect .closeParen).bind fun _ =>
      (hg.statement c).bind fun _ => .result _
  refine .of_front_or (fun t t' ts ts' hkind => ?_) ?_ (sim_cut ?_)
  · rw [(front_beginsWithWord ["of"]).cons hkind]
    exact .bind .skip fun _ => hrest _
  · exact shrinks_skip.bind fun _ => (hrest _).shrinks
  · exact (advances_skip c.behind_ne).bind fun _ => (hrest _).shrinks

theorem follows_loopInit : c.Follows 1 (loopInit g) (loopInit g) := by
  refine .of_front_inside (Nat.le_refl 1) (reads_loopInit hg.reads).shrinks fun t t' ts ts' hkind => ?_
  have hdecl : declAhead? (t' :: ts') = declAhead? (t :: ts) := by
    unfold declAhead?
    rw [kindAt_cons, kindAt_cons, hkind]
  rw [(front_beginsWith .semicolon).kind (t' :: ts') (t :: ts) hkind, hdecl]
  split
  · exact .result none
  · split
    · exact ((follows_declaration hg _).mono (Nat.zero_le 1)).map some
    · exact ((follows_expression hg).mono (Nat.zero_le 1)).map _

theorem follows_countedLoop : c.Follows 0 (countedLoop g) (countedLoop g) := by
  have hreads : g.Reads := hg.reads
  refine .bindInside (n := 1) (follows_loopInit hg) (fun init => ?_) fun init => ?_
  · refine (follows_expect .semicolon).bind fun _ => ?_
    refine .bindInside (n := 1) (follows_exprUnless hg .semicolon) (fun test => ?_) fun test => ?_
    · refine (follows_expect .semicolon).bind fun _ => ?_
      refine .bindInside (n := 1) (follows_exprUnless hg .closeParen) (fun update => ?_) fun update => ?_
      · exact (follows_expect .closeParen).bind fun _ => (hg.statement c).bind fun body => .result _
      · exact (reads_expect rfl).bind fun _ => hreads.statement.zero.bind fun body => .result _
    · refine (reads_expect rfl).bind fun _ => (reads_exprUnless hreads _).bind fun update => ?_
      exact (reads_expect rfl).zero.bind fun _ => hreads.statement.zero.bind fun body => .result _
  · refine (reads_expect rfl).bind fun _ => (reads_exprUnless hreads _).bind fun test => ?_
    refine (reads_expect rfl).zero.bind fun _ => (reads_exprUnless hreads _).bind fun update => ?_
    exact (reads_expect rfl).zero.bind fun _ => hreads.statement.zero.bind fun body => .result _

omit hg in
/-- Whether a loop over items starts is decided by three tokens. -/
theorem startsIteration_congr (h : ∀ i < 3, kindAt (ts'.drop i) = kindAt (ts.drop i)) :
    startsIteration ts' = startsIteration ts := by
  have h0 : kindAt ts' = kindAt ts := h 0 (by omega)
  unfold startsIteration declAhead? beginsWithWord
  rw [h0, h 1 (by omega), h 2 (by omega)]

omit hg in
theorem Near.of_startsIteration (h : c.Near ts ts') (ht : startsIteration ts' = true) :
    startsIteration ts = true := by
  rw [← startsIteration_congr fun i hi => (h.kindAt_drop_or i).resolve_right fun he => ?_]
  · exact ht
  obtain ⟨ht, hlink⟩ := Bool.and_eq_true_iff.mp ht
  obtain ⟨hdecl, hname⟩ := Bool.and_eq_true_iff.mp ht
  match i, hi with
  | 0, _ =>
    unfold declAhead? at hdecl
    rw [show kindAt ts' = .eof from he] at hdecl
    cases hdecl
  | 1, _ =>
    rw [he] at hname
    cases hname
  | 2, _ =>
    unfold beginsWithWord at hlink
    rw [he] at hlink
    cases hlink

theorem follows_forStatement : c.Follows 0 (forStatement g) (forStatement g) := by
  refine (follows_expect .openParen).bind fun _ => ?_
  refine .ifTest (follows_iteration hg) (follows_countedLoop hg) ?_ ?_
  · exact fun ts ts' hnear => hnear.of_startsIteration
  · intro ts ts' a r r' hnear htest hr hb _
    have hle := (readsAt_iteration hg.reads htest).length_add_le hr
    rw [startsIteration_congr fun i hi => hnear.kindAt_drop (by omega)]
    exact htest

theorem follows_exportStatement : c.Follows 0 (exportStatement g) (exportStatement g) := by
  refine (follows_eatWord "default").bind fun isDefault => ?_
  split
  · exact (hg.assignment c).bind fun value => follows_endStatement.bind fun _ => .result _
  · refine (hg.statement c).bind fun inner => ?_
    split
    · exact .result _
    · exact .result _
    · exact .fail

theorem follows_expressionStatement :
    c.Follows 0 (expressionStatement g) (expressionStatement g) :=
  (follows_expression hg).bind fun _ => follows_endStatement.bind fun _ => .result _

theorem follows_returnValue : c.Follows 0 (returnValue g) (returnValue g) := by
  refine .of_front_or (fun t t' ts ts' hkind => ?_) (shrinks_result none) ?_
  · have hend : atEnd (t' :: ts') = atEnd (t :: ts) := by
      unfold atEnd
      rw [kindAt_cons, kindAt_cons, hkind]
    rw [(front_beginsWith .semicolon).kind (t' :: ts') (t :: ts) hkind,
      (front_beginsWith .closeBrace).kind (t' :: ts') (t :: ts) hkind, hend]
    split
    · exact .result none
    · exact (follows_expression hg).map some
  · have hend : atEnd c.ending = true := by
      unfold atEnd
      rw [c.kindAt_ending]
    rw [hend, Bool.or_true, if_pos rfl]
    split
    · exact (Follows.result none).sim _ _ .cut
    · exact sim_cut (((reads_expression hg.reads).map some) _ _).advances

theorem follows_keywordStatement {w : String} {p : Parser Stmt}
    (h : keywordStatement? g w = some p) : c.Follows 0 p p := by
  unfold keywordStatement? at h
  split at h <;> cases h
  iterate 3
    exact (follows_declaration hg _).bind fun s => follows_endStatement.bind fun _ => .result s
  · exact .bind .skip fun _ => follows_namedFunction hg
  · exact .bind .skip fun _ => (follows_returnValue hg).bind fun value =>
      follows_endStatement.bind fun _ => .result _
  · refine .bind .skip fun _ => (follows_parenthesized hg).bind fun test => ?_
    refine (hg.statement c).bind fun consequent => (follows_eatWord "else").bind fun more => ?_
    split
    · exact ((hg.statement c).map some).bind fun alternative => .result _
    · exact (Follows.result none).bind fun alternative => .result _
  · exact .bind .skip fun _ => (follows_parenthesized hg).bind fun test =>
      (hg.statement c).bind fun body => .result _
  · refine .bind .skip fun _ => (hg.statement c).bind fun body => ?_
    refine (follows_eatWord "while").bind fun more => ?_
    split
    · exact (follows_parenthesized hg).bind fun test => follows_endStatement.bind fun _ => .result _
    · exact .unexpected
  · exact .bind .skip fun _ => follows_forStatement hg
  · exact .bind .skip fun _ => follows_endStatement.bind fun _ => .result _
  · exact .bind .skip fun _ => follows_endStatement.bind fun _ => .result _
  · exact .bind .skip fun _ => (follows_expression hg).bind fun value =>
      follows_endStatement.bind fun _ => .result _
  · exact .bind .skip fun _ => follows_exportStatement hg

omit hg in
/-- What has been read as a named function shows that it is one. -/
theorem startsShorthand_of_ok {ctx : ParseContext} {s : Stmt}
    (h : namedFunction g ctx ts = .ok (s, r)) : startsShorthand ts = true := by
  obtain ⟨name, u, hu, h⟩ := run_bind_ok h
  obtain ⟨-, rfl⟩ := run_ident_ok hu
  obtain ⟨f, _, hf, -⟩ := run_bind_ok h
  obtain ⟨ps, v, hv, hf⟩ := run_bind_ok hf
  obtain ⟨hopen, hclose⟩ := afterClose_params hv
  obtain ⟨body, _, hblock, -⟩ := run_bind_ok hf
  obtain ⟨_, _, hbrace, -⟩ := run_bind_ok hblock
  unfold startsShorthand
  rw [hclose]
  exact Bool.and_eq_true_iff.mpr ⟨beginsWith_of_kindAt hopen,
    beginsWith_of_kindAt (run_expect_ok hbrace).1⟩

omit hg in
theorem Near.of_startsShorthand (h : c.Near ts ts') (ht : startsShorthand ts' = true) :
    startsShorthand ts = true := by
  obtain ⟨hopen, hbrace⟩ := Bool.and_eq_true_iff.mp ht
  refine Bool.and_eq_true_iff.mpr ⟨h.of_front_drop (front_beginsWith _) hopen, ?_⟩
  split at hbrace
  · rename_i rest' hclose
    cases h with
    | cut =>
      have hopen := (c.ends 1).symm.trans (kindAt_of_beginsWith hopen)
      cases hopen
    | cons _ _ _ _ hrest =>
      obtain ⟨rest, hclose, hnear⟩ := hrest.afterClose hclose
      rw [List.drop_one, List.tail_cons, hclose]
      exact hnear.of_front_drop (i := 0) (front_beginsWith _) hbrace
  · cases hbrace

/-- A statement that starts with a word that is no keyword. -/
theorem sim_plainStatement (w : String) (hnear : c.Near ts ts') : c.Sim 0 ((do
      if w = "async" && beginsWithWord ["function"] (ts.drop 1) then
        skip
        skip
        namedFunction g
      else if (← read).shorthand && startsShorthand ts then namedFunction g
      else expressionStatement g : Parser Stmt) c.whole ts) ((do
      if w = "async" && beginsWithWord ["function"] (ts'.drop 1) then
        skip
        skip
        namedFunction g
      else if (← read).shorthand && startsShorthand ts' then namedFunction g
      else expressionStatement g : Parser Stmt) c.part ts') := by
  refine Sim.ifTest ?_ ?_ ?_ ?_
  · refine Follows.sim ?_ ts ts' hnear
    exact .bind .skip fun _ => .bind .skip fun _ => follows_namedFunction hg
  · change c.Sim 0
      ((if c.whole.shorthand && startsShorthand ts then namedFunction g
        else expressionStatement g) c.whole ts)
      ((if c.part.shorthand && startsShorthand ts' then namedFunction g
        else expressionStatement g) c.part ts')
    rw [c.shorthand]
    refine Sim.ifTest ((follows_namedFunction hg).sim ts ts' hnear)
      ((follows_expressionStatement hg).sim ts ts' hnear) (fun htest => ?_) ?_
    · obtain ⟨hshort, htest⟩ := Bool.and_eq_true_iff.mp htest
      exact Bool.and_eq_true_iff.mpr ⟨hshort, hnear.of_startsShorthand htest⟩
    · intro s r r' htest _ _ hr'
      exact Bool.and_eq_true_iff.mpr
        ⟨(Bool.and_eq_true_iff.mp htest).1, startsShorthand_of_ok hr'⟩
  · intro htest
    obtain ⟨hw, hfunction⟩ := Bool.and_eq_true_iff.mp htest
    rw [hw, hnear.of_front_drop (front_beginsWithWord _) hfunction]
    rfl
  · intro s r r' htest hr hb _
    obtain ⟨hw, hfunction⟩ := Bool.and_eq_true_iff.mp htest
    obtain ⟨_, u, hu, hr⟩ := run_bind_ok hr
    obtain ⟨_, v, hv, hr⟩ := run_bind_ok hr
    cases hu
    cases hv
    have hle := (reads_namedFunction hg.reads _ _).length_add_le hr
    simp only [List.length_drop] at hle
    rw [hw, hnear.front_drop (front_beginsWithWord _) (i := 1) (by omega), hfunction]
    rfl

theorem follows_statementBody : c.Follows 0 (statementBody g) (statementBody g) := by
  refine .of_reads (reads_statementBody hg.reads) fun t t' ts ts' hnear hkind _ => ?_
  unfold statementBody
  simp only [run_ahead, kindAt_cons, hkind]
  cases t.kind with
  | word w =>
    rcases hword : keywordStatement? g w with _ | p
    · simp only [hword]
      exact sim_plainStatement hg w hnear
    · simp only [hword]
      exact (follows_keywordStatement hg hword).sim _ _ hnear
  | punctuator p =>
    refine Follows.sim ?_ _ _ hnear
    split
    · exact .bind .skip fun _ => .result _
    · exact (follows_block hg.reads.statement (hg.statement c)).bind fun body => .result _
    · contradiction
    · exact follows_expressionStatement hg
  | _ => exact (follows_expressionStatement hg).sim _ _ hnear

end Level
end Cut

/-- **The parsers of a grammar follow across every cut**: what they read does not depend on what
stands behind it. -/
theorem follows_grammar (depth : Nat) : (grammar depth).Follows := by
  induction depth with
  | zero =>
    exact ⟨reads_grammar 0, fun _ => .fail, fun _ => .fail, fun _ => .fail, fun _ _ => .fail⟩
  | succ depth ih =>
    exact ⟨reads_grammar (depth + 1), fun _ => Cut.follows_statementBody ih,
      fun _ => Cut.follows_assignmentBody ih, fun _ => Cut.follows_unaryBody ih,
      fun _ => Cut.follows_binaryBody ih⟩

end Stencil.Script.Parser
