import Stencil.Proofs.Script.Parser.Reading
import Stencil.Proofs.Script.Token.Lexing

/-! # Parsers do not look behind what they read

A **cut** puts the tokens of a text side by side with those of a part of it (`Cut`): up to the cut
they are the same, behind it the text goes on while the part ends.  A parser **follows** across the
cut if, whenever it succeeds on the text without reading beyond the cut, it gives the same value on
the part and stops at the same place (`Cut.Follows`).  With a slack of `b` tokens this is only asked
of runs that stop at least `b` tokens before the cut.

Tests of the token in front come out differently at the cut itself, where the part has only `eof`.
There a parser has to read what it has seen, which the cut forbids, or to do without it, as it does
at the end.  Lists are read up to a bracket that they leave, so they follow with a slack of one
token, which the bracket takes up.  The parsers that look further ahead, for an arrow or for the
brace of a function, find in the part all that they have read in the text.
-/
namespace Stencil.Script.Parser
variable {α β : Type}

/-- The parser never adds tokens. -/
def Shrinks (p : Parser α) : Prop :=
  ∀ ctx ts a r, p ctx ts = .ok (a, r) → r.length ≤ ts.length

theorem Reads.shrinks {p : Parser α} {n : Nat} (h : Reads n p) : Shrinks p :=
  fun ctx ts _ _ hr => Nat.le_of_add_right_le ((h ctx ts).length_add_le hr)

theorem Shrinks.bind {p : Parser α} {f : α → Parser β} (hp : Shrinks p)
    (hf : ∀ a, Shrinks (f a)) : Shrinks (p >>= f) := by
  intro ctx ts b r hr
  obtain ⟨a, s, hs, hr⟩ := run_bind_ok hr
  exact Nat.le_trans (hf a ctx s b r hr) (hp ctx ts a s hs)

theorem shrinks_result (a : α) : Shrinks (pure a) := by
  intro ctx ts b r hr
  cases hr
  exact Nat.le_refl _

theorem shrinks_skip : Shrinks skip := by
  intro ctx ts b r hr
  cases hr
  exact List.length_drop ▸ Nat.sub_le _ _

theorem shrinks_eat (p : Punctuator) : Shrinks (eat p) := by
  intro ctx ts b r hr
  rw [run_eat] at hr
  split at hr <;> cases hr
  · exact List.length_drop ▸ Nat.sub_le _ _
  · exact Nat.le_refl _

theorem shrinks_ahead {f : List Token → Parser α} (hf : ∀ ts, Shrinks (f ts)) :
    Shrinks (ahead >>= f) :=
  fun ctx ts a r hr => hf ts ctx ts a r hr

theorem shrinks_statementsToBrace {statement : Parser Stmt} (hs : Reads 0 statement)
    (done : List Stmt) (fuel : Nat) : Shrinks (statementsToBrace statement done fuel) := by
  intro ctx ts body r hr
  obtain ⟨u, t, rfl, -, -⟩ := run_statementsToBrace_ok hs hr
  rw [List.length_append, List.length_cons]
  omega

/-- A punctuator that must come first is taken. -/
theorem length_of_expect {p : Punctuator} {ctx : ParseContext} {ts r : List Token} {x : Unit}
    (h : expect p ctx ts = .ok (x, r)) : r.length + 1 ≤ ts.length := by
  obtain ⟨hk, rfl⟩ := run_expect_ok h
  obtain ⟨t, s, rfl, -⟩ := exists_cons_of_punctuator hk
  exact Nat.le_refl _

/-- The parser takes at least one token off the front. -/
def Advances (p : Parser α) (ctx : ParseContext) (ts : List Token) : Prop :=
  ∀ a r, p ctx ts = .ok (a, r) → r.length < ts.length

theorem ReadsAt.advances {p : Parser α} {ctx : ParseContext} {ts : List Token}
    (h : ReadsAt 1 p ctx ts) : Advances p ctx ts :=
  fun _ _ hr => h.length_add_le hr

theorem Advances.bind {p : Parser α} {f : α → Parser β} {ctx : ParseContext} {ts : List Token}
    (hp : Advances p ctx ts) (hf : ∀ a, Shrinks (f a)) : Advances (p >>= f) ctx ts := by
  intro b r hr
  obtain ⟨a, s, hs, hr⟩ := run_bind_ok hr
  exact Nat.lt_of_le_of_lt (hf a ctx s b r hr) (hp a s hs)

theorem advances_skip {ctx : ParseContext} {ts : List Token} (h : ts ≠ []) :
    Advances skip ctx ts := by
  intro a r hr
  cases hr
  have := List.length_pos_iff.mpr h
  simp only [List.length_drop]
  omega

theorem run_ahead (f : List Token → Parser α) (ctx : ParseContext) (ts : List Token) :
    (ahead >>= f) ctx ts = f ts ctx ts :=
  rfl

theorem kindAt_cons (t : Token) (ts : List Token) : kindAt (t :: ts) = t.kind :=
  rfl

/-- A test of the token in front that `eof` does not pass. -/
structure Front (test : List Token → Bool) : Prop where
  kind : ∀ ts ts', kindAt ts = kindAt ts' → test ts = test ts'
  eof : test [] = false

theorem Front.cons {test : List Token → Bool} (h : Front test) {t t' : Token} {ts ts' : List Token}
    (hkind : t'.kind = t.kind) : test (t' :: ts') = test (t :: ts) :=
  h.kind _ _ hkind

theorem Front.ne_nil {test : List Token → Bool} (h : Front test) {ts : List Token}
    (hts : test ts = true) : ts ≠ [] := by
  intro he
  rw [he, h.eof] at hts
  cases hts

theorem front_beginsWith (p : Punctuator) : Front (beginsWith p) :=
  ⟨fun ts ts' h => by unfold beginsWith; rw [h], rfl⟩

theorem front_beginsWithWord (words : List String) : Front (beginsWithWord words) :=
  ⟨fun ts ts' h => by unfold beginsWithWord; rw [h], rfl⟩

theorem kindAt_drop_eof (o i : Nat) : kindAt (List.drop i [⟨.eof, o⟩]) = .eof := by
  cases i with
  | zero => rfl
  | succ i => rw [List.drop_succ_cons, List.drop_nil]; rfl

/-- Tokens that are read up to the end of a text are all but the last one. -/
theorem eq_of_atEnd {init u r : List Token} {o : Nat} (hinit : ∀ t ∈ init, t.kind ≠ .eof)
    (h : init ++ [⟨.eof, o⟩] = u ++ r) (hu : ∀ t ∈ u, t.kind ≠ .eof) (hr : atEnd r = true) :
    u = init ∧ r = [⟨.eof, o⟩] := by
  rcases List.eq_nil_or_concat r with rfl | ⟨r, y, rfl⟩
  · have heof : (⟨.eof, o⟩ : Token) ∈ u := by
      rw [← List.append_nil u, ← h]
      exact List.mem_append_right _ List.mem_cons_self
    exact absurd rfl (hu _ heof)
  · rw [List.concat_eq_append, ← List.append_assoc] at h
    rw [List.concat_eq_append] at hr ⊢
    obtain ⟨rfl, hy⟩ := List.append_inj' h rfl
    rw [← hy] at hr ⊢
    cases r with
    | nil => exact ⟨(List.append_nil u).symm, rfl⟩
    | cons t r =>
      refine absurd ?_ (hinit t (List.mem_append_right _ List.mem_cons_self))
      unfold atEnd at hr
      split at hr
      · assumption
      · cases hr

/-! ## Cuts -/

/-- The tokens behind the same place in a text and in a part of it that ends there. -/
structure Cut where
  whole : ParseContext
  part : ParseContext
  behind : List Token
  ending : List Token
  shorthand : part.shorthand = whole.shorthand
  behind_ne : behind ≠ []
  ends : ∀ i, kindAt (ending.drop i) = .eof
  whole_fits : behind.length ≤ whole.size
  part_fits : ending.length ≤ part.size

namespace Cut
variable {c : Cut} {b n : Nat} {ts ts' r r' : List Token}

theorem kindAt_ending (c : Cut) : kindAt c.ending = .eof :=
  c.ends 0

/-- The same place in the text and in the part, not behind the cut.  The last token in front of the
cut is one that a piece may end with. -/
inductive Near (c : Cut) : List Token → List Token → Prop where
  | cut : c.Near c.behind c.ending
  | cons {t t' : Token} {ts ts' : List Token} (kind : t'.kind = t.kind)
      (last : ts = c.behind → t.kind.stands = true) (whole : ts.length < c.whole.size)
      (part : ts'.length < c.part.size) (rest : c.Near ts ts') : c.Near (t :: ts) (t' :: ts')

theorem Near.length_le (h : c.Near ts ts') : c.behind.length ≤ ts.length := by
  induction h with
  | cut => exact Nat.le_refl _
  | cons _ _ _ _ _ ih => exact Nat.le_succ_of_le ih

theorem Near.whole_le (h : c.Near ts ts') : ts.length ≤ c.whole.size := by
  cases h with
  | cut => exact c.whole_fits
  | cons _ _ whole => exact whole

theorem Near.part_le (h : c.Near ts ts') : ts'.length ≤ c.part.size := by
  cases h with
  | cut => exact c.part_fits
  | cons _ _ _ part => exact part

theorem Near.ne_nil (h : c.Near ts ts') : ts ≠ [] := by
  cases h with
  | cut => exact c.behind_ne
  | cons => exact List.cons_ne_nil _ _

/-- In front of the cut the tokens are the same. -/
theorem Near.kindAt_drop (h : c.Near ts ts') {i : Nat} (hi : i + c.behind.length < ts.length) :
    kindAt (ts'.drop i) = kindAt (ts.drop i) := by
  induction h generalizing i with
  | cut => omega
  | cons kind _ _ _ _ ih =>
    cases i with
    | zero => exact kind
    | succ i =>
      rw [List.length_cons] at hi
      exact ih (by omega)

/-- No token of the part is different from that of the text, but it may be `eof`. -/
theorem Near.kindAt_drop_or (h : c.Near ts ts') (i : Nat) :
    kindAt (ts'.drop i) = kindAt (ts.drop i) ∨ kindAt (ts'.drop i) = .eof := by
  induction h generalizing i with
  | cut => exact .inr (c.ends i)
  | cons kind _ _ _ _ ih =>
    cases i with
    | zero => exact .inl kind
    | succ i => exact ih i

/-- What a test finds in the part stands in the text too. -/
theorem Near.kindAt_of (h : c.Near ts ts') {i : Nat} {k : TokenKind} (hk : k ≠ .eof)
    (hi : kindAt (ts'.drop i) = k) : kindAt (ts.drop i) = k := by
  rcases h.kindAt_drop_or i with h | h
  · rw [← h, hi]
  · exact absurd (hi.symm.trans h) hk

/-- A test of the token in front comes out differently at the cut only. -/
theorem Near.front (h : c.Near ts ts') {test : List Token → Bool} (ht : Front test) :
    test ts' = test ts ∨ ts = c.behind ∧ test ts' = false := by
  cases h with
  | cut => exact .inr ⟨rfl, (ht.kind _ [] (c.ends 0)).trans ht.eof⟩
  | cons kind => exact .inl (ht.cons kind)

/-- A test that a later token passes in the part is passed in the text. -/
theorem Near.of_front_drop (h : c.Near ts ts') {test : List Token → Bool} (ht : Front test) {i : Nat}
    (hi : test (ts'.drop i) = true) : test (ts.drop i) = true := by
  rcases h.kindAt_drop_or i with h | h
  · rw [← ht.kind _ _ h, hi]
  · rw [ht.kind _ [] h, ht.eof] at hi
    cases hi

/-- A test that a token in front of the cut passes in the text is passed in the part. -/
theorem Near.front_drop (h : c.Near ts ts') {test : List Token → Bool} (ht : Front test) {i : Nat}
    (hi : i + c.behind.length < ts.length) : test (ts'.drop i) = test (ts.drop i) :=
  ht.kind _ _ (h.kindAt_drop hi)

/-- Tokens of the same kinds in front of a cut. -/
theorem near_append {u u' : List Token} (hkinds : u'.map Token.kind = u.map Token.kind)
    (hu : Piece u) (hwhole : (u ++ c.behind).length ≤ c.whole.size)
    (hpart : (u' ++ c.ending).length ≤ c.part.size) :
    c.Near (u ++ c.behind) (u' ++ c.ending) := by
  induction u generalizing u' with
  | nil =>
    rw [List.map_eq_nil_iff.mp hkinds]
    exact .cut
  | cons t u ih =>
    cases u' with
    | nil => cases hkinds
    | cons t' u' =>
      obtain ⟨hkind, hkinds⟩ := List.cons.inj hkinds
      refine .cons hkind (fun hlast => ?_) hwhole hpart (ih hkinds ?_ ?_ ?_)
      · have hnil : u = [] := List.append_left_eq_self.mp hlast
        exact hu.stands t (by rw [hnil]; rfl)
      · refine ⟨fun s hs => hu.noEof s (List.mem_cons_of_mem t hs), fun s hs => hu.stands s ?_⟩
        rw [List.getLast?_cons, show u.getLast? = some s from hs]
        rfl
      · exact Nat.le_of_lt hwhole
      · exact Nat.le_of_lt hpart

/-- At the cut the part ends. -/
theorem Near.eq_ending (h : c.Near ts ts') (hts : ts.length = c.behind.length) : ts' = c.ending := by
  cases h with
  | cut => rfl
  | cons _ _ _ _ rest =>
    have := rest.length_le
    rw [List.length_cons] at hts
    omega

/-! ## Following across a cut -/

/-- A run on the text that stops at least `b` tokens before the cut is matched by a run on the
part. -/
def Sim (c : Cut) (b : Nat) (x x' : Except ScriptError (α × List Token)) : Prop :=
  ∀ a r, x = .ok (a, r) → c.behind.length + b ≤ r.length → ∃ r', x' = .ok (a, r') ∧ c.Near r r'

theorem Sim.of_ne_ok {x x' : Except ScriptError (α × List Token)} (h : ∀ y, x ≠ .ok y) :
    c.Sim b x x' :=
  fun _ _ hx => absurd hx (h _)

/-- The second parser follows the first one across the cut, with a slack of `b` tokens. -/
structure Follows (c : Cut) (b : Nat) (p p' : Parser α) : Prop where
  shrinks : Shrinks p
  sim : ∀ ts ts', c.Near ts ts' → c.Sim b (p c.whole ts) (p' c.part ts')

theorem Near.length_eq (h : c.Near ts ts') :
    ts.length + c.ending.length = ts'.length + c.behind.length := by
  induction h with
  | cut => exact Nat.add_comm _ _
  | cons _ _ _ _ _ ih =>
    rw [List.length_cons, List.length_cons]
    omega

/-- Both sides read the same number of tokens. -/
theorem Near.length_le_of (h : c.Near ts ts') (hr : c.Near r r') (hle : r.length ≤ ts.length) :
    r'.length ≤ ts'.length := by
  have := h.length_eq
  have := hr.length_eq
  omega

theorem Near.length_lt (h : c.Near ts ts') (hr : c.Near r r') (hlt : r.length < ts.length) :
    r'.length < ts'.length := by
  have := h.length_eq
  have := hr.length_eq
  omega

theorem Sim.bind {p p' : Parser α} {f f' : α → Parser β}
    (hp : c.Sim b (p c.whole ts) (p' c.part ts')) (hshrinks : ∀ a, Shrinks (f a))
    (hf : ∀ a r r', p c.whole ts = .ok (a, r) → c.Near r r' →
      c.Sim b (f a c.whole r) (f' a c.part r')) :
    c.Sim b ((p >>= f) c.whole ts) ((p' >>= f') c.part ts') := by
  intro x r hr hb
  obtain ⟨a, s, hs, hr⟩ := run_bind_ok hr
  have hle := hshrinks a c.whole s x r hr
  obtain ⟨s', hs', hnear⟩ := hp a s hs (Nat.le_trans hb hle)
  obtain ⟨r', hr', hnear'⟩ := hf a s s' hs hnear x r hr hb
  exact ⟨r', (run_bind_of_ok hs').trans hr', hnear'⟩

/-- At the cut nothing can be read, so a parser that has read something has gone beyond it. -/
theorem sim_cut {p : Parser α} {x' : Except ScriptError (α × List Token)}
    (h : Advances p c.whole c.behind) : c.Sim b (p c.whole c.behind) x' := by
  intro a r hr hb
  have := h a r hr
  omega

/-- A parser that must stop before the cut does not start at the cut. -/
theorem sim_inside {p : Parser α} {x' : Except ScriptError (α × List Token)} (hb : 1 ≤ b)
    (hp : Shrinks p) : c.Sim b (p c.whole c.behind) x' := by
  intro a r hr hle
  have := hp c.whole c.behind a r hr
  omega

/-- A test may decide, if it comes out true in the text where it does in the part, and the other way
round where what is read then ends in front of the cut. -/
theorem Sim.ifTest {p p' q q' : Parser α} {test test' : Bool}
    (hp : c.Sim b (p c.whole ts) (p' c.part ts')) (hq : c.Sim b (q c.whole ts) (q' c.part ts'))
    (hpart : test' = true → test = true)
    (hwhole : ∀ a r r', test = true → p c.whole ts = .ok (a, r) → c.behind.length + b ≤ r.length →
      p' c.part ts' = .ok (a, r') → test' = true) :
    c.Sim b ((if test then p else q) c.whole ts) ((if test' then p' else q') c.part ts') := by
  intro a r hr hb
  split at hr
  · rename_i htest
    obtain ⟨r', hr', hnear'⟩ := hp a r hr hb
    rw [if_pos (hwhole a r r' htest hr hb hr')]
    exact ⟨r', hr', hnear'⟩
  · rename_i htest
    rw [if_neg fun h => htest (hpart h)]
    exact hq a r hr hb

namespace Follows
variable {p p' q q' : Parser α} {f f' : α → Parser β}

theorem mono (h : c.Follows b p p') {b' : Nat} (hb : b ≤ b') : c.Follows b' p p' := by
  refine ⟨h.shrinks, fun ts ts' hnear a r hr hle => h.sim ts ts' hnear a r hr ?_⟩
  exact Nat.le_trans (Nat.add_le_add_left hb _) hle

theorem result (a : α) : c.Follows b (pure a) (pure a) := by
  refine ⟨shrinks_result a, fun ts ts' hnear x r hr _ => ?_⟩
  cases hr
  exact ⟨ts', rfl, hnear⟩

theorem of_ne_ok (h : ∀ ctx ts x, p ctx ts ≠ .ok x) : c.Follows b p p' :=
  ⟨fun ctx ts _ _ hr => absurd hr (h ctx ts _), fun ts _ _ => Sim.of_ne_ok (h c.whole ts)⟩

theorem fail {message : String} : c.Follows b (Parser.fail message : Parser α) p' :=
  of_ne_ok fun _ _ _ => fail_ne_ok

theorem unexpected : c.Follows b (Parser.unexpected : Parser α) p' :=
  of_ne_ok fun _ _ _ => unexpected_ne_ok

theorem bind (hp : c.Follows b p p') (hf : ∀ a, c.Follows b (f a) (f' a)) :
    c.Follows b (p >>= f) (p' >>= f') := by
  refine ⟨hp.shrinks.bind fun a => (hf a).shrinks, fun ts ts' hnear => ?_⟩
  refine Sim.bind (hp.sim ts ts' hnear) (fun a => (hf a).shrinks) fun a r r' _ hr => ?_
  exact (hf a).sim r r' hr

/-- What the second parser reads is slack for the first one. -/
theorem bindInside (hp : c.Follows (b + n) p p') (hf : ∀ a, c.Follows b (f a) (f' a))
    (hreads : ∀ a, Reads n (f a)) : c.Follows b (p >>= f) (p' >>= f') := by
  refine ⟨hp.shrinks.bind fun a => (hf a).shrinks, fun ts ts' hnear x r hr hb => ?_⟩
  obtain ⟨a, s, hs, hr⟩ := run_bind_ok hr
  have hle := (hreads a c.whole s).length_add_le hr
  obtain ⟨s', hs', hnear⟩ := hp.sim ts ts' hnear a s hs (by omega)
  obtain ⟨r', hr', hnear'⟩ := (hf a).sim s s' hnear x r hr hb
  exact ⟨r', (run_bind_of_ok hs').trans hr', hnear'⟩

theorem map (hp : c.Follows b p p') (g : α → β) : c.Follows b (g <$> p) (g <$> p') :=
  hp.bind fun a => result (g a)

/-- Offsets are different in the text and in the part. -/
theorem offset {f f' : Nat → Parser β} (hf : ∀ o o', c.Follows b (f o) (f' o')) :
    c.Follows b (Parser.offset >>= f) (Parser.offset >>= f') := by
  refine ⟨reads_offset.shrinks.bind fun o => (hf o o).shrinks, fun ts ts' hnear => ?_⟩
  obtain ⟨o, ho⟩ := offset_ok c.whole ts
  obtain ⟨o', ho'⟩ := offset_ok c.part ts'
  rw [run_bind_of_ok ho, run_bind_of_ok ho']
  exact (hf o o').sim ts ts' hnear

theorem lift {x x' : Except ScriptError α} (h : ∀ a, x = .ok a → x' = .ok a) :
    c.Follows b (liftM x) (liftM x') := by
  refine ⟨(reads_lift x).shrinks, fun ts ts' hnear a r hr _ => ?_⟩
  rw [run_lift] at hr ⊢
  cases x with
  | error e => cases hr
  | ok a =>
    cases hr
    exact ⟨ts', by rw [h a rfl]; rfl, hnear⟩

theorem skip : c.Follows b Parser.skip Parser.skip := by
  refine ⟨shrinks_skip, fun ts ts' hnear a r hr hb => ?_⟩
  cases hr
  cases hnear with
  | cut =>
    have := List.length_pos_iff.mpr c.behind_ne
    simp only [List.length_drop] at hb
    omega
  | cons _ _ _ _ rest => exact ⟨_, rfl, rest⟩

/-- A parser that always reads something is only used in front of the cut. -/
theorem of_reads (h : Reads 1 p)
    (hcons : ∀ t t' ts ts', c.Near (t :: ts) (t' :: ts') → t'.kind = t.kind → c.Near ts ts' →
      c.Sim b (p c.whole (t :: ts)) (p' c.part (t' :: ts'))) : c.Follows b p p' := by
  refine ⟨h.shrinks, fun ts ts' hnear => ?_⟩
  cases hnear with
  | cut => exact sim_cut (h c.whole c.behind).advances
  | cons kind last whole part rest =>
    exact hcons _ _ _ _ (.cons kind last whole part rest) kind rest

/-- A test of the token in front may decide, if the parser reads what has passed it. -/
theorem ifFront {test : List Token → Bool} (ht : Front test) (hp : c.Follows b p p')
    (hq : c.Follows b q q') (hreads : (∀ ctx ts, test ts = true → Advances p ctx ts) ∨ 1 ≤ b) :
    c.Follows b (do if test (← ahead) then p else q) (do if test (← ahead) then p' else q') := by
  refine ⟨fun ctx ts a r hr => ?_, fun ts ts' hnear => ?_⟩
  · obtain ⟨l, s, hs, hr⟩ := run_bind_ok hr
    cases hs
    split at hr
    · exact hp.shrinks ctx ts a r hr
    · exact hq.shrinks ctx ts a r hr
  · change c.Sim b ((if test ts then p else q) c.whole ts) ((if test ts' then p' else q') c.part ts')
    rcases hnear.front ht with h | ⟨hcut, h⟩
    · rw [h]
      split
      · exact hp.sim ts ts' hnear
      · exact hq.sim ts ts' hnear
    · rw [h, if_neg Bool.false_ne_true]
      split
      · rename_i htest
        subst hcut
        rcases hreads with hreads | hb
        · exact sim_cut (hreads c.whole _ htest)
        · exact sim_inside hb hp.shrinks
      · exact hq.sim ts ts' hnear

/-- A test of tokens further ahead may decide, if the part has no tokens that pass it and the text
does not, and if what the parser reads when they pass holds all that the test has looked at. -/
theorem ifTest {test : List Token → Bool} (hp : c.Follows b p p') (hq : c.Follows b q q')
    (hpart : ∀ ts ts', c.Near ts ts' → test ts' = true → test ts = true)
    (hwhole : ∀ ts ts' a r r', c.Near ts ts' → test ts = true → p c.whole ts = .ok (a, r) →
      c.behind.length + b ≤ r.length → p' c.part ts' = .ok (a, r') → test ts' = true) :
    c.Follows b (do if test (← ahead) then p else q) (do if test (← ahead) then p' else q') := by
  refine ⟨fun ctx ts a r hr => ?_, fun ts ts' hnear => ?_⟩
  · rw [run_ahead] at hr
    split at hr
    · exact hp.shrinks ctx ts a r hr
    · exact hq.shrinks ctx ts a r hr
  · exact Sim.ifTest (hp.sim ts ts' hnear) (hq.sim ts ts' hnear) (hpart ts ts' hnear)
      fun a r r' htest => hwhole ts ts' a r r' hnear htest

/-- A parser that looks at the token in front follows if it does for each kind of token. -/
theorem of_front {F F' : List Token → Parser α} (hreads : Reads 1 (ahead >>= F))
    (h : ∀ t t' ts ts', t'.kind = t.kind → c.Follows b (F (t :: ts)) (F' (t' :: ts'))) :
    c.Follows b (ahead >>= F) (ahead >>= F') :=
  of_reads hreads fun t t' ts ts' hnear hkind _ => (h t t' ts ts' hkind).sim _ _ hnear

/-- A parser that may leave everything looks at the token in front, or at the end. -/
theorem of_front_or {F F' : List Token → Parser α}
    (hcons : ∀ t t' ts ts', t'.kind = t.kind → c.Follows b (F (t :: ts)) (F' (t' :: ts')))
    (hnil : Shrinks (F []))
    (hcut : c.Sim b (F c.behind c.whole c.behind) (F' c.ending c.part c.ending)) :
    c.Follows b (ahead >>= F) (ahead >>= F') := by
  refine ⟨fun ctx ts => ?_, fun ts ts' hnear => ?_⟩
  · cases ts with
    | nil => exact hnil ctx []
    | cons t ts => exact (hcons t t ts ts rfl).shrinks ctx (t :: ts)
  · cases hnear with
    | cut => exact hcut
    | cons kind last whole part rest =>
      exact (hcons _ _ _ _ kind).sim _ _ (.cons kind last whole part rest)

/-- With slack, a parser that looks at the token in front only does so in front of the cut. -/
theorem of_front_inside {F F' : List Token → Parser α} (hb : 1 ≤ b) (hp : Shrinks (ahead >>= F))
    (h : ∀ t t' ts ts', t'.kind = t.kind → c.Follows b (F (t :: ts)) (F' (t' :: ts'))) :
    c.Follows b (ahead >>= F) (ahead >>= F') := by
  refine ⟨hp, fun ts ts' hnear => ?_⟩
  cases hnear with
  | cut => exact sim_inside hb hp
  | cons kind last whole part rest =>
    exact (h _ _ _ _ kind).sim _ _ (.cons kind last whole part rest)

/-- A token that passes a test is taken. -/
theorem take {test : List Token → Bool} (ht : Front test) :
    c.Follows b (do
      if test (← ahead) then
        Parser.skip
        pure true
      else pure false) (do
      if test (← ahead) then
        Parser.skip
        pure true
      else pure false) := by
  refine ifFront ht (skip.bind fun _ => result true) (result false) (.inl fun ctx ts h => ?_)
  exact (advances_skip (ht.ne_nil h)).bind fun _ => shrinks_result true

end Follows

/-! ## Single tokens -/

theorem follows_eat (p : Punctuator) : c.Follows b (eat p) (eat p) :=
  .take (front_beginsWith p)

theorem follows_eatWord (w : String) : c.Follows b (eatWord w) (eatWord w) :=
  .take (front_beginsWithWord [w])

theorem follows_expect (p : Punctuator) : c.Follows b (expect p) (expect p) := by
  refine (follows_eat p).bind fun found => ?_
  split
  · exact .unexpected
  · exact .result ()

theorem follows_ident : c.Follows b ident ident := by
  refine .of_front reads_ident fun t t' ts ts' hkind => ?_
  simp only [kindAt_cons, hkind]
  split
  · split
    · exact .unexpected
    · exact .bind .skip fun _ => .result _
  · exact .unexpected

theorem follows_propertyName : c.Follows b propertyName propertyName := by
  refine .of_front reads_propertyName fun t t' ts ts' hkind => ?_
  simp only [kindAt_cons, hkind]
  split
  · exact .bind .skip fun _ => .result _
  · exact .unexpected

theorem follows_endStatement : c.Follows b endStatement endStatement :=
  (follows_eat .semicolon).bind fun _ => .result ()

/-! ## Loops -/

/-- The bounds on a loop do not matter, if they exceed the number of tokens. -/
structure FollowsLoop (c : Cut) (b : Nat) (f f' : Nat → Parser α) : Prop where
  shrinks : ∀ n, Shrinks (f n)
  sim : ∀ n n' ts ts', c.Near ts ts' → ts.length < n → ts'.length < n' →
    c.Sim b (f n c.whole ts) (f' n' c.part ts')

namespace FollowsLoop
variable {f f' : Nat → Parser α}

theorem mono (h : c.FollowsLoop b f f') {b' : Nat} (hb : b ≤ b') : c.FollowsLoop b' f f' := by
  refine ⟨h.shrinks, fun n n' ts ts' hnear hn hn' a r hr hle => ?_⟩
  exact h.sim n n' ts ts' hnear hn hn' a r hr (Nat.le_trans (Nat.add_le_add_left hb _) hle)

theorem bind (h : c.FollowsLoop b f f') {k k' : α → Parser β}
    (hk : ∀ a, c.Follows b (k a) (k' a)) :
    c.FollowsLoop b (fun n => f n >>= k) (fun n => f' n >>= k') := by
  refine ⟨fun n => (h.shrinks n).bind fun a => (hk a).shrinks, fun n n' ts ts' hnear hn hn' => ?_⟩
  refine Sim.bind (h.sim n n' ts ts' hnear hn hn') (fun a => (hk a).shrinks) fun a r r' _ hr => ?_
  exact (hk a).sim r r' hr

/-- What is read behind the loop is slack for it. -/
theorem bindInside (h : c.FollowsLoop (b + m) f f') {k k' : α → Parser β}
    (hk : ∀ a, c.Follows b (k a) (k' a))
    (htakes : ∀ a ts x r, k a c.whole ts = .ok (x, r) → r.length + m ≤ ts.length) :
    c.FollowsLoop b (fun n => f n >>= k) (fun n => f' n >>= k') := by
  refine ⟨fun n => (h.shrinks n).bind fun a => (hk a).shrinks, ?_⟩
  intro n n' ts ts' hnear hn hn' x r hr hb
  obtain ⟨a, s, hs, hr⟩ := run_bind_ok hr
  have hle := htakes a s x r hr
  obtain ⟨s', hs', hnear'⟩ := h.sim n n' ts ts' hnear hn hn' a s hs (by omega)
  obtain ⟨r', hr', hnear''⟩ := (hk a).sim s s' hnear' x r hr hb
  exact ⟨r', (run_bind_of_ok hs').trans hr', hnear''⟩

/-- The number of tokens of the text is a bound that is large enough, and so is that of the part. -/
theorem budget (h : c.FollowsLoop b f f') :
    c.Follows b (Parser.budget >>= f) (Parser.budget >>= f') := by
  refine ⟨reads_budget.shrinks.bind h.shrinks, fun ts ts' hnear => ?_⟩
  exact h.sim _ _ ts ts' hnear (Nat.lt_succ_of_le hnear.whole_le) (Nat.lt_succ_of_le hnear.part_le)

/-- A loop follows if one turn does, provided that the loop follows from any shorter place on. -/
theorem of_turn {ι : Type} {f : ι → Nat → Parser α} (hshrinks : ∀ i n, Shrinks (f i n))
    (hturn : ∀ n n', (∀ i ts ts', c.Near ts ts' → ts.length < n → ts'.length < n' →
        c.Sim b (f i n c.whole ts) (f i n' c.part ts')) →
      ∀ i ts ts', c.Near ts ts' → ts.length ≤ n → ts'.length ≤ n' →
        c.Sim b (f i (n + 1) c.whole ts) (f i (n' + 1) c.part ts')) (i : ι) :
    c.FollowsLoop b (f i) (f i) := by
  refine ⟨hshrinks i, fun n => ?_⟩
  induction n generalizing i with
  | zero => exact fun _ _ _ _ hn => absurd hn (Nat.not_lt_zero _)
  | succ n ih =>
    intro n' ts ts' hnear hn hn'
    cases n' with
    | zero => exact absurd hn' (Nat.not_lt_zero _)
    | succ n' =>
      refine hturn n n' (fun i ts ts' hnear hn hn' => ?_) i ts ts' hnear ?_ ?_
      · exact ih i n' ts ts' hnear hn hn'
      · exact Nat.le_of_lt_succ hn
      · exact Nat.le_of_lt_succ hn'

end FollowsLoop

/-- A token decides whether a loop goes on; if it does, the token has been read. -/
theorem sim_more {p : Punctuator} {again again' : Parser α} (stop : α) {n n' : Nat}
    (hshrinks : Shrinks again)
    (hagain : ∀ ts ts', c.Near ts ts' → ts.length < n → ts'.length < n' →
      c.Sim b (again c.whole ts) (again' c.part ts'))
    (hnear : c.Near ts ts') (hn : ts.length ≤ n) (hn' : ts'.length ≤ n') :
    c.Sim b ((do if ← eat p then again else pure stop : Parser α) c.whole ts)
      ((do if ← eat p then again' else pure stop : Parser α) c.part ts') := by
  refine Sim.bind ((follows_eat p).sim ts ts' hnear) (fun more => ?_) fun more r r' hr hnear' => ?_
  · split
    · exact hshrinks
    · exact shrinks_result stop
  · split
    · rename_i hmore
      rw [run_eat] at hr
      split at hr <;> cases hr
      · have hlt : (ts.drop 1).length < ts.length := by
          have := List.length_pos_iff.mpr hnear.ne_nil
          rw [List.length_drop]
          omega
        have hlt' := hnear.length_lt hnear' hlt
        exact hagain _ r' hnear' (by omega) (by omega)
      · cases hmore
    · exact (Follows.result stop).sim r r' hnear'

theorem follows_commaItems {close : Punctuator} {item : Parser α} (hreads : Reads 0 item)
    (hitem : c.Follows 1 item item) (done : List α) :
    c.FollowsLoop 1 (commaItems close item done) (commaItems close item done) := by
  refine FollowsLoop.of_turn (fun done n => (reads_commaItems hreads n done).shrinks) ?_ done
  intro n n' ih done ts ts' hnear hn hn'
  have hrest (n : Nat) (x : α) : Shrinks (do
      if ← eat .comma then commaItems close item (x :: done) n else pure (x :: done).reverse) := by
    refine (reads_eat rfl).shrinks.bind fun more => ?_
    split
    · exact (reads_commaItems hreads n _).shrinks
    · exact shrinks_result _
  cases hnear with
  | cut => exact sim_inside (Nat.le_refl 1) (reads_commaItems hreads _ done).shrinks
  | @cons t t' ts ts' kind last whole part rest =>
    have hfront : beginsWith close (t' :: ts') = beginsWith close (t :: ts) :=
      (front_beginsWith close).cons kind
    unfold commaItems
    simp only [run_ahead]
    rw [hfront]
    have hnear := Near.cons kind last whole part rest
    split
    · exact (Follows.result _).sim _ _ hnear
    · refine Sim.bind (hitem.sim _ _ hnear) (hrest n) fun x r r' hr hnear' => ?_
      have hle := (hreads _ _).length_add_le hr
      have hle' := hnear.length_le_of hnear' hle
      exact sim_more _ (reads_commaItems hreads n _).shrinks (ih _) hnear' (by omega) (by omega)

theorem follows_bracketed {opening closing : Punctuator} {item : Parser α}
    (hreads : Reads 0 item) (hitem : c.Follows 1 item item) :
    c.Follows b (bracketed opening closing item) (bracketed opening closing item) := by
  refine (follows_expect opening).bind fun _ => ?_
  refine (((follows_commaItems hreads hitem []).mono (Nat.le_add_left 1 b)).bindInside ?_ ?_).budget
  · exact fun items => (follows_expect closing).bind fun _ => .result items
  · intro items ts x r hr
    obtain ⟨_, s, hclose, hresult⟩ := run_bind_ok hr
    cases hresult
    exact length_of_expect hclose

theorem follows_params : c.Follows b params params :=
  follows_bracketed (reads_ident.zero) follows_ident

theorem follows_arrowParams : c.Follows b arrowParams arrowParams := by
  refine .of_front reads_arrowParams fun t t' ts ts' hkind => ?_
  simp only [kindAt_cons, hkind]
  split
  · exact .bind .skip fun _ => .result _
  · exact follows_params

theorem follows_statementsToBrace {statement : Parser Stmt} (hreads : Reads 1 statement)
    (hs : c.Follows 0 statement statement) (done : List Stmt) :
    c.FollowsLoop 0 (statementsToBrace statement done) (statementsToBrace statement done) := by
  have hloop (n : Nat) (done : List Stmt) : Shrinks (statementsToBrace statement done n) :=
    shrinks_statementsToBrace hreads.zero done n
  refine FollowsLoop.of_turn (fun done n => hloop n done) ?_ done
  intro n n' ih done ts ts' hnear hn hn'
  have hturn (n : Nat) : Shrinks (do
      if atEnd (← ahead) then unexpected
      else
        let s ← statement
        statementsToBrace statement (s :: done) n : Parser (List Stmt)) := by
    refine shrinks_ahead fun ts => ?_
    split
    · exact fun _ _ _ _ hr => absurd hr unexpected_ne_ok
    · exact hreads.shrinks.bind fun s => hloop n (s :: done)
  unfold statementsToBrace
  refine Sim.bind ((follows_eat .closeBrace).sim ts ts' hnear) (fun closed => ?_) ?_
  · split
    · exact shrinks_result _
    · exact hturn n
  · intro closed r r' hr hnear'
    split
    · exact (Follows.result _).sim r r' hnear'
    · have hle : r.length ≤ ts.length := shrinks_eat _ _ _ _ _ hr
      have hle' := hnear.length_le_of hnear' hle
      cases hnear' with
      | cut =>
        simp only [run_ahead]
        split
        · exact Sim.of_ne_ok fun _ => unexpected_ne_ok
        · exact sim_cut ((hreads _ _).advances.bind fun s => hloop n _)
      | @cons t t' ts ts' kind last whole part rest =>
        have hend : atEnd (t' :: ts') = atEnd (t :: ts) := by
          unfold atEnd
          rw [kindAt_cons, kindAt_cons, kind]
        simp only [run_ahead, hend]
        split
        · exact Sim.of_ne_ok fun _ => unexpected_ne_ok
        · have hnear' := Near.cons kind last whole part rest
          refine Sim.bind (hs.sim _ _ hnear') (fun s => hloop n _) fun s u u' hu hnear'' => ?_
          have hlt := (hreads _ _).length_add_le hu
          have hlt' := hnear'.length_lt hnear'' hlt
          exact ih _ u u' hnear'' (by omega) (by omega)

theorem follows_block {statement : Parser Stmt} (hreads : Reads 1 statement)
    (hs : c.Follows 0 statement statement) : c.Follows 0 (block statement) (block statement) :=
  (follows_expect .openBrace).bind fun _ => (follows_statementsToBrace hreads hs []).budget

theorem follows_plainMembers (e : Expr) :
    c.FollowsLoop 0 (plainMembers e) (plainMembers e) := by
  refine FollowsLoop.of_turn (fun e n => (reads_plainMembers n e).shrinks) ?_ e
  intro n n' ih e ts ts' hnear hn hn'
  have hmember (n : Nat) (name : String) :
      Shrinks (plainMembers (.member e (.string name) false) n) :=
    (reads_plainMembers n _).shrinks
  refine sim_more _ ?_ ?_ hnear hn hn'
  · exact reads_propertyName.shrinks.bind (hmember n)
  · intro r r' hnear hn hn'
    refine Sim.bind (follows_propertyName.sim r r' hnear) (hmember n) fun name s s' hs hnear' => ?_
    have hle := reads_propertyName.shrinks _ _ _ _ hs
    have hle' := hnear.length_le_of hnear' hle
    exact ih _ s s' hnear' (by omega) (by omega)

/-! ## Looking further ahead -/

section Ahead
variable {ctx : ParseContext}

theorem afterClose_cons (d : Nat) (t : Token) (ts : List Token) :
    afterClose d (t :: ts) = match t.kind with
      | .eof => none
      | .punctuator p =>
        if p.isOpen then afterClose (d + 1) ts
        else if p.isClose then
          match d with
          | 0 => none
          | 1 => some ts
          | d + 2 => afterClose (d + 1) ts
        else afterClose d ts
      | _ => afterClose d ts :=
  afterClose.eq_def d (t :: ts)

theorem afterClose_drop {d : Nat} (hk : (∃ w, kindAt ts = .word w) ∨ kindAt ts = .punctuator .comma) :
    afterClose d ts = afterClose d (ts.drop 1) := by
  cases ts with
  | nil => rcases hk with ⟨w, hk⟩ | hk <;> cases hk
  | cons t ts =>
    rw [kindAt_cons] at hk
    rw [List.drop_one, List.tail_cons, afterClose_cons]
    rcases hk with ⟨w, hk⟩ | hk <;> rw [hk]
    rfl

/-- There are no brackets in a list of names. -/
theorem afterClose_names {d fuel : Nat} {done names : List String}
    (h : commaItems .closeParen ident done fuel ctx ts = .ok (names, r)) :
    afterClose d ts = afterClose d r := by
  induction fuel generalizing done ts with
  | zero =>
    cases h
    rfl
  | succ fuel ih =>
    unfold commaItems at h
    rw [run_ahead] at h
    split at h
    · cases h
      rfl
    · obtain ⟨x, s, hx, h⟩ := run_bind_ok h
      obtain ⟨hk, rfl⟩ := run_ident_ok hx
      rw [afterClose_drop (.inl ⟨x, hk⟩)]
      rw [run_eat_bind] at h
      split at h
      · rename_i hcomma
        rw [afterClose_drop (.inr (kindAt_of_beginsWith hcomma))]
        exact ih h
      · cases h
        rfl

/-- Parameters end at the bracket that closes the one in front. -/
theorem afterClose_params {names : List String} (h : params ctx ts = .ok (names, r)) :
    kindAt ts = .punctuator .openParen ∧ afterClose 0 ts = some r := by
  obtain ⟨_, s, hs, h⟩ := run_bind_ok h
  obtain ⟨hopen, rfl⟩ := run_expect_ok hs
  obtain ⟨fuel, s, hs, h⟩ := run_bind_ok h
  cases hs
  obtain ⟨items, s, hs, h⟩ := run_bind_ok h
  obtain ⟨_, s', hs', h⟩ := run_bind_ok h
  obtain ⟨hclose, rfl⟩ := run_expect_ok hs'
  cases h
  refine ⟨hopen, ?_⟩
  have hne : kindAt ts ≠ .eof := by rw [hopen]; nofun
  have hne' : kindAt s ≠ .eof := by rw [hclose]; nofun
  obtain ⟨t, ts, rfl, ht⟩ := exists_cons_of_kindAt hne
  obtain ⟨t', s, rfl, ht'⟩ := exists_cons_of_kindAt hne'
  have hopen' : afterClose 0 (t :: ts) = afterClose 1 ts := by
    rw [afterClose_cons, ht, hopen]
    rfl
  have hclose' : afterClose 1 (t' :: s) = some s := by
    rw [afterClose_cons, ht', hclose]
    rfl
  exact hopen'.trans ((afterClose_names hs).trans hclose')

/-- A bracket that is closed in the part is closed in the text, at the same place. -/
theorem Near.afterClose (h : c.Near ts ts') {d : Nat} (hr : afterClose d ts' = some r') :
    ∃ r, Parser.afterClose d ts = some r ∧ c.Near r r' := by
  induction h generalizing d with
  | cut =>
    have hend := c.kindAt_ending
    unfold Parser.afterClose at hr
    split at hr
    · cases hr
    · rename_i t rest hcons
      rw [hcons, kindAt_cons] at hend
      rw [hend] at hr
      cases hr
  | @cons t t' ts ts' kind last whole part rest ih =>
    rw [afterClose_cons, kind] at hr
    rw [afterClose_cons]
    split at hr
    · cases hr
    · split at hr
      · rw [if_pos (by assumption)]
        exact ih hr
      · rw [if_neg (by assumption)]
        split at hr
        · rw [if_pos (by assumption)]
          split at hr
          · cases hr
          · cases hr
            exact ⟨_, rfl, rest⟩
          · exact ih hr
        · rw [if_neg (by assumption)]
          exact ih hr
    · exact ih hr

end Ahead

/-- Whether `async` stands in front of a function with an arrow. -/
def asyncAhead (ts : List Token) : Bool :=
  beginsWithWord ["async"] ts && (beginsWith .openParen (ts.drop 1) || beginsWith .arrow (ts.drop 2))

theorem withoutAsync_eq (ts : List Token) :
    withoutAsync ts = if asyncAhead ts then ts.drop 1 else ts :=
  rfl

theorem kindAt_of_asyncAhead (h : asyncAhead ts = true) : kindAt ts = .word "async" := by
  obtain ⟨w, hw, hk⟩ := kindAt_of_beginsWithWord (Bool.and_eq_true_iff.mp h).1
  rw [hk, List.mem_singleton.mp hw]

theorem Near.drop_one (h : c.Near ts ts') (hk : kindAt ts' ≠ .eof) :
    c.Near (ts.drop 1) (ts'.drop 1) := by
  cases h with
  | cut => exact absurd c.kindAt_ending hk
  | cons _ _ _ _ rest => exact rest

theorem Near.of_asyncAhead (h : c.Near ts ts') (ht : asyncAhead ts' = true) :
    asyncAhead ts = true := by
  obtain ⟨hw, hnext⟩ := Bool.and_eq_true_iff.mp ht
  refine Bool.and_eq_true_iff.mpr ⟨h.of_front_drop (i := 0) (front_beginsWithWord _) hw, ?_⟩
  refine Bool.or_eq_true_iff.mpr ((Bool.or_eq_true_iff.mp hnext).imp ?_ ?_)
  · exact h.of_front_drop (front_beginsWith _)
  · exact h.of_front_drop (front_beginsWith _)

theorem Near.asyncAhead_eq (h : c.Near ts ts') (hlen : 2 + c.behind.length < ts.length) :
    asyncAhead ts' = asyncAhead ts := by
  unfold asyncAhead
  rw [h.front_drop (i := 1) (front_beginsWith _) (by omega),
    h.front_drop (i := 2) (front_beginsWith _) (by omega)]
  congr 1
  exact h.front_drop (i := 0) (front_beginsWithWord _) (by omega)

/-- Behind a token that cannot be the last one of the part, the part goes on as the text does. -/
theorem Near.front_drop_one (h : c.Near ts ts') {k : TokenKind} (hk : kindAt ts' = k)
    (hne : k ≠ .eof) (hstands : k.stands = false) {test : List Token → Bool} (ht : Front test) :
    test (ts'.drop 1) = test (ts.drop 1) := by
  cases h with
  | cut => exact absurd (hk.symm.trans c.kindAt_ending) hne
  | cons kind last _ _ rest =>
    rw [kindAt_cons, kind] at hk
    cases rest with
    | cut =>
      rw [← hk, last rfl] at hstands
      cases hstands
    | cons kind' => exact ht.cons kind'

/-- A function with an arrow that starts in the part starts in the text too. -/
theorem Near.of_startsArrow (h : c.Near ts ts') (ht : startsArrow ts' = true) :
    startsArrow ts = true := by
  unfold startsArrow at ht ⊢
  split at ht
  · rename_i name hk
    obtain ⟨harrow, hname⟩ := Bool.and_eq_true_iff.mp ht
    have hk : kindAt ts = .word name := h.kindAt_of (i := 0) nofun hk
    rw [hk]
    exact Bool.and_eq_true_iff.mpr ⟨h.of_front_drop (front_beginsWith _) harrow, hname⟩
  · rename_i hk
    have hk : kindAt ts = .punctuator .openParen := h.kindAt_of (i := 0) nofun hk
    rw [hk]
    split at ht
    · rename_i rest' hclose
      obtain ⟨rest, hclose, hrest⟩ := h.afterClose hclose
      simp only [hclose]
      exact hrest.of_front_drop (i := 0) (front_beginsWith _) ht
    · cases ht
  · cases ht

/-- So does one behind `async`: an arrow cannot be the last token of the part. -/
theorem Near.of_startsArrow_withoutAsync (h : c.Near ts ts')
    (ht : startsArrow (withoutAsync ts') = true) : startsArrow (withoutAsync ts) = true := by
  rw [withoutAsync_eq] at ht ⊢
  by_cases hasync' : asyncAhead ts' = true
  · rw [if_pos hasync'] at ht
    rw [if_pos (h.of_asyncAhead hasync')]
    exact (h.drop_one (by rw [kindAt_of_asyncAhead hasync']; nofun)).of_startsArrow ht
  · rw [if_neg hasync'] at ht
    have hstarts := h.of_startsArrow ht
    by_cases hasync : asyncAhead ts = true
    · have hk : kindAt ts = .word "async" := kindAt_of_asyncAhead hasync
      have hstarts' := hstarts
      unfold startsArrow at ht
      have hk' : kindAt ts' = .word "async" := by
        rcases h.kindAt_drop_or 0 with hk' | hk'
        · exact hk'.trans hk
        · rw [show kindAt ts' = .eof from hk'] at ht
          cases ht
      rw [hk'] at ht
      have harrow' := (Bool.and_eq_true_iff.mp ht).1
      have harrow := h.of_front_drop (front_beginsWith .arrow) harrow'
      have hnext := (Bool.and_eq_true_iff.mp hasync).2
      rw [show beginsWith .openParen (ts.drop 1) = false by
        unfold beginsWith; rw [kindAt_of_beginsWith harrow]; rfl, Bool.false_or,
        ← List.drop_drop (i := 1) (j := 1)] at hnext
      refine absurd (Bool.and_eq_true_iff.mpr ⟨?_, Bool.or_eq_true_iff.mpr (.inr ?_)⟩) hasync'
      · unfold beginsWithWord
        rw [hk']
        rfl
      · rw [← List.drop_drop (i := 1) (j := 1),
          (h.drop_one (by rw [hk']; nofun)).front_drop_one (kindAt_of_beginsWith harrow') nofun rfl
            (front_beginsWith _)]
        exact hnext
    · rwa [if_neg hasync]

end Cut
end Stencil.Script.Parser
