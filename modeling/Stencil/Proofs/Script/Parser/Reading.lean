import Stencil.Script.Parse

/-! # What parsers read

A parser that succeeds has read a **phrase** of the tokens in front of it and leaves the tokens
behind the phrase as they are (`Parser.Reads`).  A phrase never holds the token `eof`, and its last
token is neither a point nor an arrow, behind which something else has to stand (`Piece`).  The
braces in it are balanced: each one that opens in it is closed in it (`Balanced`).  Every parser of a
grammar reads phrases if those of the inner level do; by induction on the level, **statements and
expressions are phrases** (`reads_grammar`), and none of them is empty.
-/
namespace Stencil.Script

/-! ## Phrases -/

/-- Whether a piece may end with a token of this kind. -/
def TokenKind.stands : TokenKind → Bool
  | .eof | .punctuator .dot | .punctuator .arrow => false
  | _ => true

/-- Whether a token of this kind leaves the braces as they are and is not `eof`. -/
def TokenKind.isInner : TokenKind → Bool
  | .eof | .punctuator .openBrace | .punctuator .closeBrace => false
  | _ => true

/-- Whether a token of this kind is a phrase by itself. -/
def TokenKind.isPhrase (k : TokenKind) : Bool :=
  k.isInner && k.stands

/-- How many braces are open behind a token, if it closes none that is not open. -/
def TokenKind.braces? : TokenKind → Nat → Option Nat
  | .punctuator .openBrace, n => some (n + 1)
  | .punctuator .closeBrace, 0 => none
  | .punctuator .closeBrace, n + 1 => some n
  | _, n => some n

theorem TokenKind.braces?_of_isInner {k : TokenKind} (h : k.isInner = true) (n : Nat) :
    k.braces? n = some n := by
  cases k with
  | punctuator p => cases p <;> first | rfl | cases h
  | _ => rfl

/-- How many braces are open behind the tokens, if they close none that is not open. -/
def braces? (ts : List Token) (n : Nat) : Option Nat :=
  ts.foldlM (fun n t => t.kind.braces? n) n

theorem braces?_cons (t : Token) (ts : List Token) (n : Nat) :
    braces? (t :: ts) n = (t.kind.braces? n).bind (braces? ts) :=
  rfl

theorem braces?_append (u v : List Token) (n : Nat) :
    braces? (u ++ v) n = (braces? u n).bind (braces? v) :=
  List.foldlM_append

/-- Each brace that opens among the tokens is closed among them, and no other brace is. -/
def Balanced (u : List Token) : Prop :=
  ∀ n, braces? u n = some n

theorem Balanced.append {u v : List Token} (hu : Balanced u) (hv : Balanced v) :
    Balanced (u ++ v) := by
  intro n
  rw [braces?_append, hu n]
  exact hv n

theorem Balanced.single {t : Token} (h : t.kind.isInner = true) : Balanced [t] := by
  intro n
  rw [braces?_cons, TokenKind.braces?_of_isInner h]
  rfl

/-- The punctuators leave the braces as they are, the first of them in front of the second. -/
def Punctuator.Encloses (opening closing : Punctuator) : Prop :=
  ∀ n, ∃ m, (TokenKind.punctuator opening).braces? n = some m ∧
    (TokenKind.punctuator closing).braces? m = some n

theorem Balanced.enclose {opening closing : Punctuator} (h : opening.Encloses closing)
    {t t' : Token} (ht : t.kind = .punctuator opening) (ht' : t'.kind = .punctuator closing)
    {u : List Token} (hu : Balanced u) : Balanced (t :: (u ++ [t'])) := by
  intro n
  obtain ⟨m, hm, hn⟩ := h n
  rw [braces?_cons, ht, hm, Option.bind_some, braces?_append, hu m, Option.bind_some, braces?_cons,
    ht', hn]
  rfl

/-- Tokens that a parser can have read, but for what it says of braces. -/
structure Piece (u : List Token) : Prop where
  noEof : ∀ t ∈ u, t.kind ≠ .eof
  stands : ∀ t ∈ u.getLast?, t.kind.stands = true

/-- Tokens that a parser can have read. -/
structure Phrase (u : List Token) : Prop extends Piece u where
  balanced : Balanced u

theorem TokenKind.ne_eof_of_stands {k : TokenKind} (h : k.stands = true) : k ≠ .eof := by
  rintro rfl
  cases h

theorem TokenKind.ne_eof_of_isInner {k : TokenKind} (h : k.isInner = true) : k ≠ .eof := by
  rintro rfl
  cases h

theorem TokenKind.ne_eof_of_isPhrase {k : TokenKind} (h : k.isPhrase = true) : k ≠ .eof :=
  ne_eof_of_isInner (Bool.and_eq_true_iff.mp h).1

/-- Any tokens but `eof` may stand in front of a piece that is not empty. -/
theorem Piece.append_right {u v : List Token} (hu : ∀ t ∈ u, t.kind ≠ .eof) (hv : Piece v)
    (hne : v ≠ []) : Piece (u ++ v) := by
  refine ⟨fun t ht => ?_, fun t ht => ?_⟩
  · rcases List.mem_append.mp ht with ht | ht
    · exact hu t ht
    · exact hv.noEof t ht
  · rcases hlast : v.getLast? with _ | x
    · exact absurd (List.getLast?_eq_none_iff.mp hlast) hne
    · rw [List.getLast?_append, hlast, Option.some_or] at ht
      exact hv.stands t (hlast ▸ ht)

theorem Piece.single {t : Token} (h : t.kind.stands = true) : Piece [t] := by
  refine ⟨List.forall_mem_singleton.mpr (TokenKind.ne_eof_of_stands h), fun s hs => ?_⟩
  rw [← Option.some.inj hs]
  exact h

namespace Phrase
variable {t : Token} {u v : List Token}

theorem nil : Phrase [] :=
  ⟨⟨List.forall_mem_nil _, fun _ h => nomatch h⟩, fun _ => rfl⟩

theorem single (h : t.kind.isPhrase = true) : Phrase [t] := by
  obtain ⟨hinner, hstands⟩ := Bool.and_eq_true_iff.mp h
  exact ⟨Piece.single hstands, Balanced.single hinner⟩

theorem append (hu : Phrase u) (hv : Phrase v) : Phrase (u ++ v) := by
  refine ⟨?_, hu.balanced.append hv.balanced⟩
  by_cases hne : v = []
  · rw [hne, List.append_nil]
    exact hu.toPiece
  · exact Piece.append_right hu.noEof hv.toPiece hne

/-- What has to stand in front of something else may stand in front of a phrase. -/
theorem cons (ht : t.kind.isInner = true) (hv : Phrase v) (hne : v ≠ []) : Phrase (t :: v) := by
  have hfront : ∀ s ∈ [t], s.kind ≠ .eof :=
    List.forall_mem_singleton.mpr (TokenKind.ne_eof_of_isInner ht)
  exact ⟨Piece.append_right hfront hv.toPiece hne, (Balanced.single ht).append hv.balanced⟩

/-- A phrase between brackets. -/
theorem enclose {opening closing : Punctuator} (h : opening.Encloses closing)
    (hclosing : (TokenKind.punctuator closing).stands = true) {t' : Token}
    (ht : t.kind = .punctuator opening) (ht' : t'.kind = .punctuator closing) (hu : Phrase u) :
    Phrase (t :: (u ++ [t'])) := by
  refine ⟨Piece.append_right (u := t :: u) ?_ (Piece.single (ht' ▸ hclosing)) ?_,
    hu.balanced.enclose h ht ht'⟩
  · refine List.forall_mem_cons.mpr ⟨?_, hu.noEof⟩
    rw [ht]
    nofun
  · exact List.cons_ne_nil _ _

end Phrase

namespace Parser
variable {α β : Type} {ctx : ParseContext} {ts r : List Token} {n m : Nat}

/-! ## Runs of parsers -/

theorem map_eq_ok {x : Except ScriptError α} {f : α → β} {b : β} :
    x.map f = .ok b ↔ ∃ a, x = .ok a ∧ f a = b := by
  cases x with
  | error e => exact ⟨nofun, fun ⟨_, h, _⟩ => nomatch h⟩
  | ok a =>
    constructor
    · intro h
      exact ⟨a, rfl, Except.ok.inj h⟩
    · rintro ⟨_, ha, rfl⟩
      cases ha
      rfl

theorem bind_eq_ok {x : Except ScriptError α} {f : α → Except ScriptError β} {b : β} :
    (x >>= f) = .ok b ↔ ∃ a, x = .ok a ∧ f a = .ok b := by
  cases x with
  | error e => exact ⟨nofun, fun ⟨_, h, _⟩ => nomatch h⟩
  | ok a =>
    constructor
    · exact fun h => ⟨a, rfl, h⟩
    · rintro ⟨_, ha, h⟩
      cases ha
      exact h

theorem run_bind (p : Parser α) (f : α → Parser β) :
    (p >>= f) ctx ts = match p ctx ts with
      | .ok (a, r) => f a ctx r
      | .error e => .error e := by
  change (ReaderT.bind p f) ctx ts = _
  simp only [ReaderT.bind, bind, StateT.bind, Except.bind]
  cases p ctx ts <;> rfl

/-- A sequence of two parsers succeeds if both do. -/
theorem run_bind_ok {p : Parser α} {f : α → Parser β} {b : β} (h : (p >>= f) ctx ts = .ok (b, r)) :
    ∃ a s, p ctx ts = .ok (a, s) ∧ f a ctx s = .ok (b, r) := by
  rw [run_bind] at h
  rcases hp : p ctx ts with e | ⟨a, s⟩
  · rw [hp] at h
    cases h
  · rw [hp] at h
    exact ⟨a, s, rfl, h⟩

theorem run_bind_of_ok {p : Parser α} {f : α → Parser β} {a : α} (h : p ctx ts = .ok (a, r)) :
    (p >>= f) ctx ts = f a ctx r := by
  rw [run_bind, h]

theorem fail_ne_ok {message : String} {x : α × List Token} :
    (fail message : Parser α) ctx ts ≠ .ok x := by
  intro h
  cases ts <;> cases h

theorem unexpected_ne_ok {x : α × List Token} : (unexpected : Parser α) ctx ts ≠ .ok x :=
  fail_ne_ok

theorem offset_ok (ctx : ParseContext) (ts : List Token) : ∃ o, offset ctx ts = .ok (o, ts) := by
  cases ts <;> exact ⟨_, rfl⟩

theorem run_eat (p : Punctuator) :
    eat p ctx ts = .ok (if beginsWith p ts then (true, ts.drop 1) else (false, ts)) := by
  have h : eat p ctx ts =
      (if beginsWith p ts then (do skip; pure true) else pure false : Parser Bool) ctx ts := rfl
  rw [h]
  split <;> rfl

theorem run_eat_bind (p : Punctuator) (f : Bool → Parser α) :
    (eat p >>= f) ctx ts =
      if beginsWith p ts then (do skip; f true) ctx ts else f false ctx ts := by
  rw [run_bind, run_eat]
  by_cases h : beginsWith p ts = true
  · rw [if_pos h, if_pos h]
    rfl
  · rw [if_neg h, if_neg h]

theorem run_lift (x : Except ScriptError α) : (liftM x : Parser α) ctx ts = x.map (·, ts) := by
  cases x <;> rfl

/-! ## Tokens in front -/

theorem kindAt_of_beginsWith {p : Punctuator} (h : beginsWith p ts = true) :
    kindAt ts = .punctuator p := by
  unfold beginsWith at h
  split at h
  · rw [of_decide_eq_true h]
    assumption
  · cases h

theorem beginsWith_of_kindAt {p : Punctuator} (h : kindAt ts = .punctuator p) :
    beginsWith p ts = true := by
  unfold beginsWith
  rw [h]
  exact beq_self_eq_true p

theorem kindAt_of_beginsWithWord {words : List String} (h : beginsWithWord words ts = true) :
    ∃ w ∈ words, kindAt ts = .word w := by
  unfold beginsWithWord at h
  split at h
  · exact ⟨_, List.contains_iff_mem.mp h, by assumption⟩
  · cases h

/-- A declaration starts with a word. -/
theorem kindAt_of_declAhead (h : (declAhead? ts).isSome = true) : ∃ w, kindAt ts = .word w := by
  unfold declAhead? at h
  split at h
  · exact ⟨_, by assumption⟩
  · cases h

/-- A token that is not `eof` stands in front of others. -/
theorem exists_cons_of_kindAt (h : kindAt ts ≠ .eof) :
    ∃ t s, ts = t :: s ∧ t.kind = kindAt ts := by
  cases ts with
  | nil => exact absurd rfl h
  | cons t s => exact ⟨t, s, rfl, rfl⟩

theorem exists_cons_of_punctuator {p : Punctuator} (h : kindAt ts = .punctuator p) :
    ∃ t s, ts = t :: s ∧ t.kind = .punctuator p := by
  have hne : kindAt ts ≠ .eof := by
    rw [h]
    nofun
  obtain ⟨t, s, hts, ht⟩ := exists_cons_of_kindAt hne
  exact ⟨t, s, hts, ht.trans h⟩

/-! ## Reading phrases -/

/-- If the parser succeeds on the tokens, it has read a phrase of at least `n` of them. -/
def ReadsAt (n : Nat) (p : Parser α) (ctx : ParseContext) (ts : List Token) : Prop :=
  ∀ a r, p ctx ts = .ok (a, r) → ∃ u, ts = u ++ r ∧ n ≤ u.length ∧ Phrase u

/-- The parser reads phrases of at least `n` tokens. -/
def Reads (n : Nat) (p : Parser α) : Prop :=
  ∀ ctx ts, ReadsAt n p ctx ts

namespace ReadsAt
variable {p : Parser α} {f : α → Parser β}

theorem mono (h : ReadsAt n p ctx ts) (hmn : m ≤ n) : ReadsAt m p ctx ts := by
  intro a r hr
  obtain ⟨u, hu, hn, hphrase⟩ := h a r hr
  exact ⟨u, hu, Nat.le_trans hmn hn, hphrase⟩

theorem length_add_le {a : α} (h : ReadsAt n p ctx ts) (hr : p ctx ts = .ok (a, r)) :
    r.length + n ≤ ts.length := by
  obtain ⟨u, rfl, hn, -⟩ := h a r hr
  rw [List.length_append]
  omega

theorem of_ne_ok (h : ∀ x, p ctx ts ≠ .ok x) : ReadsAt n p ctx ts :=
  fun _ _ hr => absurd hr (h _)

theorem fail {message : String} : ReadsAt n (Parser.fail message : Parser α) ctx ts :=
  of_ne_ok fun _ => fail_ne_ok

theorem unexpected : ReadsAt n (Parser.unexpected : Parser α) ctx ts :=
  fail

theorem result (a : α) : ReadsAt 0 (pure a) ctx ts := by
  intro b r hr
  cases hr
  exact ⟨[], rfl, Nat.le_refl _, Phrase.nil⟩

/-- One after the other, two parsers read as much as both together. -/
theorem add (hp : ReadsAt n p ctx ts)
    (hf : ∀ a r, p ctx ts = .ok (a, r) → ReadsAt m (f a) ctx r) :
    ReadsAt (n + m) (p >>= f) ctx ts := by
  intro b r hr
  obtain ⟨a, s, hps, hfs⟩ := run_bind_ok hr
  obtain ⟨u, rfl, hu, hpu⟩ := hp a s hps
  obtain ⟨v, rfl, hv, hpv⟩ := hf a s hps b r hfs
  refine ⟨u ++ v, (List.append_assoc u v r).symm, ?_, hpu.append hpv⟩
  rw [List.length_append]
  omega

theorem zero (h : ReadsAt n p ctx ts) : ReadsAt 0 p ctx ts :=
  h.mono (Nat.zero_le n)

/-- What a second parser reads does not matter. -/
theorem bind (hp : ReadsAt n p ctx ts)
    (hf : ∀ a r, p ctx ts = .ok (a, r) → ReadsAt 0 (f a) ctx r) : ReadsAt n (p >>= f) ctx ts :=
  hp.add hf

theorem bindRight (hp : ReadsAt 0 p ctx ts)
    (hf : ∀ a r, p ctx ts = .ok (a, r) → ReadsAt n (f a) ctx r) : ReadsAt n (p >>= f) ctx ts :=
  (hp.add hf).mono (Nat.le_of_eq (Nat.zero_add n).symm)

theorem look {f : List Token → Parser β} (h : ReadsAt n (f ts) ctx ts) :
    ReadsAt n (ahead >>= f) ctx ts :=
  h

/-- The first token is read, if it is a phrase. -/
theorem skip {k : TokenKind} (h : kindAt ts = k) (hk : k.isPhrase = true) :
    ReadsAt 1 Parser.skip ctx ts := by
  intro a r hr
  cases hr
  obtain ⟨t, s, rfl, ht⟩ := exists_cons_of_kindAt (h ▸ TokenKind.ne_eof_of_isPhrase hk)
  exact ⟨[t], rfl, Nat.le_refl _, Phrase.single (by rw [ht, h]; exact hk)⟩

/-- The first token is read with what has to stand behind it. -/
theorem skip_bind {k : TokenKind} {p : Parser β} (h : kindAt ts = k) (hk : k.isInner = true)
    (hp : Reads (n + 1) p) : ReadsAt (n + 2) (do Parser.skip; p) ctx ts := by
  intro b r hr
  obtain ⟨t, s, rfl, ht⟩ := exists_cons_of_kindAt (h ▸ TokenKind.ne_eof_of_isInner hk)
  obtain ⟨u, hu, hn, hphrase⟩ := hp ctx s b r hr
  refine ⟨t :: u, by rw [hu, List.cons_append], Nat.succ_le_succ hn, hphrase.cons ?_ ?_⟩
  · rw [ht, h]
    exact hk
  · rintro rfl
    exact absurd hn (Nat.not_succ_le_zero n)

end ReadsAt

namespace Reads
variable {p : Parser α} {f : α → Parser β}

theorem mono (h : Reads n p) (hmn : m ≤ n) : Reads m p :=
  fun ctx ts => (h ctx ts).mono hmn

theorem result (a : α) : Reads 0 (pure a) :=
  fun _ _ => .result a

theorem unexpected : Reads n (Parser.unexpected : Parser α) :=
  fun _ _ => .unexpected

theorem fail {message : String} : Reads n (Parser.fail message : Parser α) :=
  fun _ _ => .fail

theorem zero (h : Reads n p) : Reads 0 p :=
  h.mono (Nat.zero_le n)

theorem add (hp : Reads n p) (hf : ∀ a, Reads m (f a)) : Reads (n + m) (p >>= f) :=
  fun ctx ts => (hp ctx ts).add fun a r _ => hf a ctx r

theorem bind (hp : Reads n p) (hf : ∀ a, Reads 0 (f a)) : Reads n (p >>= f) :=
  hp.add hf

theorem bindRight (hp : Reads 0 p) (hf : ∀ a, Reads n (f a)) : Reads n (p >>= f) :=
  (hp.add hf).mono (Nat.le_of_eq (Nat.zero_add n).symm)

/-- The value that a parser gives does not matter. -/
theorem map (hp : Reads n p) (g : α → β) : Reads n (g <$> p) :=
  hp.bind fun a => result (g a)

/-- What is read may depend on the tokens ahead. -/
theorem look {f : List Token → Parser β} (h : ∀ ctx ts, ReadsAt n (f ts) ctx ts) :
    Reads n (ahead >>= f) :=
  h

end Reads

/-! ## Single tokens -/

theorem reads_eat {p : Punctuator} (hp : (TokenKind.punctuator p).isPhrase = true) :
    Reads 0 (eat p) := by
  refine Reads.look fun ctx ts => ?_
  split
  · rename_i h
    have hskip : ReadsAt 1 skip ctx ts := .skip (kindAt_of_beginsWith h) hp
    exact (hskip.zero).bind fun _ _ _ => .result true
  · exact .result false

theorem reads_eatWord (w : String) : Reads 0 (eatWord w) := by
  refine Reads.look fun ctx ts => ?_
  split
  · rename_i h
    obtain ⟨_, -, hk⟩ := kindAt_of_beginsWithWord h
    have hskip : ReadsAt 1 skip ctx ts := .skip hk rfl
    exact (hskip.zero).bind fun _ _ _ => .result true
  · exact .result false

/-- A punctuator that must come first is read, and it is the first token. -/
theorem run_expect_ok {p : Punctuator} {x : Unit} (h : expect p ctx ts = .ok (x, r)) :
    kindAt ts = .punctuator p ∧ r = ts.drop 1 := by
  obtain ⟨b, s, hb, hs⟩ := run_bind_ok h
  rw [run_eat] at hb
  split at hb
  · rename_i hp
    cases hb
    cases hs
    exact ⟨kindAt_of_beginsWith hp, rfl⟩
  · cases hb
    exact absurd hs unexpected_ne_ok

theorem reads_expect {p : Punctuator} (hp : (TokenKind.punctuator p).isPhrase = true) :
    Reads 1 (expect p) := by
  intro ctx ts x r hr
  obtain ⟨hk, rfl⟩ := run_expect_ok hr
  have hskip : ReadsAt 1 skip ctx ts := .skip hk hp
  exact hskip () _ rfl

theorem reads_ident : Reads 1 ident := by
  refine Reads.look fun ctx ts => ?_
  split
  · split
    · exact .unexpected
    · exact (ReadsAt.skip (by assumption) rfl).bind fun _ _ _ => .result _
  · exact .unexpected

/-- A name that is read is the first token. -/
theorem run_ident_ok {x : String} (h : ident ctx ts = .ok (x, r)) :
    kindAt ts = .word x ∧ r = ts.drop 1 := by
  obtain ⟨ts', s, hs, h⟩ := run_bind_ok h
  cases hs
  cases hk : kindAt ts with
  | word name =>
    rw [hk] at h
    dsimp only at h
    split at h
    · exact absurd h unexpected_ne_ok
    · cases h
      exact ⟨rfl, rfl⟩
  | _ =>
    rw [hk] at h
    exact absurd h unexpected_ne_ok

theorem reads_propertyName : Reads 1 propertyName := by
  refine Reads.look fun ctx ts => ?_
  split
  · exact (ReadsAt.skip (by assumption) rfl).bind fun _ _ _ => .result _
  · exact .unexpected

theorem reads_endStatement : Reads 0 endStatement :=
  (reads_eat rfl).bind fun _ => .result ()

theorem reads_budget : Reads 0 budget :=
  fun ctx ts => show ReadsAt 0 (pure (ctx.size + 1)) ctx ts from .result _

theorem reads_lift (x : Except ScriptError α) : Reads 0 (liftM x : Parser α) := by
  cases x with
  | ok a => exact .result a
  | error e => exact fun _ _ _ _ hr => nomatch hr

theorem reads_offset : Reads 0 offset := by
  intro ctx ts a r hr
  obtain ⟨o, ho⟩ := offset_ok ctx ts
  rw [ho] at hr
  cases hr
  have hresult : ReadsAt 0 (pure a) ctx ts := .result a
  exact hresult a ts rfl

/-! ## Lists between brackets -/

theorem reads_commaItems {close : Punctuator} {item : Parser α} (hitem : Reads 0 item)
    (fuel : Nat) : ∀ done, Reads 0 (commaItems close item done fuel) := by
  induction fuel with
  | zero => exact fun _ => .result _
  | succ fuel ih =>
    intro done
    refine Reads.look fun ctx ts => ?_
    split
    · exact .result _
    · refine (hitem.bind fun x => (reads_eat rfl).bind fun more => ?_) ctx ts
      split
      · exact ih _
      · exact .result _

theorem reads_bracketed {opening closing : Punctuator} {item : Parser α}
    (h : opening.Encloses closing) (hclosing : (TokenKind.punctuator closing).stands = true)
    (hitem : Reads 0 item) : Reads 1 (bracketed opening closing item) := by
  intro ctx ts a r hr
  obtain ⟨_, s, hopen, hr⟩ := run_bind_ok hr
  obtain ⟨hk, rfl⟩ := run_expect_ok hopen
  obtain ⟨fuel, s, hfuel, hrun⟩ := run_bind_ok hr
  cases hfuel
  obtain ⟨items, s', hitems, hend⟩ := run_bind_ok hrun
  obtain ⟨_, s'', hclose, hresult⟩ := run_bind_ok hend
  obtain ⟨hk', rfl⟩ := run_expect_ok hclose
  cases hresult
  obtain ⟨u, hu, -, hphrase⟩ := reads_commaItems hitem _ [] _ _ _ _ hitems
  obtain ⟨t, s, rfl, ht⟩ := exists_cons_of_punctuator hk
  obtain ⟨t', s', rfl, ht'⟩ := exists_cons_of_punctuator hk'
  have hs : s = u ++ t' :: s' := hu
  refine ⟨t :: (u ++ [t']), ?_, Nat.le_add_left 1 _,
    hphrase.enclose h hclosing ht ht'⟩
  rw [hs, List.cons_append, List.append_assoc]
  rfl

theorem reads_params : Reads 1 params :=
  reads_bracketed (fun _ => ⟨_, rfl, rfl⟩) rfl (reads_ident.zero)

/-- Statements up to a closing brace are a phrase, and the brace follows. -/
theorem run_statementsToBrace_ok {statement : Parser Stmt} (hs : Reads 0 statement) {fuel : Nat}
    {done body : List Stmt} (h : statementsToBrace statement done fuel ctx ts = .ok (body, r)) :
    ∃ u t, ts = u ++ t :: r ∧ t.kind = .punctuator .closeBrace ∧ Phrase u := by
  induction fuel generalizing done ts with
  | zero => exact absurd h unexpected_ne_ok
  | succ fuel ih =>
    rw [statementsToBrace, run_eat_bind] at h
    split at h
    · rename_i hclose
      cases h
      have hk := kindAt_of_beginsWith hclose
      obtain ⟨t, s, rfl, ht⟩ := exists_cons_of_punctuator hk
      exact ⟨[], t, rfl, ht, Phrase.nil⟩
    · obtain ⟨_, _, hahead, h⟩ := run_bind_ok h
      cases hahead
      split at h
      · exact absurd h unexpected_ne_ok
      · obtain ⟨s, ts', hstatement, hrest⟩ := run_bind_ok h
        obtain ⟨u, rfl, -, hu⟩ := hs _ _ _ _ hstatement
        obtain ⟨v, t, rfl, ht, hv⟩ := ih hrest
        exact ⟨u ++ v, t, by rw [List.append_assoc], ht, hu.append hv⟩

theorem reads_block {statement : Parser Stmt} (hs : Reads 0 statement) :
    Reads 1 (block statement) := by
  intro ctx ts body r hr
  obtain ⟨_, s, hopen, hr⟩ := run_bind_ok hr
  obtain ⟨hk, rfl⟩ := run_expect_ok hopen
  obtain ⟨fuel, s, hfuel, hr⟩ := run_bind_ok hr
  cases hfuel
  obtain ⟨u, t', hu, ht', hphrase⟩ := run_statementsToBrace_ok hs hr
  obtain ⟨t, s, rfl, ht⟩ := exists_cons_of_punctuator hk
  have hs : s = u ++ t' :: r := hu
  refine ⟨t :: (u ++ [t']), ?_, Nat.le_add_left 1 _,
    hphrase.enclose (fun _ => ⟨_, rfl, rfl⟩) rfl ht ht'⟩
  rw [hs, List.cons_append, List.append_assoc]
  rfl

/-! ## Parsers of one level -/

theorem reads_plainMembers (fuel : Nat) : ∀ e, Reads 0 (plainMembers e fuel) := by
  induction fuel with
  | zero => exact fun e => .result e
  | succ fuel ih =>
    intro e ctx ts a r hr
    rw [plainMembers, run_eat_bind] at hr
    split at hr
    · rename_i hdot
      have hname : Reads 1 (do
          let name ← propertyName
          plainMembers (.member e (.string name) false) fuel) :=
        reads_propertyName.bind fun name => ih _
      have hk := kindAt_of_beginsWith hdot
      exact (ReadsAt.skip_bind hk rfl hname).zero a r hr
    · have hresult : ReadsAt 0 (pure e) ctx ts := .result e
      exact hresult a r hr

/-- The parsers of a level read phrases that are not empty. -/
structure Grammar.Reads (g : Grammar) : Prop where
  statement : Parser.Reads 1 g.statement
  assignment : Parser.Reads 1 g.assignment
  unary : Parser.Reads 1 g.unary
  binary : ∀ min, Parser.Reads 1 (g.binary min)

theorem reads_arrowParams : Reads 1 arrowParams := by
  refine Reads.look fun ctx ts => ?_
  split
  · exact (ReadsAt.skip (by assumption) rfl).bind fun _ _ _ => .result _
  · exact reads_params ctx ts

theorem isPhrase_of_operator {k : TokenKind} {power : Nat} {joint : Joint}
    (h : operator? k = some (power, joint)) : k.isPhrase = true := by
  cases k with
  | punctuator p => cases p <;> first | rfl | cases h
  | eof => cases h
  | _ => rfl

theorem isPhrase_of_unaryOp {k : TokenKind} {op : UnaryOp} (h : unaryOp? k = some op) :
    k.isPhrase = true := by
  cases k with
  | punctuator p => cases p <;> first | rfl | cases h
  | eof => cases h
  | _ => rfl

theorem isPhrase_of_updateOp {k : TokenKind} {op : UpdateOp} (h : updateOp? k = some op) :
    k.isPhrase = true := by
  unfold updateOp? at h
  split at h <;> first | rfl | cases h

theorem isPhrase_of_assignOp {k : TokenKind} {op : AssignOp} (h : assignOp? k = some op) :
    k.isPhrase = true := by
  unfold assignOp? at h
  split at h <;> first | rfl | cases h

section Level
variable {g : Grammar} (hg : g.Reads)
include hg

theorem reads_moreItems (fuel : Nat) : ∀ done, Reads 0 (moreItems g.assignment done fuel) := by
  induction fuel with
  | zero => exact fun _ => .result _
  | succ fuel ih =>
    intro done
    refine (reads_eat rfl).bind fun more => ?_
    split
    · exact (hg.assignment.zero).bind fun e => ih (e :: done)
    · exact .result _

theorem reads_expression : Reads 1 (expression g.assignment) := by
  refine hg.assignment.bind fun first => Reads.look fun ctx ts => ?_
  split
  · refine (reads_budget.bind fun fuel => ?_) ctx ts
    exact (reads_moreItems hg fuel [first]).bind fun items => .result _
  · exact .result first

theorem reads_operators (min : Nat) (fuel : Nat) :
    ∀ left, Reads 0 (operators g.binary min left fuel) := by
  induction fuel with
  | zero => exact fun left => .result left
  | succ fuel ih =>
    intro left
    refine Reads.look fun ctx ts => ?_
    split
    · exact .result left
    · rename_i power joint hop
      split
      · exact .result left
      · have hphrase := isPhrase_of_operator hop
        refine ((ReadsAt.skip rfl hphrase).zero).bind fun _ s _ => ?_
        refine (((hg.binary _).zero).bind fun r => ?_) ctx s
        exact ih (joint.join left r)

theorem reads_args : Reads 1 (args g) :=
  reads_bracketed (fun _ => ⟨_, rfl, rfl⟩) rfl (hg.assignment.zero)

theorem reads_functionRest (name : Option String) : Reads 1 (functionRest g name) := by
  refine reads_params.bind fun ps => ?_
  refine ((reads_block (hg.statement.zero)).zero).bind ?_
  exact fun body => .result _

theorem reads_objectEntry : Reads 1 (objectEntry g) := by
  refine Reads.look fun ctx ts => ?_
  have hrest (key : String) : Reads 0 (do
      if ← eat .colon then pure (key, ← g.assignment)
      else if beginsWith .openParen (← ahead) then
        pure (key, .function (← functionRest g (some key)))
      else pure (key, .name key) : Parser (String × Expr)) := by
    refine (reads_eat rfl).bind fun colon => ?_
    split
    · exact hg.assignment.zero.bind fun e => .result _
    · refine Reads.look fun ctx ts => ?_
      split
      · exact ((reads_functionRest hg _).zero.bind fun f => .result _) ctx ts
      · exact .result _
  split
  iterate 3
    exact (ReadsAt.skip (by assumption) rfl).bind fun _ s _ => hrest _ ctx s
  exact .of_ne_ok fun x hx => by
    obtain ⟨_, _, h, -⟩ := run_bind_ok hx
    exact unexpected_ne_ok h

theorem reads_functionExpr : Reads 1 (functionExpr g) := by
  refine Reads.look fun ctx ts => ?_
  split
  · refine (reads_ident.zero.map _).bindRight (fun name => ?_) ctx ts
    exact (reads_functionRest hg name).bind fun f => .result _
  · exact ((Reads.result none).bindRight fun name =>
      (reads_functionRest hg name).bind fun f => .result _) ctx ts

theorem readsAt_wordExpr {w : String} (h : kindAt ts = .word w) :
    ReadsAt 1 (wordExpr g w) ctx ts := by
  have hskip : ReadsAt 1 skip ctx ts := .skip h rfl
  unfold wordExpr
  split
  iterate 4
    exact hskip.bind fun _ _ _ => .result _
  · exact hskip.bind fun _ s _ => (reads_functionExpr hg).zero ctx s
  · change ReadsAt 1 (if _ then _ else _) ctx ts
    split
    · rename_i hasync
      obtain ⟨_, -, hk⟩ := kindAt_of_beginsWithWord (Bool.and_eq_true_iff.mp hasync).2
      refine hskip.bind fun _ s hs => ?_
      cases hs
      exact (ReadsAt.skip hk rfl).zero.bind fun _ s _ => (reads_functionExpr hg).zero ctx s
    · split
      · exact .fail
      · exact hskip.bind fun _ _ _ => .result _

theorem reads_primary : Reads 1 (primary g) := by
  refine Reads.look fun ctx ts => ?_
  split
  · exact (ReadsAt.skip (by assumption) rfl).bind fun _ _ _ => .result _
  · exact (ReadsAt.skip (by assumption) rfl).bind fun _ _ _ => .result _
  · rename_i chunks hk
    refine (reads_offset ctx ts).bindRight fun start s hs => ?_
    obtain ⟨o, ho⟩ := offset_ok ctx ts
    rw [ho] at hs
    cases hs
    exact (ReadsAt.skip hk rfl).bind fun _ s _ => ((reads_lift _).bind fun _ => .result _) ctx s
  · exact readsAt_wordExpr hg (by assumption)
  · refine (ReadsAt.skip (by assumption) rfl).bind fun _ s _ => ?_
    refine ((reads_expression hg).zero.bind fun e => ?_) ctx s
    exact (reads_expect rfl).zero.bind fun _ => .result e
  · refine Reads.bind (reads_bracketed (fun _ => ⟨_, rfl, rfl⟩) rfl hg.assignment.zero) ?_ ctx ts
    exact fun items => .result _
  · refine Reads.bind (reads_bracketed (fun _ => ⟨_, rfl, rfl⟩) rfl (reads_objectEntry hg).zero)
      ?_ ctx ts
    exact fun entries => .result _
  · exact .unexpected

theorem reads_indexedMember (e : Expr) (optional : Bool) : Reads 1 (indexedMember g e optional) :=
  (reads_expression hg).bind fun _ => (reads_expect rfl).zero.bind fun _ => .result _

theorem reads_optionalLink (e : Expr) : Reads 1 (optionalLink g e) := by
  refine Reads.look fun ctx ts => ?_
  split
  · exact ((reads_args hg).bind fun arguments => .result _) ctx ts
  · refine ((reads_eat rfl).bindRight fun bracket => ?_) ctx ts
    split
    · exact reads_indexedMember hg e true
    · exact reads_propertyName.bind fun name => .result _

theorem reads_link {e : Expr} {p : Parser Expr} (h : link? g e (kindAt ts) = some p) :
    ReadsAt 1 p ctx ts := by
  unfold link? at h
  split at h <;> cases h
  · rename_i hk
    exact (ReadsAt.skip_bind (n := 0) hk rfl
      (reads_propertyName.bind fun name => .result _)).mono (Nat.le_succ 1)
  · rename_i hk
    exact (ReadsAt.skip hk rfl).bind fun _ s _ => (reads_optionalLink hg e).zero ctx s
  · rename_i hk
    exact (ReadsAt.skip hk rfl).bind fun _ s _ => (reads_indexedMember hg e false).zero ctx s
  · exact ((reads_args hg).bind fun arguments => .result _) ctx ts
  · exact .unexpected

theorem reads_chain (fuel : Nat) : ∀ e, Reads 0 (chain g e fuel) := by
  induction fuel with
  | zero => exact fun e => .result e
  | succ fuel ih =>
    intro e
    refine Reads.look fun ctx ts => ?_
    split
    · rename_i link hlink
      exact (reads_link hg hlink).zero.bind fun e s _ => ih e ctx s
    · exact .result e

theorem reads_newArgs : Reads 0 (newArgs g) := by
  refine Reads.look fun ctx ts => ?_
  split
  · exact (reads_args hg).zero ctx ts
  · exact .result []

theorem reads_construction : Reads 1 (construction g) := by
  refine (reads_primary hg).bind fun e => reads_budget.bind fun fuel => ?_
  exact (reads_plainMembers fuel e).bind fun callee => (reads_newArgs hg).bind fun _ => .result _

theorem reads_head : Reads 1 (head g) := by
  refine (reads_eatWord "new").bindRight fun isNew => ?_
  split
  · exact reads_construction hg
  · exact reads_primary hg

theorem reads_callMember : Reads 1 (callMember g) :=
  (reads_head hg).bind fun first => reads_budget.bind fun fuel => reads_chain hg fuel first

theorem reads_postfixed : Reads 1 (postfixed g) := by
  refine reads_offset.bindRight fun start => (reads_callMember hg).bind fun e => ?_
  refine Reads.look fun ctx ts => ?_
  split
  · exact .result e
  · rename_i op hop
    split
    · exact (ReadsAt.skip rfl (isPhrase_of_updateOp hop)).zero.bind fun _ _ _ => .result _
    · exact .of_ne_ok nofun

theorem reads_prefixed : Reads 1 (prefixed g) := by
  refine Reads.look fun ctx ts => ?_
  split
  · exact reads_postfixed hg ctx ts
  · rename_i op hop
    obtain ⟨o, ho⟩ := offset_ok ctx ts
    refine (reads_offset ctx ts).bindRight fun start s hs => ?_
    rw [ho] at hs
    cases hs
    refine (ReadsAt.skip rfl (isPhrase_of_updateOp hop)).bind fun _ s _ => ?_
    refine (hg.unary.zero.bind fun target => ?_) ctx s
    split
    · exact .result _
    · exact fun _ _ => .of_ne_ok nofun

theorem reads_unaryBody : Reads 1 (unaryBody g) := by
  refine Reads.look fun ctx ts => ?_
  split
  · rename_i op hop
    refine (ReadsAt.skip rfl (isPhrase_of_unaryOp hop)).bind fun _ s _ => ?_
    exact (hg.unary.zero.bind fun e => .result _) ctx s
  · refine ((reads_eatWord "await").bindRight fun isAwait => ?_) ctx ts
    split
    · exact hg.unary.bind fun e => .result _
    · exact reads_prefixed hg

theorem reads_binaryBody (min : Nat) : Reads 1 (binaryBody g min) :=
  (reads_unaryBody hg).bind fun left => reads_budget.bind fun fuel =>
    reads_operators hg min fuel left

theorem reads_conditional : Reads 1 (conditional g) := by
  refine (hg.binary 0).bind fun test => (reads_eat rfl).bind fun more => ?_
  split
  · refine hg.assignment.zero.bind fun consequent => (reads_expect rfl).zero.bind fun _ => ?_
    exact hg.assignment.zero.bind fun alternative => .result _
  · exact .result test

theorem reads_arrowRest (ps : List String) : Reads 1 (arrowRest g ps) := by
  have hbody : Reads 1 (do
      if beginsWith .openBrace (← ahead) then
        pure (.function (.mk none ps (.block (← block g.statement)) true))
      else pure (.function (.mk none ps (.expr (← g.assignment)) true)) : Parser Expr) := by
    refine Reads.look fun ctx ts => ?_
    split
    · exact ((reads_block hg.statement.zero).bind fun body => .result _) ctx ts
    · exact (hg.assignment.bind fun e => .result _) ctx ts
  intro ctx ts a r hr
  obtain ⟨x, s, hs, hr⟩ := run_bind_ok hr
  obtain ⟨hk, rfl⟩ := run_expect_ok hs
  exact ((ReadsAt.skip_bind hk rfl hbody).mono (Nat.le_succ 1)) a r hr

theorem reads_arrowFunction : Reads 2 (arrowFunction g) :=
  reads_arrowParams.add fun ps => reads_arrowRest hg ps

theorem reads_assigned : Reads 1 (assigned g) := by
  refine reads_offset.bindRight fun start => (reads_conditional hg).bind fun target => ?_
  refine Reads.look fun ctx ts => ?_
  split
  · exact .result target
  · rename_i op hop
    split
    · refine (ReadsAt.skip rfl (isPhrase_of_assignOp hop)).zero.bind fun _ s _ => ?_
      exact (hg.assignment.zero.bind fun e => .result _) ctx s
    · exact .of_ne_ok nofun

theorem reads_assignmentBody : Reads 1 (assignmentBody g) := by
  refine Reads.look fun ctx ts => ?_
  dsimp only
  split
  · intro a r hr
    have hr : arrowFunction g ctx (withoutAsync ts) = .ok (a, r) := hr
    unfold withoutAsync at hr
    split at hr
    · rename_i hasync
      obtain ⟨_, -, hk⟩ := kindAt_of_beginsWithWord (Bool.and_eq_true_iff.mp hasync).1
      have hrest : ReadsAt 3 (do skip; arrowFunction g) ctx ts :=
        .skip_bind hk rfl (reads_arrowFunction hg)
      exact hrest.mono (Nat.le_add_left 1 2) a r hr
    · exact (reads_arrowFunction hg).mono (Nat.le_succ 1) ctx ts a r hr
  · exact reads_assigned hg ctx ts

theorem reads_declarators (kind : DeclKind) (fuel : Nat) :
    ∀ done, Reads 0 (declarators g kind done fuel) := by
  induction fuel with
  | zero => exact fun _ => .result _
  | succ fuel ih =>
    intro done
    have hmore (name : String) (init : Option Expr) : Reads 0 (do
        if kind = .constDecl && init.isNone then fail "Missing initializer in const declaration"
        else if ← eat .comma then declarators g kind ((name, init) :: done) fuel
        else pure ((name, init) :: done).reverse : Parser _) := by
      split
      · exact .fail
      · refine (reads_eat rfl).bind fun more => ?_
        split
        · exact ih _
        · exact .result _
    refine reads_ident.zero.bind fun name => (reads_eat rfl).bind fun assigned => ?_
    split
    · exact (hg.assignment.zero.map some).bind fun init => hmore name init
    · exact (Reads.result none).bind fun init => hmore name init

theorem readsAt_declaration (kind : DeclKind) {w : String} (h : kindAt ts = .word w) :
    ReadsAt 1 (declaration g kind) ctx ts := by
  refine (ReadsAt.skip h rfl).bind fun _ s _ => ?_
  exact (reads_budget.bind fun fuel => (reads_declarators hg kind fuel []).bind fun _ => .result _) ctx s

theorem reads_namedFunction : Reads 1 (namedFunction g) :=
  reads_ident.bind fun name => (reads_functionRest hg name).zero.bind fun _ => .result _

theorem reads_parenthesized : Reads 1 (parenthesized g) :=
  (reads_expect rfl).bind fun _ => (reads_expression hg).zero.bind fun e =>
    (reads_expect rfl).zero.bind fun _ => .result e

theorem reads_exprUnless (p : Punctuator) : Reads 0 (exprUnless g p) := by
  refine Reads.look fun ctx ts => ?_
  split
  · exact .result none
  · exact ((reads_expression hg).zero.map some) ctx ts

/-- Where a loop over items or keys starts, it reads the words that show it. -/
theorem readsAt_iteration (h : startsIteration ts = true) : ReadsAt 3 (iteration g) ctx ts := by
  unfold startsIteration at h
  obtain ⟨h, hlink⟩ := Bool.and_eq_true_iff.mp h
  obtain ⟨hdecl, -⟩ := Bool.and_eq_true_iff.mp h
  obtain ⟨w, hw⟩ := kindAt_of_declAhead hdecl
  obtain ⟨link, -, hlink⟩ := kindAt_of_beginsWithWord hlink
  refine (ReadsAt.skip hw rfl).add (m := 2) fun _ s hs => ?_
  cases hs
  refine (reads_ident ctx _).add (m := 1) fun name s hs => ?_
  obtain ⟨-, rfl⟩ := run_ident_ok hs
  refine ReadsAt.look ((ReadsAt.skip (k := .word link) ?_ rfl).bind fun _ s _ => ?_)
  · rw [← hlink]
    exact congrArg kindAt List.drop_drop
  refine ((reads_expression hg).zero.bind fun source => ?_) ctx s
  exact (reads_expect rfl).zero.bind fun _ => hg.statement.zero.bind fun body => .result _

theorem reads_loopInit : Reads 0 (loopInit g) := by
  refine Reads.look fun ctx ts => ?_
  split
  · exact .result none
  · split
    · rename_i kind hdecl
      obtain ⟨w, hw⟩ := kindAt_of_declAhead (Option.isSome_iff_exists.mpr ⟨_, hdecl⟩)
      exact (readsAt_declaration hg kind hw).zero.bind fun _ _ _ => .result _
    · exact ((reads_expression hg).zero.map _) ctx ts

theorem reads_countedLoop : Reads 1 (countedLoop g) := by
  refine (reads_loopInit hg).bindRight fun init => (reads_expect rfl).bind fun _ => ?_
  refine (reads_exprUnless hg .semicolon).bind fun test => (reads_expect rfl).zero.bind fun _ => ?_
  refine (reads_exprUnless hg .closeParen).bind fun update => (reads_expect rfl).zero.bind fun _ => ?_
  exact hg.statement.zero.bind fun body => .result _

theorem reads_forStatement : Reads 1 (forStatement g) := by
  refine (reads_expect rfl).bind fun _ => Reads.look fun ctx ts => ?_
  split
  · exact (readsAt_iteration hg (by assumption)).zero
  · exact (reads_countedLoop hg).zero ctx ts

theorem reads_exportStatement : Reads 1 (exportStatement g) := by
  refine (reads_eatWord "default").bindRight fun isDefault => ?_
  split
  · exact hg.assignment.bind fun value => reads_endStatement.bind fun _ => .result _
  · refine hg.statement.bind fun inner => ?_
    split
    · exact .result _
    · exact .result _
    · exact .fail

theorem reads_expressionStatement : Reads 1 (expressionStatement g) :=
  (reads_expression hg).bind fun _ => reads_endStatement.bind fun _ => .result _

theorem reads_returnValue : Reads 0 (returnValue g) := by
  refine Reads.look fun ctx ts => ?_
  split
  · exact .result none
  · exact ((reads_expression hg).zero.map some) ctx ts

theorem readsAt_keywordStatement {w : String} {p : Parser Stmt}
    (h : keywordStatement? g w = some p) (hw : kindAt ts = .word w) : ReadsAt 1 p ctx ts := by
  have hskip {q : Parser Stmt} (hq : Reads 0 q) : ReadsAt 1 (do skip; q) ctx ts :=
    (ReadsAt.skip hw rfl).bind fun _ s _ => hq ctx s
  unfold keywordStatement? at h
  split at h <;> cases h
  iterate 3
    exact (readsAt_declaration hg _ hw).bind fun s r _ =>
      (reads_endStatement.bind fun _ => .result s) ctx r
  · exact hskip (reads_namedFunction hg).zero
  · exact hskip ((reads_returnValue hg).bind fun value => reads_endStatement.bind fun _ => .result _)
  · refine hskip ((reads_parenthesized hg).zero.bind fun test => hg.statement.zero.bind fun c => ?_)
    refine (reads_eatWord "else").bind fun more => ?_
    split
    · exact (hg.statement.zero.map some).bind fun alternative => .result _
    · exact (Reads.result none).bind fun alternative => .result _
  · exact hskip ((reads_parenthesized hg).zero.bind fun test =>
      hg.statement.zero.bind fun body => .result _)
  · refine hskip (hg.statement.zero.bind fun body => (reads_eatWord "while").bind fun more => ?_)
    split
    · exact (reads_parenthesized hg).zero.bind fun test => reads_endStatement.bind fun _ => .result _
    · exact .unexpected
  · exact hskip (reads_forStatement hg).zero
  · exact hskip (reads_endStatement.bind fun _ => .result _)
  · exact hskip (reads_endStatement.bind fun _ => .result _)
  · exact hskip ((reads_expression hg).zero.bind fun value => reads_endStatement.bind fun _ => .result _)
  · exact hskip (reads_exportStatement hg).zero

theorem reads_statementBody : Reads 1 (statementBody g) := by
  refine Reads.look fun ctx ts => ?_
  split
  · exact (ReadsAt.skip (by assumption) rfl).bind fun _ _ _ => .result _
  · exact ((reads_block hg.statement.zero).bind fun body => .result _) ctx ts
  · rename_i w hw
    split
    · exact readsAt_keywordStatement hg (by assumption) hw
    · split
      · rename_i hasync
        obtain ⟨_, -, hk⟩ := kindAt_of_beginsWithWord (Bool.and_eq_true_iff.mp hasync).2
        refine (ReadsAt.skip hw rfl).bind fun _ s hs => ?_
        cases hs
        exact (ReadsAt.skip hk rfl).zero.bind fun _ s _ => (reads_namedFunction hg).zero ctx s
      · change ReadsAt 1 (if _ then _ else _) ctx ts
        split
        · exact reads_namedFunction hg ctx ts
        · exact reads_expressionStatement hg ctx ts
  · exact reads_expressionStatement hg ctx ts

end Level

/-- **Statements and expressions are phrases** of the tokens, and none of them is empty. -/
theorem reads_grammar (depth : Nat) : (grammar depth).Reads := by
  induction depth with
  | zero => exact ⟨.fail, .fail, .fail, fun _ => .fail⟩
  | succ depth ih =>
    exact ⟨reads_statementBody ih, reads_assignmentBody ih, reads_unaryBody ih,
      reads_binaryBody ih⟩

end Parser
end Stencil.Script
