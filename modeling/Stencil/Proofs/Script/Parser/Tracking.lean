import Stencil.Proofs.Script.Parser.Reading
import Stencil.Proofs.Script.Parser.Stepper
import Stencil.Proofs.Script.Token.Lexing

/-! # Steppers keep pace with parsers

A stepper **tracks** a parser if it does from the cursor on what the parser does with the tokens from
there on (`Tracks`).  Either both give the same value, and the parser leaves the tokens from the new
cursor on, or both fail with the same error.  The stepper does not crash.  Wherever it stops, a token
comes next, and as many levels are open as before, unless it failed because there were too many.

This is asked of texts that end in `eof`.  Steppers in sequence track parsers in sequence
(`Tracks.bind`), and a token may be passed if it is not `eof` (`TracksAt.bump`).  A loop is out of
turns only behind the last token: it tracks a loop as long as there are as many turns as tokens
(`TracksWithin`), and what it reads in one turn is missing in the next one (`TracksWithin.turn`).
-/
namespace Stencil.Script.Stepper
open Stencil.Script.Parser (kindAt beginsWith beginsWithWord kindAt_of_beginsWith
  kindAt_of_beginsWithWord Reads)

variable {α β : Type}

/-! ## Runs of steppers -/

theorem run_bind (p : Stepper α) (f : α → Stepper β) (text : Text) (c : Cursor) :
    (p >>= f) text c = match p text c with
      | some (.ok a, c') => f a text c'
      | some (.error e, c') => some (.error e, c')
      | none => none := by
  change (ReaderT.bind p f) text c = _
  simp only [ReaderT.bind, bind, ExceptT.bind, ExceptT.mk, StateT.bind]
  rcases p text c with _ | ⟨_ | _, _⟩ <;> rfl

theorem run_observing (p : Stepper α) (text : Text) (c : Cursor) :
    (observing p) text c = (p text c).map fun (result, c') => (.ok result, c') := by
  -- the part of it in which an error is caught
  let q : Stepper (Except ScriptError α) := do
    let a ← p
    pure (.ok a)
  have hq : q text c = (p text c).map fun (result, c') => (result.map .ok, c') := by
    refine (run_bind _ _ text c).trans ?_
    rcases p text c with _ | ⟨_ | _, _⟩ <;> rfl
  change ExceptT.tryCatch (q text) (fun e => (pure (.error e) : Stepper _) text) c = _
  simp only [ExceptT.tryCatch, ExceptT.mk, bind, StateT.bind, hq]
  rcases p text c with _ | ⟨_ | _, _⟩ <;> rfl

theorem run_ofExcept (x : Except ScriptError α) (text : Text) (c : Cursor) :
    (ofExcept x : Stepper α) text c = some (x, c) := by
  cases x <;> rfl

theorem run_bump {text : Text} {c : Cursor} (h : c.pos < text.tokens.length) :
    bump text c = some (.ok (), ⟨c.pos + 1, c.depth⟩) := by
  change (if c.pos < text.tokens.length then
      (modify fun c : Cursor => { c with pos := c.pos + 1 }) else crash : Stepper Unit) text c = _
  rw [if_pos h]
  rfl

/-- The tokens from the cursor on. -/
def Text.ahead (text : Text) (c : Cursor) : List Token :=
  text.tokens.drop c.pos

theorem run_advance {text : Text} {c : Cursor} (h : c.pos < text.tokens.length) :
    advance text c = some (.ok (kindAt (text.ahead c)), ⟨c.pos + 1, c.depth⟩) := by
  change (do
    if c.pos < text.tokens.length then bump
    pure (kindAt (text.ahead c)) : Stepper TokenKind) text c = _
  rw [if_pos h, run_bind, run_bump h]
  rfl

/-- A level that may be opened is left at the end, whether or not what happens in it fails. -/
theorem run_nested (p : Stepper α) {text : Text} {c : Cursor} (h : c.depth < maxNesting) :
    nested p text c = match p text ⟨c.pos, c.depth + 1⟩ with
      | some (result, ⟨pos, depth + 1⟩) => some (result, ⟨pos, depth⟩)
      | _ => none := by
  have henter : enter text c = some (.ok (), ⟨c.pos, c.depth + 1⟩) := by
    change (if maxNesting < c.depth + 1 then fail "Expression nested too deeply" else pure () :
      Stepper Unit) text ⟨c.pos, c.depth + 1⟩ = _
    rw [if_neg (Nat.not_lt.mpr h)]
    rfl
  rw [nested, run_bind, henter]
  dsimp only
  rw [run_bind, run_observing]
  rcases p text ⟨c.pos, c.depth + 1⟩ with _ | ⟨result, ⟨pos, _ | depth⟩⟩
  · rfl
  · rfl
  · exact run_ofExcept result text ⟨pos, depth⟩

/-! ## Keeping pace -/

/-- What a parser is told of a text. -/
def Text.context (text : Text) : ParseContext :=
  ⟨text.base, text.shorthand, text.tokens.length⟩

/-- The last token of the text is `eof`. -/
def Text.Ends (text : Text) : Prop :=
  ∃ init t, text.tokens = init ++ [t] ∧ t.kind = .eof

theorem Text.Ends.length_pos {text : Text} (h : text.Ends) : 0 < text.tokens.length := by
  obtain ⟨init, t, htokens, -⟩ := h
  rw [htokens, List.length_append]
  exact Nat.succ_pos _

/-- The tokens of a source end in `eof`. -/
theorem ends_of_tokenize {source : String} {tokens : List Token}
    (h : tokenize source = .ok tokens) (base : Nat) (shorthand : Bool) :
    (Text.mk tokens base shorthand).Ends := by
  obtain ⟨q, -, hlexed⟩ := tokenize_eq_ok.mp h
  obtain ⟨init, o, hinit, -⟩ := hlexed.exists_init
  exact ⟨init, _, hinit, rfl⟩

/-- The cursor stands on a token of a text that ends in `eof`, with so many levels open. -/
structure Stands (depth : Nat) (text : Text) (c : Cursor) : Prop where
  ends : text.Ends
  lt : c.pos < text.tokens.length
  depth_eq : c.depth = depth

/-- The depth at which an error leaves the cursor: that of before, or one more if there was no
further level to open. -/
def Abandons (before : Nat) (e : ScriptError) (after : Nat) : Prop :=
  after = before ∨
    after = before + 1 ∧ ∃ o, e = .syntaxAt "Expression nested too deeply" o

/-- A stepper does from the cursor on what a parser does with the tokens from there on.  It does not
crash, and where it stops a token comes next. -/
inductive Agrees (text : Text) (c : Cursor) :
    Option (Except ScriptError α × Cursor) → Except ScriptError (α × List Token) → Prop
  | done {a : α} {c' : Cursor} (le : c.pos ≤ c'.pos) (lt : c'.pos < text.tokens.length)
      (depth : c'.depth = c.depth) : Agrees text c (some (.ok a, c')) (.ok (a, text.ahead c'))
  | failed {e : ScriptError} {c' : Cursor} (lt : c'.pos < text.tokens.length)
      (depth : Abandons c.depth e c'.depth) : Agrees text c (some (.error e, c')) (.error e)

/-- What holds of a place further on, with as many levels open, holds of the place before. -/
theorem Agrees.of_moved {text : Text} {c c' : Cursor} {x : Option (Except ScriptError α × Cursor)}
    {y : Except ScriptError (α × List Token)} (h : Agrees text c' x y) (hle : c.pos ≤ c'.pos)
    (hdepth : c'.depth = c.depth) : Agrees text c x y := by
  cases h with
  | failed lt depth => exact .failed lt (hdepth ▸ depth)
  | done le lt depth => exact .done (Nat.le_trans hle le) lt (depth.trans hdepth)

/-- From the cursor on, the stepper does what the parser does. -/
def TracksAt (p : Stepper α) (q : Parser α) (text : Text) (c : Cursor) : Prop :=
  Agrees text c (p text c) (q text.context (text.ahead c))

/-- With so many levels open, the stepper does what the parser does. -/
def Tracks (depth : Nat) (p : Stepper α) (q : Parser α) : Prop :=
  ∀ text c, Stands depth text c → TracksAt p q text c

variable {depth n : Nat} {text : Text} {c c' : Cursor}

theorem Stands.exists_cons (h : Stands depth text c) :
    ∃ t s, text.ahead c = t :: s := by
  refine List.exists_cons_of_length_pos ?_
  rw [Text.ahead, List.length_drop]
  exact Nat.sub_pos_of_lt h.lt

/-- Behind a token other than `eof` there is one more. -/
theorem Stands.bump (h : Stands depth text c) (hk : kindAt (text.ahead c) ≠ .eof) :
    Stands depth text ⟨c.pos + 1, c.depth⟩ := by
  obtain ⟨init, t, htokens, ht⟩ := h.ends
  refine ⟨h.ends, ?_, h.depth_eq⟩
  refine Nat.lt_of_le_of_ne h.lt fun hlast => hk ?_
  rw [htokens, List.length_append, List.length_singleton] at hlast
  have hpos : c.pos = init.length := Nat.succ_inj.mp hlast
  rw [Text.ahead, htokens, hpos, List.drop_left]
  exact ht

theorem Text.length_ahead_le (h : c.pos ≤ c'.pos) :
    (text.ahead c').length ≤ (text.ahead c).length := by
  simp only [Text.ahead, List.length_drop]
  omega

namespace TracksAt
variable {p p' : Stepper α} {q : Parser α} {f : α → Stepper β} {g : α → Parser β}

theorem of_eq (heq : p text c = p' text c) (hp : TracksAt p' q text c) : TracksAt p q text c := by
  unfold TracksAt
  rw [heq]
  exact hp

theorem result (h : Stands depth text c) (a : α) : TracksAt (pure a) (pure a) text c :=
  .done (Nat.le_refl _) h.lt rfl

theorem error (h : Stands depth text c) (e : ScriptError) :
    TracksAt (throw e : Stepper α) (throw e) text c :=
  .failed h.lt (.inl rfl)

/-- What comes next is asked of the place where the first stepper stops. -/
theorem bind (h : Stands depth text c) (hp : TracksAt p q text c)
    (hf : ∀ a c', q text.context (text.ahead c) = .ok (a, text.ahead c') → c.pos ≤ c'.pos →
      Stands depth text c' → TracksAt (f a) (g a) text c') :
    TracksAt (p >>= f) (q >>= g) text c := by
  unfold TracksAt at hp ⊢
  rw [run_bind, Parser.run_bind]
  generalize p text c = x at hp ⊢
  generalize hq : q text.context (text.ahead c) = y at hp ⊢
  cases hp with
  | failed lt depth => exact .failed lt depth
  | @done a c' le lt hdepth =>
    have hnext := hf a c' hq le ⟨h.ends, lt, hdepth.trans h.depth_eq⟩
    exact Agrees.of_moved hnext le hdepth

theorem andThen (h : Stands depth text c) (hp : TracksAt p q text c)
    (hf : ∀ a, Tracks depth (f a) (g a)) : TracksAt (p >>= f) (q >>= g) text c :=
  hp.bind h fun a c' _ _ hc' => hf a text c' hc'

theorem map (h : Stands depth text c) (hp : TracksAt p q text c) (f : α → β) :
    TracksAt (f <$> p) (f <$> q) text c := by
  rw [map_eq_pure_bind, map_eq_pure_bind]
  exact hp.bind h fun a _ _ _ hc' => result hc' (f a)

theorem look {f : List Token → Stepper β} {g : List Token → Parser β}
    (h : TracksAt (f (text.ahead c)) (g (text.ahead c)) text c) :
    TracksAt (ahead >>= f) (Parser.ahead >>= g) text c :=
  h

theorem lookRight {g : List Token → Parser α} (h : TracksAt p (g (text.ahead c)) text c) :
    TracksAt p (Parser.ahead >>= g) text c :=
  h

theorem bump (h : Stands depth text c) {k : TokenKind} (hk : kindAt (text.ahead c) = k)
    (hne : k ≠ .eof) : TracksAt bump Parser.skip text c := by
  have hahead : text.ahead ⟨c.pos + 1, c.depth⟩ = (text.ahead c).drop 1 := by
    rw [Text.ahead, Text.ahead, List.drop_drop]
  have hdone : Agrees text c (some (.ok (), ⟨c.pos + 1, c.depth⟩))
      (.ok ((), text.ahead ⟨c.pos + 1, c.depth⟩)) :=
    .done (Nat.le_succ _) (h.bump (hk ▸ hne)).lt rfl
  unfold TracksAt
  rw [run_bump h.lt]
  rw [hahead] at hdone
  exact hdone

/-- Behind a token that was passed, the tokens behind it come next. -/
theorem bump_bind {f : Unit → Stepper β} {g : Unit → Parser β} (h : Stands depth text c)
    {k : TokenKind} (hk : kindAt (text.ahead c) = k) (hne : k ≠ .eof)
    (hf : ∀ c', text.ahead c' = (text.ahead c).drop 1 → Stands depth text c' →
      TracksAt (f ()) (g ()) text c') :
    TracksAt (Stepper.bump >>= f) (Parser.skip >>= g) text c := by
  refine (bump h hk hne).bind h fun _ c' hskip _ hc' => hf c' ?_ hc'
  exact (congrArg Prod.snd (Except.ok.inj hskip)).symm

/-- Two words in front of what comes next, such as `async function`. -/
theorem bump_word {words : List String} {p : Stepper β} {q : Parser β} (h : Stands depth text c)
    {w : String} (hw : kindAt (text.ahead c) = .word w)
    (hnext : beginsWithWord words ((text.ahead c).drop 1) = true)
    (hp : ∀ c', Stands depth text c' → TracksAt p q text c') :
    TracksAt (do Stepper.bump; Stepper.bump; p) (do Parser.skip; Parser.skip; q) text c := by
  obtain ⟨w', -, hw'⟩ := kindAt_of_beginsWithWord hnext
  refine bump_bind h hw nofun fun c' hahead hc' => ?_
  exact bump_bind hc' ((congrArg kindAt hahead).trans hw') nofun fun c' _ hc' => hp c' hc'

end TracksAt

namespace Tracks
variable {p : Stepper α} {q : Parser α} {f : α → Stepper β} {g : α → Parser β}

theorem result (a : α) : Tracks depth (pure a) (pure a) :=
  fun _ _ h => .result h a

theorem error (e : ScriptError) : Tracks depth (throw e : Stepper α) (throw e) :=
  fun _ _ h => .error h e

theorem bind (hp : Tracks depth p q) (hf : ∀ a, Tracks depth (f a) (g a)) :
    Tracks depth (p >>= f) (q >>= g) :=
  fun text c h => (hp text c h).andThen h hf

theorem map (hp : Tracks depth p q) (f : α → β) : Tracks depth (f <$> p) (f <$> q) :=
  fun text c h => (hp text c h).map h f

theorem look {f : List Token → Stepper β} {g : List Token → Parser β}
    (h : ∀ text c, Stands depth text c → TracksAt (f (text.ahead c)) (g (text.ahead c)) text c) :
    Tracks depth (ahead >>= f) (Parser.ahead >>= g) :=
  h

end Tracks

/-! ## Single tokens -/

theorem run_offset (h : Stands depth text c) :
    ∃ o, offset text c = some (.ok o, c) ∧
      Parser.offset text.context (text.ahead c) = .ok (o, text.ahead c) := by
  obtain ⟨t, s, hts⟩ := h.exists_cons
  refine ⟨text.offsetAt (text.ahead c), rfl, ?_⟩
  rw [hts]
  rfl

theorem run_fail {o : Nat} (h : offset text c = some (.ok o, c)) (message : String) :
    (fail message : Stepper α) text c = some (.error (.syntaxAt message o), c) := by
  rw [fail, run_bind, h]
  rfl

theorem tracks_offset : Tracks depth offset Parser.offset := by
  intro text c h
  obtain ⟨o, hp, hq⟩ := run_offset h
  unfold TracksAt
  rw [hp, hq]
  exact .done (Nat.le_refl _) h.lt rfl

/-- To ask for an offset moves nothing. -/
theorem TracksAt.offset_bind {f : Nat → Stepper β} {g : Nat → Parser β} (h : Stands depth text c)
    (hf : ∀ o, TracksAt (f o) (g o) text c) :
    TracksAt (offset >>= f) (Parser.offset >>= g) text c := by
  obtain ⟨o, hp, hq⟩ := run_offset h
  have hnext := hf o
  unfold TracksAt at hnext ⊢
  rw [run_bind, hp, Parser.run_bind_of_ok hq]
  exact hnext

theorem tracks_fail (message : String) :
    Tracks depth (fail message : Stepper α) (Parser.fail message) :=
  tracks_offset.bind fun _ => .error _

theorem tracks_unexpected : Tracks depth (unexpected : Stepper α) Parser.unexpected :=
  .look fun text c h => tracks_fail _ text c h

theorem tracks_eat (p : Punctuator) : Tracks depth (eat p) (Parser.eat p) := by
  refine Tracks.look fun text c h => ?_
  split
  · rename_i hp
    exact (TracksAt.bump h (kindAt_of_beginsWith hp) nofun).andThen h fun _ => .result true
  · exact .result h false

theorem tracks_expect (p : Punctuator) : Tracks depth (expect p) (Parser.expect p) := by
  refine (tracks_eat p).bind fun eaten => ?_
  split
  · exact tracks_unexpected
  · exact .result ()

theorem tracks_eatWord (w : String) : Tracks depth (eatWord w) (Parser.eatWord w) := by
  refine Tracks.look fun text c h => ?_
  split
  · rename_i hw
    obtain ⟨_, -, hk⟩ := kindAt_of_beginsWithWord hw
    exact (TracksAt.bump h hk nofun).andThen h fun _ => .result true
  · exact .result h false

theorem tracks_ident : Tracks depth ident Parser.ident := by
  refine Tracks.look fun text c h => ?_
  cases hk : kindAt (text.ahead c) with
  | word name =>
    dsimp only
    split
    · exact tracks_unexpected text c h
    · exact (TracksAt.bump h hk nofun).andThen h fun _ => .result name
  | _ => exact tracks_unexpected text c h

/-- A token that is taken and does not fit is as good as left where it is. -/
theorem run_taking (fitting? : TokenKind → Option α) (h : c.pos < text.tokens.length) :
    taking fitting? text c = (match fitting? (kindAt (text.ahead c)) with
      | some a => do
        bump
        pure a
      | none => unexpected : Stepper α) text c := by
  rw [taking, run_bind, run_advance h]
  dsimp only
  cases fitting? (kindAt (text.ahead c)) with
  | some a =>
    dsimp only
    rw [run_bind, run_bump h]
  | none => rfl

/-- What comes behind a token that was taken. -/
theorem run_taking_bind (fitting? : TokenKind → Option α) (f : α → Stepper β)
    (h : c.pos < text.tokens.length) :
    (taking fitting? >>= f) text c = (match fitting? (kindAt (text.ahead c)) with
      | some a => do
        bump
        f a
      | none => unexpected >>= f : Stepper β) text c := by
  rw [run_bind, run_taking fitting? h]
  cases fitting? (kindAt (text.ahead c)) with
  | some a =>
    dsimp only
    rw [run_bind, run_bind, run_bump h]
    rfl
  | none => exact (run_bind unexpected f text c).symm

theorem tracks_propertyName : Tracks depth propertyName Parser.propertyName := by
  intro text c h
  refine .of_eq (run_taking name? h.lt) (.lookRight ?_)
  cases hk : kindAt (text.ahead c) with
  | word name => exact (TracksAt.bump h hk nofun).andThen h fun _ => .result name
  | _ => exact tracks_unexpected text c h

theorem tracks_endStatement : Tracks depth endStatement Parser.endStatement :=
  (tracks_eat .semicolon).bind fun _ => .result ()

/-! ## Loops -/

/-- The stepper does what the parser does if no more than so many tokens are left. -/
def TracksWithin (depth n : Nat) (p : Stepper α) (q : Parser α) : Prop :=
  ∀ text c, Stands depth text c → (text.ahead c).length ≤ n → TracksAt p q text c

theorem Tracks.within {p : Stepper α} {q : Parser α} (h : Tracks depth p q) :
    TracksWithin depth n p q :=
  fun text c hc _ => h text c hc

namespace TracksWithin
variable {p : Stepper α} {q : Parser α} {f : α → Stepper β} {g : α → Parser β}

/-- A token is left where the cursor stands, so that a loop is never out of turns. -/
theorem zero : TracksWithin depth 0 p q := by
  intro text c h hlength
  obtain ⟨t, s, hts⟩ := h.exists_cons
  rw [hts] at hlength
  exact absurd hlength (Nat.not_succ_le_zero _)

theorem bind (hp : TracksWithin depth n p q) (hf : ∀ a, TracksWithin depth n (f a) (g a)) :
    TracksWithin depth n (p >>= f) (q >>= g) := fun text c h hlength =>
  (hp text c h hlength).bind h fun a c' _ hle hc' =>
    hf a text c' hc' (Nat.le_trans (Text.length_ahead_le hle) hlength)

/-- What is read in a turn is one token less for the next one. -/
theorem turn (hp : Tracks depth p q) (hq : Reads 1 q)
    (hf : ∀ a, TracksWithin depth n (f a) (g a)) :
    TracksWithin depth (n + 1) (p >>= f) (q >>= g) := fun text c h hlength =>
  (hp text c h).bind h fun a c' hrun _ hc' =>
    hf a text c' hc' (Nat.le_of_lt_succ
      (Nat.lt_of_lt_of_le ((hq _ _).length_add_le hrun) hlength))

theorem look {f : List Token → Stepper β} {g : List Token → Parser β}
    (h : ∀ ts, TracksWithin depth n (f ts) (g ts)) :
    TracksWithin depth n (ahead >>= f) (Parser.ahead >>= g) :=
  fun text c hc hlength => h (text.ahead c) text c hc hlength

end TracksWithin

/-- A loop that may turn once for each token has turns enough. -/
theorem tracks_budget {f : Nat → Stepper β} {g : Nat → Parser β}
    (h : ∀ n, TracksWithin depth n (f n) (g n)) :
    Tracks depth (budget >>= f) (Parser.budget >>= g) := by
  intro text c hc
  have hlength : (text.ahead c).length ≤ text.tokens.length + 1 := by
    rw [Text.ahead, List.length_drop]
    omega
  exact h (text.tokens.length + 1) text c hc hlength

theorem tracks_commaItems {close : Punctuator} {item : Stepper α} {item' : Parser α}
    (hitem : Tracks depth item item') (hreads : Reads 1 item') (n : Nat) :
    ∀ done, TracksWithin depth n (commaItems close item done n)
      (Parser.commaItems close item' done n) := by
  induction n with
  | zero => exact fun _ => .zero
  | succ n ih =>
    intro done
    refine TracksWithin.look fun ts => ?_
    split
    · exact (Tracks.result _).within
    · refine .turn hitem hreads fun x => (tracks_eat .comma).within.bind fun more => ?_
      split
      · exact ih _
      · exact (Tracks.result _).within

theorem tracks_bracketed {opening closing : Punctuator} {item : Stepper α} {item' : Parser α}
    (hitem : Tracks depth item item') (hreads : Reads 1 item') :
    Tracks depth (bracketed opening closing item) (Parser.bracketed opening closing item') := by
  refine (tracks_expect opening).bind fun _ => tracks_budget fun n => ?_
  refine (tracks_commaItems hitem hreads n []).bind fun items => ?_
  exact ((tracks_expect closing).bind fun _ => .result items).within

theorem tracks_params : Tracks depth params Parser.params :=
  tracks_bracketed tracks_ident Parser.reads_ident

theorem tracks_arrowParams : Tracks depth arrowParams Parser.arrowParams := by
  refine Tracks.look fun text c h => ?_
  cases hk : kindAt (text.ahead c) with
  | word name => exact (TracksAt.bump h hk nofun).andThen h fun _ => .result _
  | _ => exact tracks_params text c h

/-- The word `async` in front of an arrow function is passed. -/
theorem exists_skipAsync (h : Stands depth text c) :
    ∃ c', skipAsync text c = some (.ok (), c') ∧
      text.ahead c' = Parser.withoutAsync (text.ahead c) ∧ c.pos ≤ c'.pos ∧
      Stands depth text c' := by
  have hrun : skipAsync text c = (if beginsWithWord ["async"] (text.ahead c)
      && (beginsWith .openParen ((text.ahead c).drop 1)
        || beginsWith .arrow ((text.ahead c).drop 2)) then bump else pure () :
      Stepper Unit) text c := rfl
  rw [hrun, Parser.withoutAsync]
  split
  · rename_i hasync
    obtain ⟨w, -, hk⟩ := kindAt_of_beginsWithWord (Bool.and_eq_true_iff.mp hasync).1
    have hne : kindAt (text.ahead c) ≠ .eof := by
      rw [hk]
      nofun
    exact ⟨_, run_bump h.lt, List.drop_drop.symm, Nat.le_succ _, h.bump hne⟩
  · exact ⟨c, rfl, rfl, Nat.le_refl _, h⟩

theorem tracks_statementsToBrace {statement : Stepper Stmt} {statement' : Parser Stmt}
    (hs : Tracks depth statement statement') (hreads : Reads 1 statement') (n : Nat) :
    ∀ done, TracksWithin depth n (statementsToBrace statement done n)
      (Parser.statementsToBrace statement' done n) := by
  induction n with
  | zero => exact fun _ => .zero
  | succ n ih =>
    intro done
    refine (tracks_eat .closeBrace).within.bind fun closed => ?_
    split
    · exact (Tracks.result _).within
    · refine TracksWithin.look fun ts => ?_
      split
      · exact tracks_unexpected.within
      · exact .turn hs hreads fun s => ih (s :: done)

theorem tracks_block {statement : Stepper Stmt} {statement' : Parser Stmt}
    (hs : Tracks depth statement statement') (hreads : Reads 1 statement') :
    Tracks depth (block statement) (Parser.block statement') :=
  (tracks_expect .openBrace).bind fun _ => tracks_budget fun n =>
    tracks_statementsToBrace hs hreads n []

theorem tracks_operators {right : Nat → Stepper Expr} {right' : Nat → Parser Expr}
    (hright : ∀ power, Tracks depth (right power) (right' power))
    (hreads : ∀ power, Reads 1 (right' power)) (min n : Nat) :
    ∀ left, TracksWithin depth n (operators right min left n)
      (Parser.operators right' min left n) := by
  induction n with
  | zero => exact fun _ => .zero
  | succ n ih =>
    intro left text c h hlength
    refine TracksAt.look ?_
    -- the operator is passed first, and its right operand is what the turn reads
    cases hop : Parser.operator? (kindAt (text.ahead c)) with
    | none => exact .result h left
    | some op =>
      obtain ⟨power, joint⟩ := op
      dsimp only
      split
      · exact .result h left
      · have hne := TokenKind.ne_eof_of_isPhrase (Parser.isPhrase_of_operator hop)
        refine (TracksAt.bump h rfl hne).bind h fun _ c' _ hle hc' => ?_
        exact TracksWithin.turn (hright _) (hreads _) (fun r => ih (joint.join left r))
          text c' hc' (Nat.le_trans (Text.length_ahead_le hle) hlength)

theorem tracks_plainMembers (n : Nat) :
    ∀ e, TracksWithin depth n (plainMembers e n) (Parser.plainMembers e n) := by
  induction n with
  | zero => exact fun _ => .zero
  | succ n ih =>
    intro e
    refine (tracks_eat .dot).within.bind fun dot => ?_
    split
    · exact .turn tracks_propertyName Parser.reads_propertyName fun name => ih _
    · exact (Tracks.result e).within

end Stencil.Script.Stepper
