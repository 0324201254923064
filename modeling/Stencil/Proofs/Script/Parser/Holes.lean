import Stencil.Proofs.Script.Parser.Locality

/-! # Parsers on tokens with a hole

Leave the source of one interpolation open among the tokens of a text (`Hole`), and let a parser
run on these tokens with every text in the hole, and with the whole text at every offset
(`Filling`).  All these runs go alike (`Situation.Outcome`): they fail with one message at one place
of the text, or leave the same tokens and values that look the same to other parsers (`Visible`),
until **the parser comes to the hole; there it reports what is wrong with the text in it**, as
parsing the text alone does, and goes on alike with all texts in which nothing is wrong.

That runs go alike from some tokens on (`Situation.UniformAt`) is said of parsers that may use what
the parsers before them have made of the text.  They may be put together (`UniformAt.bind`), and for
each primitive parser there is a rule for the one that begins with it.  Tests of the tokens ahead
come out the same for all fillings, as none looks into template literals (`Blind`).
-/
namespace Stencil.Script

/-- The tokens of a text, with the source of one interpolation left open. -/
structure Hole where
  /-- The tokens in front of the template literal. -/
  before : List Token
  /-- Where the template literal starts. -/
  start : Nat
  /-- The chunks of the literal in front of the interpolation. -/
  front : List Chunk
  /-- How many bytes behind the start of the literal the source starts. -/
  gap : Nat
  /-- The chunks of the literal behind the interpolation. -/
  back : List Chunk
  /-- The tokens behind the template literal. -/
  behind : List Token
  deriving Inhabited

namespace Hole

/-- The chunks of the template literal with a text in the hole. -/
def chunks (h : Hole) (text : String) : List Chunk :=
  h.front ++ .source text h.gap :: h.back

/-- The template literal with a text in the hole. -/
def token (h : Hole) (text : String) : Token :=
  ⟨.template (h.chunks text), h.start⟩

/-- The tokens with a text in the hole. -/
def fill (h : Hole) (text : String) : List Token :=
  h.before ++ h.token text :: h.behind

/-- Where the text in the hole starts. -/
def position (h : Hole) : Nat :=
  h.start + h.gap

end Hole

namespace Parser
variable {α β : Type}

/-! ## What parsers look at -/

/-- What parsers look at in the values of other parsers. -/
class Visible (α : Type) where
  Sight : Type
  sight : α → Sight

/-- As a rule nothing of a value is looked at. -/
instance (priority := low) : Visible α :=
  ⟨Unit, fun _ => ()⟩

instance : Visible Expr :=
  ⟨Bool, isTarget⟩

/-- Whether a statement declares something. -/
def declares : Stmt → Bool
  | .function _ | .decl .. => true
  | _ => false

instance : Visible Stmt :=
  ⟨Bool, declares⟩

instance : Visible (Option α) :=
  ⟨Bool, Option.isNone⟩

/-! ## Runs -/

/-- Where the text stands in the whole source, and what stands in the hole. -/
structure Filling where
  base : Nat
  text : String

/-- The values look the same to other parsers. -/
def Steady [Visible α] (A : Filling → α) : Prop :=
  ∀ w w', Visible.sight (A w) = Visible.sight (A w')

/-- The tokens that are left: these up to the hole, or these behind it. -/
inductive Stream where
  | before (ts : List Token)
  | behind (ts : List Token)

namespace Stream

/-- Whether the hole is still ahead. -/
def isBefore : Stream → Bool
  | before _ => true
  | behind _ => false

/-- The tokens, with a text in the hole. -/
def tokens (h : Hole) (text : String) : Stream → List Token
  | before ts => ts ++ h.token text :: h.behind
  | behind ts => ts

/-- The kind of the first token, unless it is the one with the hole. -/
def front : Stream → Option TokenKind
  | before [] => none
  | before (t :: _) => some t.kind
  | behind ts => some (kindAt ts)

/-- What is left behind the first token, unless it is the one with the hole. -/
def tail : Stream → Stream
  | before ts => before ts.tail
  | behind ts => behind ts.tail

variable {h : Hole} {T : Stream} {k : TokenKind}

theorem kindAt_tokens (hk : T.front = some k) (text : String) : kindAt (T.tokens h text) = k := by
  cases T with
  | behind ts => exact Option.some.inj hk
  | before ts =>
    cases ts with
    | nil => cases hk
    | cons t ts => exact Option.some.inj hk

theorem drop_tokens (hk : T.front = some k) (text : String) :
    (T.tokens h text).drop 1 = T.tail.tokens h text := by
  cases T with
  | behind ts => exact List.drop_one
  | before ts =>
    cases ts with
    | nil => cases hk
    | cons t ts => rfl

theorem isBefore_tail (T : Stream) : T.tail.isBefore = T.isBefore := by
  cases T <;> rfl

/-- Either the token with the hole comes first, or a token of some kind, whatever is in the hole. -/
theorem front_cases (T : Stream) : T = .before [] ∨
    ∃ kind, T.front = some kind ∧ ∀ h text, kindAt (T.tokens h text) = kind := by
  cases hk : T.front with
  | some kind => exact .inr ⟨kind, rfl, fun h => kindAt_tokens hk⟩
  | none =>
    refine .inl ?_
    cases T with
    | behind ts => cases hk
    | before ts =>
      cases ts with
      | nil => rfl
      | cons t ts => cases hk

theorem front_of_beginsWith {p : Punctuator} {text : String}
    (hp : beginsWith p (T.tokens h text) = true) : T.front = some (.punctuator p) := by
  obtain rfl | ⟨kind, hk, hkind⟩ := T.front_cases
  · cases hp
  · rw [hk, ← hkind h text, kindAt_of_beginsWith hp]

theorem front_of_beginsWithWord {words : List String} {text : String}
    (hw : beginsWithWord words (T.tokens h text) = true) :
    ∃ word, word ∈ words ∧ T.front = some (.word word) := by
  obtain ⟨word, hmem, hword⟩ := kindAt_of_beginsWithWord hw
  obtain rfl | ⟨kind, hk, hkind⟩ := T.front_cases
  · cases hword
  · exact ⟨word, hmem, by rw [hk, ← hkind h text, hword]⟩

theorem front_of_declAhead {kind : DeclKind} {text : String}
    (hdecl : declAhead? (T.tokens h text) = some kind) : ∃ word, T.front = some (.word word) := by
  obtain rfl | ⟨k, hk, hkind⟩ := T.front_cases
  · cases hdecl
  · unfold declAhead? at hdecl
    rw [hkind] at hdecl
    cases k with
    | word word => exact ⟨word, hk⟩
    | _ => cases hdecl

end Stream

/-! ## Looking at the tokens ahead -/

/-- A token without what stands in a template literal. -/
def Token.plain : Token → Token
  | ⟨.template _, o⟩ => ⟨.template [], o⟩
  | t => t

/-- The test does not look into template literals. -/
def Blind (test : List Token → α) : Prop :=
  ∀ ts, test (ts.map Token.plain) = test ts

theorem Stream.map_plain (T : Stream) (h : Hole) (text text' : String) :
    (T.tokens h text).map Token.plain = (T.tokens h text').map Token.plain := by
  cases T with
  | behind ts => rfl
  | before ts => simp [tokens, Hole.token, Token.plain]

namespace Blind
variable {test : List Token → α}

theorem eq (h : Blind test) (T : Stream) (hole : Hole) (text text' : String) :
    test (T.tokens hole text) = test (T.tokens hole text') := by
  rw [← h, T.map_plain hole text text', h]

theorem const (a : α) : Blind fun _ => a :=
  fun _ => rfl

/-- The first token may be looked at, but for what stands in a template literal. -/
theorem cons (hrest : ∀ t, Blind fun ts => test (t :: ts))
    (htemplate : ∀ chunks o ts,
      test (⟨.template [], o⟩ :: ts) = test (⟨.template chunks, o⟩ :: ts)) : Blind test := by
  intro ts
  rcases ts with _ | ⟨⟨kind, o⟩, ts⟩
  · rfl
  · cases kind with
    | template chunks => exact (hrest _ ts).trans (htemplate chunks o ts)
    | _ => exact hrest _ ts

theorem drop (h : Blind test) (n : Nat) : Blind fun ts => test (ts.drop n) := by
  intro ts
  dsimp only
  rw [← List.map_drop, h]

theorem map₂ {γ : Type} (f : α → β → γ) {test' : List Token → β} (h : Blind test)
    (h' : Blind test') : Blind fun ts => f (test ts) (test' ts) :=
  fun ts => congr (congrArg f (h ts)) (h' ts)

end Blind

theorem blind_beginsWith (p : Punctuator) : Blind (beginsWith p) :=
  .cons (fun _ _ => rfl) fun _ _ _ => rfl

theorem blind_beginsWithWord (words : List String) : Blind (beginsWithWord words) :=
  .cons (fun _ _ => rfl) fun _ _ _ => rfl

theorem blind_atEnd : Blind atEnd :=
  .cons (fun _ _ => rfl) fun _ _ _ => rfl

theorem blind_declAhead : Blind declAhead? :=
  .cons (fun _ _ => rfl) fun _ _ _ => rfl

theorem afterClose_plain (ts : List Token) (depth : Nat) :
    afterClose depth (ts.map Token.plain) = (afterClose depth ts).map (List.map Token.plain) := by
  induction ts generalizing depth with
  | nil => rfl
  | cons t ts ih =>
    obtain ⟨kind, o⟩ := t
    cases kind with
    | punctuator p =>
      change afterClose depth (⟨.punctuator p, o⟩ :: ts.map Token.plain) = _
      rw [Cut.afterClose_cons, Cut.afterClose_cons]
      dsimp only
      repeat' split
      all_goals first | rfl | exact ih _
    | eof => rfl
    | _ => exact ih depth

/-- What is looked for behind a bracket is not looked for in template literals. -/
theorem blind_afterClose {test : List Token → Bool} (h : Blind test) :
    Blind fun ts => match afterClose 0 ts with
      | some rest => test rest
      | none => false := by
  intro ts
  dsimp only
  rw [afterClose_plain]
  cases afterClose 0 ts with
  | none => rfl
  | some rest => exact h rest

theorem blind_startsArrow : Blind startsArrow := by
  refine .cons (fun t => ?_) fun _ _ _ => rfl
  obtain ⟨kind, o⟩ := t
  cases kind with
  | word name => exact .map₂ and (blind_beginsWith .arrow) (.const (!isReserved name))
  | punctuator p =>
    cases p with
    | openParen =>
      exact fun ts => blind_afterClose (blind_beginsWith .arrow) (⟨.punctuator .openParen, o⟩ :: ts)
    | _ => exact .const false
  | _ => exact .const false

theorem blind_asyncAhead : Blind Cut.asyncAhead :=
  .map₂ and (blind_beginsWithWord _)
    (.map₂ or ((blind_beginsWith _).drop 1) ((blind_beginsWith _).drop 2))

theorem blind_startsIteration : Blind startsIteration := by
  refine .map₂ and (.map₂ (fun kind named => kind.isSome && named) blind_declAhead ?_)
    ((blind_beginsWithWord _).drop 2)
  rintro (_ | ⟨t, _ | ⟨⟨kind, o⟩, ts⟩⟩)
  · rfl
  · rfl
  · cases kind <;> rfl

theorem blind_startsShorthand : Blind startsShorthand :=
  .map₂ and ((blind_beginsWith _).drop 1) ((blind_afterClose (blind_beginsWith _)).drop 1)

/-- What a parser is run on, but for the tokens that are left. -/
structure Situation where
  hole : Hole
  /-- Interpolations are parsed at lesser depths. -/
  depth : Nat
  shorthand : Bool
  size : Nat
  /-- The offsets at which errors may be found. -/
  Allowed : Nat → Prop
  /-- Errors behind the last token are found at the start. -/
  zero : Allowed 0

namespace Situation
variable (k : Situation)

/-- The context of a run. -/
def context (w : Filling) : ParseContext :=
  ⟨w.base, k.shorthand, k.size⟩

/-- The runs of a parser that may depend on what the parsers before it have made of the text in the
hole. -/
def run (T : Stream) (P : Filling → Parser α) (w : Filling) : Except ScriptError (α × List Token) :=
  P w (k.context w) (T.tokens k.hole w.text)

/-- Errors may be found at the token, and in its interpolations where they report them. -/
structure Fits (t : Token) : Prop where
  offset : k.Allowed t.offset
  source : ∀ {chunks text gap d message i}, t.kind = .template chunks → .source text gap ∈ chunks →
    d < k.depth → interpolation (grammar d) 0 text = .error (.syntaxAt message i) →
      k.Allowed (t.offset + gap + i)

/-- Errors may be found at all tokens. -/
def Clear (T : Stream) : Prop :=
  ∀ text, ∀ t ∈ T.tokens k.hole text, k.Fits t

/-- How the runs with certain fillings end.  These become fewer at the hole: behind it there are only
the runs with texts in which nothing is wrong. -/
inductive Outcome [Visible α] : (Filling → Prop) → Stream →
    (Filling → Except ScriptError (α × List Token)) → Prop
  /-- All fail in the same way. -/
  | fails {live T X} (message : String) (i : Nat) (allowed : k.Allowed i)
      (ends : ∀ w, live w → X w = .error (.syntaxAt message (w.base + i))) : Outcome live T X
  /-- All leave the same tokens, on the same side of the hole. -/
  | goesOn {live T X} (A : Filling → α) (T' : Stream) (steady : Steady A)
      (side : T'.isBefore = T.isBefore) (clear : k.Clear T')
      (ends : ∀ w, live w → X w = .ok (A w, T'.tokens k.hole w.text)) : Outcome live T X
  /-- The text in the hole is parsed.  If anything is wrong with it, that is what is wrong. -/
  | asks {live ts X} (d : Nat) (lower : d < k.depth)
      (fault : ∀ w e, live w → interpolation (grammar d) 0 w.text = .error e →
        X w = .error (e.shift (w.base + k.hole.position)))
      (rest : Outcome (fun w => live w ∧ ∃ e, interpolation (grammar d) 0 w.text = .ok e)
        (.behind k.hole.behind) X) : Outcome live (.before ts) X

/-- From these tokens on, all runs of the parser end alike. -/
def UniformAt [Visible α] (T : Stream) (P : Filling → Parser α) : Prop :=
  k.Clear T → ∀ live, k.Outcome live T (k.run T P)

/-- All runs of the parser end alike, whatever tokens are left. -/
def Uniform [Visible α] (P : Filling → Parser α) : Prop :=
  ∀ T, k.UniformAt T P

variable {k} [Visible α] [Visible β] {T T' : Stream} {live : Filling → Prop}
  {X Y : Filling → Except ScriptError (α × List Token)}

namespace Outcome

theorem congr (h : k.Outcome live T X) (hY : ∀ w, live w → Y w = X w) : k.Outcome live T Y := by
  induction h with
  | fails message i allowed ends =>
    exact .fails message i allowed fun w hw => (hY w hw).trans (ends w hw)
  | goesOn A T' steady side clear ends =>
    exact .goesOn A T' steady side clear fun w hw => (hY w hw).trans (ends w hw)
  | asks d lower fault _ ih =>
    exact .asks d lower (fun w e hw he => (hY w hw).trans (fault w e hw he))
      (ih fun w hw => hY w hw.1)

/-- Only the side of the hole matters. -/
theorem of_side (h : k.Outcome live T' X) (hT : T'.isBefore = T.isBefore) :
    k.Outcome live T X := by
  cases h with
  | fails message i allowed ends => exact .fails message i allowed ends
  | goesOn A T'' steady side clear ends => exact .goesOn A T'' steady (side.trans hT) clear ends
  | asks d lower fault rest =>
    cases T with
    | behind => cases hT
    | before => exact .asks d lower fault rest

theorem bind (h : k.Outcome live T X) {F : Filling → α → Parser β}
    (hF : ∀ A, Steady A → k.Uniform fun w => F w (A w))
    {Y : Filling → Except ScriptError (β × List Token)}
    (hY : ∀ w, live w → Y w = X w >>= fun x => F w x.1 (k.context w) x.2) : k.Outcome live T Y := by
  induction h with
  | fails message i allowed ends =>
    exact .fails message i allowed fun w hw => by rw [hY w hw, ends w hw]; rfl
  | goesOn A T' steady side clear ends =>
    refine ((hF A steady T' clear _).of_side side).congr fun w hw => ?_
    rw [hY w hw, ends w hw]
    rfl
  | asks d lower fault _ ih =>
    exact .asks d lower (fun w e hw he => by rw [hY w hw, fault w e hw he]; rfl)
      (ih fun w hw => hY w hw.1)

end Outcome

theorem Clear.tail (h : k.Clear T) : k.Clear T.tail := by
  intro text t ht
  refine h text t ?_
  cases T with
  | behind ts => exact List.mem_of_mem_tail ht
  | before ts =>
    cases ts with
    | nil => exact ht
    | cons x ts => exact List.mem_cons_of_mem x ht

namespace UniformAt
variable {P : Filling → Parser α} {F : Filling → α → Parser β}

theorem bind (hP : k.UniformAt T P) (hF : ∀ A, Steady A → k.Uniform fun w => F w (A w)) :
    k.UniformAt T fun w => P w >>= F w := by
  refine fun hT live => (hP hT live).bind hF fun w _ => ?_
  exact (run_bind (P w) (F w)).trans (by unfold run; cases P w _ _ <;> rfl)

theorem result {A : Filling → α} (hA : Steady A) : k.UniformAt T fun w => pure (A w) :=
  fun hT _ => .goesOn A T hA rfl hT fun _ _ => rfl

theorem map {Q : Filling → Parser α} (hQ : k.UniformAt T Q) (f : α → β)
    (hf : ∀ A, Steady A → Steady fun w => f (A w)) : k.UniformAt T fun w => f <$> Q w :=
  bind (F := fun _ a => pure (f a)) hQ fun A hA _ => result (hf A hA)

theorem throwAt {message : String} {i : Nat} (hi : k.Allowed i) :
    k.UniformAt T fun w => (throw (.syntaxAt message (w.base + i)) : Parser α) :=
  fun _ _ => .fails message i hi fun _ _ => rfl

theorem offset {F : Filling → Nat → Parser α}
    (hF : ∀ i, k.Allowed i → k.UniformAt T fun w => F w (w.base + i)) :
    k.UniformAt T fun w => offset >>= F w := by
  intro hT live
  obtain ⟨i, hi, hrun⟩ : ∃ i, k.Allowed i ∧ ∀ w, Parser.offset (k.context w)
      (T.tokens k.hole w.text) = .ok (w.base + i, T.tokens k.hole w.text) := by
    rcases T with (_ | ⟨t, ts⟩) | (_ | ⟨t, ts⟩)
    · exact ⟨k.hole.start, (hT "" _ List.mem_cons_self).offset, fun _ => rfl⟩
    · exact ⟨t.offset, (hT "" t List.mem_cons_self).offset, fun _ => rfl⟩
    · exact ⟨0, k.zero, fun _ => rfl⟩
    · exact ⟨t.offset, (hT "" t List.mem_cons_self).offset, fun _ => rfl⟩
  exact (hF i hi hT live).congr fun w _ => run_bind_of_ok (hrun w)

theorem fail {message : String} : k.UniformAt T fun _ => (fail message : Parser α) :=
  offset fun _ hi => throwAt hi

theorem ahead {F : Filling → List Token → Parser α}
    (hF : k.UniformAt T fun w => F w (T.tokens k.hole w.text)) :
    k.UniformAt T fun w => ahead >>= F w :=
  hF

theorem budget {F : Filling → Nat → Parser α} (hF : k.UniformAt T fun w => F w (k.size + 1)) :
    k.UniformAt T fun w => budget >>= F w :=
  hF

omit [Visible β] in
theorem assoc {γ : Type} {P : Filling → Parser β} {Q : Filling → β → Parser γ}
    {F : Filling → γ → Parser α} (h : k.UniformAt T fun w => P w >>= fun b => Q w b >>= F w) :
    k.UniformAt T fun w => (P w >>= Q w) >>= F w := by
  simpa only [bind_assoc] using h

omit [Visible β] in
/-- The message depends on the first token, but not on what stands in a template literal. -/
theorem unexpected_bind {F : Filling → β → Parser α} :
    k.UniformAt T fun w => unexpected >>= F w := by
  refine assoc (ahead ?_)
  obtain rfl | ⟨kind, hk, hkind⟩ := T.front_cases
  · exact assoc (offset fun _ hi => throwAt hi)
  · simp only [hkind]
    exact assoc (offset fun _ hi => throwAt hi)

theorem unexpected : k.UniformAt T fun _ => (unexpected : Parser α) := by
  have h : k.UniformAt T fun _ => (Parser.unexpected >>= pure : Parser α) := unexpected_bind
  simpa only [bind_pure] using h

theorem of_bind_pure {P : Filling → Parser α} (h : k.UniformAt T fun w => P w >>= pure) :
    k.UniformAt T P := by
  simpa only [bind_pure] using h

omit [Visible β] in
theorem mapped {P : Filling → Parser β} {γ : Type} {f : β → γ} {F : Filling → γ → Parser α}
    (h : k.UniformAt T fun w => P w >>= fun b => F w (f b)) :
    k.UniformAt T fun w => f <$> P w >>= F w := by
  simpa only [bind_map_left] using h

/-- The values that are looked at look the same. -/
theorem ifSame {P Q : Filling → Parser α} {c : Filling → Bool} (h : ∀ w w', c w = c w')
    (hP : k.UniformAt T P) (hQ : k.UniformAt T Q) :
    k.UniformAt T fun w => if c w = true then P w else Q w := by
  simp only [h _ ⟨0, ""⟩]
  split
  · exact hP
  · exact hQ

/-- One token is taken that is not the one with the hole. -/
theorem skip {kind : TokenKind} (hk : T.front = some kind) {F : Filling → Unit → Parser α}
    (hF : k.UniformAt T.tail fun w => F w ()) : k.UniformAt T fun w => skip >>= F w := by
  refine fun hT live => ((hF hT.tail live).of_side T.isBefore_tail).congr fun w _ => ?_
  unfold run
  rw [← Stream.drop_tokens hk]
  rfl

theorem moveTo {T' : Stream} (hside : T'.isBefore = T.isBefore) (hclear : k.Clear T → k.Clear T')
    {P : Filling → Parser α} (hP : k.UniformAt T' P) :
    k.UniformAt T fun w => set (T'.tokens k.hole w.text) >>= fun _ => P w :=
  fun hT live => (hP (hclear hT) live).of_side hside

/-- The tokens ahead are tested. -/
theorem ifTest {P Q : Filling → Parser α} {test : List Token → Bool} (h : Blind test)
    (hP : (∀ text, test (T.tokens k.hole text) = true) → k.UniformAt T P) (hQ : k.UniformAt T Q) :
    k.UniformAt T fun w => if test (T.tokens k.hole w.text) = true then P w else Q w := by
  simp only [h.eq T k.hole _ ""]
  by_cases htest : test (T.tokens k.hole "") = true
  · simp only [if_pos htest]
    exact hP fun text => (h.eq T k.hole text "").trans htest
  · simp only [if_neg htest]
    exact hQ

/-- A token is taken if it passes the test. -/
theorem take {test : List Token → Bool} {F : Filling → Bool → Parser α} (h : Blind test)
    (hyes : (∀ text, test (T.tokens k.hole text) = true) →
      ∃ kind, T.front = some kind ∧ k.UniformAt T.tail fun w => F w true)
    (hno : k.UniformAt T fun w => F w false) :
    k.UniformAt T fun w => (do
      if test (← Parser.ahead) then
        Parser.skip
        pure true
      else pure false : Parser Bool) >>= F w := by
  have hrest : k.UniformAt T fun w => Parser.ahead >>= fun ts =>
      if test ts = true then Parser.skip >>= fun _ => F w true else F w false := by
    refine ahead (ifTest h (fun htest => ?_) hno)
    obtain ⟨kind, hkind, hF⟩ := hyes htest
    exact skip hkind hF
  refine assoc ?_
  convert hrest using 5
  split <;> rfl

theorem eat {p : Punctuator} {F : Filling → Bool → Parser α}
    (hyes : T.front = some (.punctuator p) → k.UniformAt T.tail fun w => F w true)
    (hno : k.UniformAt T fun w => F w false) : k.UniformAt T fun w => eat p >>= F w :=
  take (blind_beginsWith p)
    (fun htest =>
      have hk := T.front_of_beginsWith (htest "")
      ⟨_, hk, hyes hk⟩) hno

theorem eatWord {word : String} {F : Filling → Bool → Parser α}
    (hyes : k.UniformAt T.tail fun w => F w true) (hno : k.UniformAt T fun w => F w false) :
    k.UniformAt T fun w => eatWord word >>= F w :=
  take (blind_beginsWithWord [word])
    (fun htest => (T.front_of_beginsWithWord (htest "")).elim fun _ h => ⟨_, h.2, hyes⟩) hno

theorem expect {p : Punctuator} {F : Filling → Unit → Parser α}
    (hF : k.UniformAt T.tail fun w => F w ()) : k.UniformAt T fun w => expect p >>= F w :=
  assoc (eat (fun _ => hF) unexpected_bind)

theorem ident {F : Filling → String → Parser α}
    (hF : ∀ name, T.front = some (.word name) → k.UniformAt T.tail fun w => F w name) :
    k.UniformAt T fun w => ident >>= F w := by
  refine assoc (ahead ?_)
  obtain rfl | ⟨kind, hk, hkind⟩ := T.front_cases
  · exact unexpected_bind
  · simp only [hkind]
    cases kind with
    | word name =>
      dsimp only
      split
      · exact unexpected_bind
      · exact assoc (skip hk (hF name hk))
    | _ => exact unexpected_bind

theorem propertyName {F : Filling → String → Parser α}
    (hF : ∀ name, k.UniformAt T.tail fun w => F w name) :
    k.UniformAt T fun w => propertyName >>= F w := by
  refine assoc (ahead ?_)
  obtain rfl | ⟨kind, hk, hkind⟩ := T.front_cases
  · exact unexpected_bind
  · simp only [hkind]
    cases kind with
    | word name => exact assoc (skip hk (hF name))
    | _ => exact unexpected_bind

theorem endStatement {F : Filling → Unit → Parser α} (hF : k.Uniform fun w => F w ()) :
    k.UniformAt T fun w => endStatement >>= F w :=
  assoc (eat (fun _ => hF _) (hF _))

end UniformAt
end Situation
end Parser
end Stencil.Script
