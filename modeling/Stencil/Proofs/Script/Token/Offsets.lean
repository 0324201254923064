import Stencil.Proofs.Script.Token.Interpolation
import Stencil.Proofs.Text.Slices

/-! # Where tokens stand

The offset of a token is where its first character stands in the source, and the source of an
interpolation stands in the template literal where its chunk says (`StandsAt`).  What is wrong with a
text is found at a place of the text (`FoundFrom`).

Between two tokens there are blanks and comments only (`Gap`), so a text is a gap and then tokens
with gaps behind them (`Laid`).  What stands from the start of one token up to the start of another
one falls into the tokens between the two and into nothing else (`tokenize_restarts`), unless the
last of them is a point.
-/
namespace Stencil.Script
open Stencil.Text (byteLength byteLength_append byteLength_cons isBlank IsBoundary isBoundary_iff
  slice? slice?_eq_some)

namespace Scan
variable {p q n : Place} {u cs : List Char} {e : ScriptError} {start : Nat}

/-! ## What is wrong with a text -/

/-- The error is found at a place that comes behind some characters. -/
def FoundFrom (p : Place) (e : ScriptError) : Prop :=
  ∃ message u n, p.Takes u n ∧ e = .syntaxAt message n.offset

namespace FoundFrom

theorem here (message : String) : FoundFrom p (.syntaxAt message p.offset) :=
  ⟨message, [], p, .nothing p, rfl⟩

theorem behind (h : p.Takes u q) (he : FoundFrom q e) : FoundFrom p e := by
  obtain ⟨message, v, n, hv, rfl⟩ := he
  exact ⟨message, u ++ v, n, h.trans hv, rfl⟩

theorem of_error {α β : Type} {x : Except ScriptError α} {f : α → β} (h : x.map f = .error e)
    (hx : ∀ e, x = .error e → FoundFrom p e) : FoundFrom p e := by
  cases x with
  | error e' =>
    cases h
    exact hx _ rfl
  | ok a => cases h

end FoundFrom

theorem escape_error (h : escape start cs = .error e) : ∃ message, e = .syntaxAt message start := by
  unfold escape at h
  split at h
  · cases h
    exact ⟨_, rfl⟩
  iterate 2
    unfold escape.digits at h
    dsimp only at h
    split at h <;> cases h
    exact ⟨_, rfl⟩
  · cases h

theorem stringRest_error {quote : Char} {done : List Char} {skip o : Nat}
    (h : stringRest quote start done skip o cs = .error e) :
    ∃ message, e = .syntaxAt message start := by
  fun_induction stringRest quote start done skip o cs
  case case1 | case3 =>
    cases h
    exact ⟨_, rfl⟩
  case case4 => cases h
  case case6 =>
    cases h
    exact escape_error (by assumption)
  all_goals
    rename_i ih
    exact ih h

theorem templateRest_error {text : List Char} {chunks : List Chunk} {mode : Template} {o : Nat}
    (h : templateRest start text chunks mode o cs = .error e) :
    ∃ message, e = .syntaxAt message start := by
  fun_induction templateRest start text chunks mode o cs
  case case1 =>
    cases h
    exact ⟨_, rfl⟩
  case case4 => cases h
  case case6 =>
    cases h
    exact escape_error (by assumption)
  all_goals
    rename_i ih
    exact ih h

theorem decimal_error (h : decimal p.offset p = .error e) : FoundFrom p e := by
  unfold decimal at h
  rcases hwhole : spanAt (fun c => c.isDigit || c == '_') p with ⟨whole, p₁⟩
  rcases hpart : fraction p₁ with ⟨part, p₂⟩
  rcases hpower : exponent p₂ with ⟨power, p₃⟩
  rw [hwhole] at h
  dsimp only at h
  rw [hpart] at h
  dsimp only at h
  rw [hpower] at h
  dsimp only at h
  obtain ⟨hwhole, -⟩ := takes_spanAt hwhole
  obtain ⟨_, hpart, -⟩ := settles_fraction p₁ part p₂ hpart
  obtain ⟨_, hpower, -⟩ := settles_exponent p₂ power p₃ hpower
  split at h
  · cases h
    exact .behind (hwhole.trans (hpart.trans hpower)) (.here _)
  · split at h <;> cases h
    exact .here _

theorem number_error (h : number p = .error e) : FoundFrom p e := by
  unfold number at h
  split at h
  iterate 2
    unfold hexadecimal at h
    dsimp only at h
    split at h <;> cases h
    exact .here _
  · exact decimal_error h

theorem token_error (h : token p = .error e) : FoundFrom p e := by
  obtain ⟨cs, o⟩ := p
  cases cs with
  | nil => cases h
  | cons c rest =>
    rw [token_cons] at h
    split at h
    · exact number_error h
    · split at h
      · refine .of_error h fun e he => ?_
        obtain ⟨message, rfl⟩ := stringRest_error he
        exact .here message
      · split at h
        · refine .of_error h fun e he => ?_
          obtain ⟨message, rfl⟩ := templateRest_error he
          exact .here message
        · split at h
          · cases h
          · unfold punctuator at h
            split at h <;> cases h
            exact .here _

/-- The error is found where the comment starts. -/
def Trivia.FoundAt (e : ScriptError) : Trivia → Prop
  | .comment start => ∃ message, e = .syntaxAt message start
  | _ => False

theorem trivia_error {mode : Trivia} {o : Nat} (h : trivia mode o cs = .error e) :
    FoundFrom ⟨cs, o⟩ e ∨ mode.FoundAt e := by
  have one (c : Char) (rest : List Char) (o : Nat) :
      (Place.mk (c :: rest) o).Takes [c] ⟨rest, o + c.utf8Size⟩ :=
    (Place.Takes.nothing _).cons rfl rfl
  fun_induction trivia mode o cs
  case case1 o rest ih =>
    have htakes : (Place.mk ('/' :: '/' :: rest) o).Takes ['/', '/'] ⟨rest, o + 2⟩ := ⟨rfl, rfl⟩
    exact .inl (.behind htakes ((ih h).resolve_right id))
  case case2 o rest ih =>
    have htakes : (Place.mk ('/' :: '*' :: rest) o).Takes ['/', '*'] ⟨rest, o + 2⟩ := ⟨rfl, rfl⟩
    rcases ih h with he | ⟨message, rfl⟩
    · exact .inl (.behind htakes he)
    · exact .inl (.here message)
  case case3 o c rest _ _ _ ih =>
    exact .inl (.behind (one c rest o) ((ih h).resolve_right id))
  case case4 => cases h
  case case5 o c rest ih =>
    refine .inl (.behind (one c rest o) ((ih h).resolve_right ?_))
    split <;> exact id
  case case6 o rest ih =>
    have htakes : (Place.mk ('*' :: '/' :: rest) o).Takes ['*', '/'] ⟨rest, o + 2⟩ := ⟨rfl, rfl⟩
    exact .inl (.behind htakes ((ih h).resolve_right id))
  case case7 start o c rest _ ih => exact (ih h).imp_left (.behind (one c rest o))
  case case8 start _ =>
    cases h
    exact .inr ⟨_, rfl⟩
  case case9 => cases h

theorem tokens_error {done : List Token} {fuel : Nat} (h : tokens done fuel p = .error e) :
    FoundFrom p e := by
  induction fuel generalizing p done with
  | zero => cases h
  | succ fuel ih =>
    rcases hblanks : trivia .blanks p.offset p.rest with e' | q
    · rw [tokens, hblanks] at h
      cases h
      exact (trivia_error hblanks).resolve_right id
    · rw [tokens_succ hblanks] at h
      obtain ⟨u, hu, -⟩ := trivia_again hblanks
      split at h
      · cases h
      · rename_i hend
        have hq : q.rest ≠ [] := fun hnil => hend (List.isEmpty_iff.mpr hnil)
        rcases htoken : token q with e' | ⟨k, n⟩
        · rw [htoken] at h
          cases h
          exact .behind hu (token_error htoken)
        · rw [htoken] at h
          obtain ⟨v, -, hv, -⟩ := token_again htoken hq
          exact .behind (hu.trans hv) (ih h)

/-! ## Where tokens stand -/

/-- A token stands at a place behind some characters. -/
theorem Lexed.of_mem {ts : List Token} (h : Lexed p ts) {t : Token} (ht : t ∈ ts) :
    ∃ u q, p.Takes u q ∧ t.offset = q.offset ∧
      (t.kind = .eof ∨ q.rest ≠ [] ∧ ∃ n, token q = .ok (t.kind, n)) := by
  induction h with
  | done =>
    obtain rfl := List.mem_singleton.mp ht
    exact ⟨[], _, .nothing _, rfl, .inl rfl⟩
  | next bare ne htoken blanks rest ih =>
    rcases List.mem_cons.mp ht with rfl | ht
    · exact ⟨[], _, .nothing _, rfl, .inr ⟨ne, _, htoken⟩⟩
    · obtain ⟨u, q, hu, hq⟩ := ih ht
      obtain ⟨a, -, ha, -⟩ := token_again htoken ne
      obtain ⟨v, hv, -⟩ := trivia_again blanks
      exact ⟨a ++ (v ++ u), q, ha.trans (hv.trans hu), hq⟩

/-- The text stands at a byte offset, behind at least one character. -/
def StandsAt (s : List Char) (i : Nat) (cs : List Char) : Prop :=
  ∃ front back, cs = front ++ (s ++ back) ∧ byteLength front = i ∧ front ≠ []

namespace StandsAt
variable {s t : List Char} {i j : Nat}

theorem length_lt (h : StandsAt s i cs) : s.length < cs.length := by
  obtain ⟨front, back, rfl, -, hne⟩ := h
  have := List.length_pos_iff.mpr hne
  rw [List.length_append, List.length_append]
  omega

/-- What stands in a text that stands in another one stands in that one. -/
theorem trans (hs : StandsAt s i cs) (ht : StandsAt t j s) : StandsAt t (i + j) cs := by
  obtain ⟨front, back, rfl, rfl, hne⟩ := hs
  obtain ⟨front', back', rfl, rfl, -⟩ := ht
  refine ⟨front ++ front', back' ++ back, by simp, byteLength_append front front', ?_⟩
  exact List.append_ne_nil_of_left_ne_nil hne _

theorem isBoundary (hs : StandsAt s i cs) (hj : IsBoundary s j) : IsBoundary cs (i + j) := by
  obtain ⟨front, back, rfl, rfl, -⟩ := hs
  obtain ⟨a, b, rfl, rfl⟩ := isBoundary_iff.mp hj
  exact isBoundary_iff.mpr ⟨front ++ a, b ++ back, by simp, (byteLength_append front a).symm⟩

theorem slice (hs : StandsAt s i cs) : slice? cs i (i + byteLength s) = some s := by
  obtain ⟨front, back, rfl, rfl, -⟩ := hs
  exact slice?_eq_some.mpr ⟨front, back, (List.append_assoc ..).symm, rfl, rfl⟩

end StandsAt

/-- The sources of all interpolations stand where their chunks say. -/
def AllStand (cs : List Char) (chunks : List Chunk) : Prop :=
  ∀ s i, .source s i ∈ chunks → StandsAt s.toList i cs

theorem allStand_flush {text : List Char} {chunks : List Chunk} (h : AllStand cs chunks) :
    AllStand cs (flush text chunks) := by
  intro s i hs
  unfold flush at hs
  split at hs
  · exact h s i hs
  · exact h s i ((List.mem_cons.mp hs).resolve_left nofun)

/-- The text so far ends in the source of the interpolation that is being read. -/
def Template.StartedIn (pre : List Char) : Template → Prop
  | .text _ => True
  | .code start _ source | .quoted _ _ start _ source =>
    ∃ front, pre = front ++ source.reverse ∧ byteLength front = start ∧ front ≠ []

theorem startedIn_snoc {pre source : List Char} {start : Nat} (c : Char)
    (h : ∃ front, pre = front ++ source.reverse ∧ byteLength front = start ∧ front ≠ []) :
    ∃ front, pre ++ [c] = front ++ (c :: source).reverse ∧
      byteLength front = start ∧ front ≠ [] := by
  obtain ⟨front, rfl, hfront⟩ := h
  exact ⟨front, by rw [List.reverse_cons, List.append_assoc], hfront⟩

/-- **The source of an interpolation stands where its chunk says.** -/
theorem templateRest_stands {text : List Char} {chunks parts : List Chunk} {mode : Template}
    {o : Nat} (h : templateRest start text chunks mode o cs = .ok (parts, n)) :
    ∀ pre, byteLength pre = o → mode.StartedIn pre → AllStand (pre ++ cs) chunks →
      AllStand (pre ++ cs) parts := by
  have hsize {pre : List Char} {o : Nat} (hpre : byteLength pre = o) (c : Char) :
      byteLength (pre ++ [c]) = o + c.utf8Size := by
    rw [byteLength_append, byteLength_cons, hpre]
    rfl
  fun_induction templateRest start text chunks mode o cs
  case case1 => cases h
  case case6 => cases h
  case case2 c rest ih =>
    intro pre hpre _ hchunks
    rw [List.append_cons] at *
    exact ih h _ (hsize hpre _) trivial hchunks
  case case3 text chunks o rest ih =>
    intro pre hpre _ hchunks
    have hpre' : byteLength (pre ++ ['$', '\x7b']) = o + 2 := by
      rw [byteLength_append, hpre]
      rfl
    rw [show pre ++ '$' :: '\x7b' :: rest = (pre ++ ['$', '\x7b']) ++ rest by simp] at *
    refine ih h _ hpre' ⟨_, (List.append_nil _).symm, hpre', ?_⟩ (allStand_flush hchunks)
    simp
  case case4 =>
    intro pre _ _ hchunks s i hs
    cases h
    exact allStand_flush hchunks s i (List.mem_reverse.mp hs)
  case case5 | case7 =>
    rename_i ih
    intro pre hpre _ hchunks
    rw [List.append_cons] at *
    exact ih h _ (hsize hpre _) trivial hchunks
  case case8 from' source o rest chunk ih =>
    intro pre hpre hmode hchunks
    have hchunk : StandsAt source.reverse from' (pre ++ '\x7d' :: rest) := by
      obtain ⟨front, rfl, hfront, hne⟩ := hmode
      exact ⟨front, '\x7d' :: rest, List.append_assoc .., hfront, hne⟩
    rw [List.append_cons] at *
    refine ih h _ (hsize hpre _) trivial fun s i hs => ?_
    rcases List.mem_cons.mp hs with hs | hs
    · have hs : Chunk.source s i = .source (String.ofList source.reverse) from' := hs
      obtain ⟨rfl, rfl⟩ := Chunk.source.inj hs
      rwa [String.toList_ofList]
    · exact hchunks s i hs
  case case14 quote escaped from' depth source o c rest mode ih =>
    intro pre hpre hmode hchunks
    have hnext : mode.StartedIn (pre ++ [c]) := by
      unfold mode
      repeat' split
      all_goals exact startedIn_snoc c hmode
    rw [List.append_cons pre c rest] at *
    exact ih h _ (hsize hpre _) hnext hchunks
  all_goals
    rename_i ih
    intro pre hpre hmode hchunks
    rw [List.append_cons] at *
    exact ih h _ (hsize hpre _) (startedIn_snoc _ hmode) hchunks

/-! ## What stands between tokens -/

/-- Blanks and comments, in front of other characters.  A comment between delimiters ends at the
first one that closes it, a comment behind two slashes where a line or the text does. -/
inductive Gap (behind : List Char) : List Char → Prop where
  | nothing : Gap behind []
  | blank {c : Char} {u : List Char} (first : isBlank c = true) (rest : Gap behind u) :
      Gap behind (c :: u)
  | line {body u : List Char} (inLine : '\n' ∉ body) (ends : ∀ c ∈ (u ++ behind).head?, c = '\n')
      (rest : Gap behind u) : Gap behind ('/' :: '/' :: (body ++ u))
  | comment {body u : List Char} (inside : ¬ ['*', '/'] <:+: body) (rest : Gap behind u) :
      Gap behind ('/' :: '*' :: (body ++ '*' :: '/' :: u))

/-- The rest of a gap in which a comment may have begun. -/
def Trivia.Ends (behind u : List Char) : Trivia → Prop
  | .blanks => Gap behind u
  | .lineComment => ∃ body v, u = body ++ v ∧ '\n' ∉ body ∧
      (∀ c ∈ (v ++ behind).head?, c = '\n') ∧ Gap behind v
  | .comment _ => ∃ body v, u = body ++ '*' :: '/' :: v ∧ ¬ ['*', '/'] <:+: body ∧ Gap behind v

/-- What is skipped is a gap. -/
theorem trivia_gap {mode : Trivia} {o : Nat} (h : trivia mode o cs = .ok n) :
    ∃ u, (Place.mk cs o).Takes u n ∧ mode.Ends n.rest u := by
  fun_induction trivia mode o cs
  case case1 o rest ih =>
    obtain ⟨_, hu, body, v, rfl, hbody, hends, hgap⟩ := ih h
    exact ⟨_, (hu.cons (o := o + 1) rfl rfl).cons rfl rfl, .line hbody hends hgap⟩
  case case2 o rest ih =>
    obtain ⟨_, hu, body, v, rfl, hbody, hgap⟩ := ih h
    exact ⟨_, (hu.cons (o := o + 1) rfl rfl).cons rfl rfl, .comment hbody hgap⟩
  case case3 c rest _ _ hblank ih =>
    obtain ⟨u, hu, hgap⟩ := ih h
    exact ⟨c :: u, hu.cons rfl rfl, .blank hblank hgap⟩
  case case4 =>
    cases h
    exact ⟨[], .nothing _, .nothing⟩
  case case5 c rest ih =>
    obtain ⟨u, hu, hends⟩ := ih h
    refine ⟨c :: u, hu.cons rfl rfl, ?_⟩
    split at hends
    · rename_i hc
      refine ⟨[], c :: u, rfl, List.not_mem_nil, fun d hd => ?_, .blank (hc ▸ by decide) hends⟩
      exact (Option.some.inj hd).symm.trans hc
    · rename_i hc
      obtain ⟨body, v, rfl, hbody, hends⟩ := hends
      refine ⟨c :: body, v, rfl, fun hmem => ?_, hends⟩
      exact (List.mem_cons.mp hmem).elim (fun heq => hc heq.symm) hbody
  case case6 o rest ih =>
    obtain ⟨u, hu, hgap⟩ := ih h
    exact ⟨_, (hu.cons (o := o + 1) rfl rfl).cons rfl rfl, [], u, rfl, by decide, hgap⟩
  case case7 c rest hclose ih =>
    obtain ⟨_, hu, body, v, rfl, hbody, hgap⟩ := ih h
    refine ⟨_, hu.cons rfl rfl, c :: body, v, rfl, fun hinfix => ?_, hgap⟩
    rcases List.infix_cons_iff.mp hinfix with hprefix | hinfix
    · obtain ⟨rfl, body', rfl⟩ := List.cons_prefix_cons.mp hprefix
      exact hclose (body' ++ '*' :: '/' :: v ++ n.rest) rfl hu.rest
    · exact hbody hinfix
  case case8 => cases h
  case case9 mode o hmode =>
    cases h
    refine ⟨[], .nothing _, ?_⟩
    cases mode with
    | blanks => exact .nothing
    | lineComment =>
      exact ⟨[], [], rfl, List.not_mem_nil, fun d hd => absurd hd (Option.not_mem_none d), .nothing⟩
    | comment start => exact absurd rfl (hmode start)

/-- **A text as tokens with gaps behind them**, from the first token on, which stands at an offset.
A token ends where the reading of it does. -/
inductive Laid : Nat → List Char → List Token → Prop where
  | done {o : Nat} : Laid o [] [⟨.eof, o⟩]
  | next {o : Nat} {lexeme gap rest : List Char} {k : TokenKind} {ts : List Token}
      (token : token ⟨lexeme ++ (gap ++ rest), o⟩ = .ok (k, ⟨gap ++ rest, o + byteLength lexeme⟩))
      (ne : lexeme ≠ []) (blanks : Gap rest gap)
      (behind : Laid (o + byteLength lexeme + byteLength gap) rest ts) :
      Laid o (lexeme ++ (gap ++ rest)) (⟨k, o⟩ :: ts)

namespace Lexed
variable {ts : List Token}

theorem laid (h : Lexed p ts) : Laid p.offset p.rest ts := by
  induction h with
  | done => exact .done
  | @next p n q k ts bare ne htoken blanks rest ih =>
    obtain ⟨lexeme, hne, hlexeme, -⟩ := token_again htoken ne
    obtain ⟨gap, hgap, hends⟩ := trivia_gap blanks
    have hp : p.rest = lexeme ++ (gap ++ q.rest) := hlexeme.rest.trans (congrArg _ hgap.rest)
    have hq : q.offset = p.offset + byteLength lexeme + byteLength gap := by
      rw [← hlexeme.offset]
      exact hgap.offset
    rw [hp]
    refine .next ?_ hne hends (hq ▸ ih)
    rw [← hp, show gap ++ q.rest = n.rest from hgap.rest.symm, ← hlexeme.offset]
    exact htoken

/-- Every token stands behind the one before it. -/
theorem increasing (h : Lexed p ts) : ts.Pairwise fun a b => a.offset < b.offset := by
  induction h with
  | done => exact List.pairwise_singleton _ _
  | next bare ne htoken blanks rest ih =>
    obtain ⟨lexeme, hne, hlexeme, -⟩ := token_again htoken ne
    obtain ⟨gap, hgap, -⟩ := trivia_again blanks
    obtain ⟨c, lexeme, rfl⟩ := List.exists_cons_of_ne_nil hne
    have hc := Char.utf8Size_pos c
    refine List.pairwise_cons.mpr ⟨fun t ht => Nat.lt_of_lt_of_le ?_ (rest.le_offset t ht), ih⟩
    rw [hgap.offset, hlexeme.offset, byteLength_cons]
    dsimp only
    omega

/-- The tokens behind some of them are those of the text from there on. -/
theorem behind {u r : List Token} (h : Lexed p (u ++ r)) (hr : r ≠ []) :
    ∃ w q, p.Takes w q ∧ Lexed q r := by
  induction u generalizing p with
  | nil => exact ⟨[], p, .nothing p, h⟩
  | cons x u ih =>
    obtain ⟨-, ne, n, q, htoken, hblanks, hrest⟩ :=
      h.of_cons fun hnil => hr (List.append_eq_nil_iff.mp hnil).2
    obtain ⟨w, q', htakes, hlexed⟩ := ih hrest
    obtain ⟨a, -, ha, -⟩ := token_again htoken ne
    obtain ⟨v, hv, -⟩ := trivia_again hblanks
    exact ⟨a ++ (v ++ w), q', ha.trans (hv.trans htakes), hlexed⟩

/-- The first of the tokens from a place on stands there. -/
theorem offset_getElem {i : Nat} (h : Lexed p (ts.drop i)) (hi : i < ts.length) :
    ts[i].offset = p.offset := by
  rw [List.drop_eq_getElem_cons hi] at h
  exact h.head_offset

end Lexed
end Scan

/-- The sources of a template literal stand as far behind its start as its chunks say. -/
theorem Token.mem_sources {t : Token} {s : String} {j : Nat} :
    (s, j) ∈ t.sources ↔
      ∃ chunks i, t.kind = .template chunks ∧ .source s i ∈ chunks ∧ j = t.offset + i := by
  unfold sources
  cases hkind : t.kind with
  | template chunks =>
    rw [List.mem_filterMap]
    constructor
    · rintro ⟨chunk, hmem, hlocated⟩
      cases chunk with
      | text s => cases hlocated
      | source s i =>
        cases hlocated
        exact ⟨chunks, i, rfl, hmem, rfl⟩
    · rintro ⟨_, i, heq, hmem, rfl⟩
      cases heq
      exact ⟨_, hmem, rfl⟩
  | _ =>
    refine iff_of_false List.not_mem_nil ?_
    rintro ⟨chunks, i, heq, -⟩
    cases heq

/-- The interpolations of a token move with it. -/
theorem Token.sources_moved {start : Nat} {t : Token} (h : start ≤ t.offset) :
    (t.moved start 0).sources = t.sources.map fun x => (x.1, x.2 - start) := by
  unfold sources moved
  dsimp only
  split
  · rw [List.map_filterMap]
    refine List.filterMap_congr fun chunk _ => ?_
    cases chunk with
    | text s => rfl
    | source s o =>
      simp only [Chunk.located?, Option.map_some, Option.some.injEq, Prod.mk.injEq, true_and]
      omega
  · rfl

open Scan
variable {source : String} {ts : List Token} {t : Token}

theorem isBoundary_of_takes {u : List Char} {n : Place}
    (h : (Place.mk source.toList 0).Takes u n) : IsBoundary source.toList n.offset :=
  isBoundary_iff.mpr ⟨u, n.rest, h.rest, h.offset.trans (Nat.zero_add _)⟩

/-- **What is wrong with a text is found at a place of the text.** -/
theorem tokenize_error {e : ScriptError} (h : tokenize source = .error e) :
    ∃ message i, e = .syntaxAt message i ∧ IsBoundary source.toList i := by
  obtain ⟨message, u, n, hu, rfl⟩ := tokens_error h
  exact ⟨message, n.offset, rfl, isBoundary_of_takes hu⟩

theorem exists_place_of_mem (h : tokenize source = .ok ts) (ht : t ∈ ts) :
    ∃ u q, (Place.mk source.toList 0).Takes u q ∧ t.offset = q.offset ∧
      (t.kind = .eof ∨ q.rest ≠ [] ∧ ∃ n, token q = .ok (t.kind, n)) := by
  obtain ⟨p, hblanks, hlexed⟩ := tokenize_eq_ok.mp h
  obtain ⟨v, hv, -⟩ := trivia_again hblanks
  obtain ⟨u, q, hu, hq⟩ := hlexed.of_mem ht
  exact ⟨v ++ u, q, hv.trans hu, hq⟩

/-- Tokens stand at places of the text. -/
theorem isBoundary_offset (h : tokenize source = .ok ts) (ht : t ∈ ts) :
    IsBoundary source.toList t.offset := by
  obtain ⟨u, q, hu, hq, -⟩ := exists_place_of_mem h ht
  rw [hq]
  exact isBoundary_of_takes hu

/-- **The source of an interpolation stands where its token and its chunk say.** -/
theorem stands_source (h : tokenize source = .ok ts) (ht : t ∈ ts) {chunks : List Chunk}
    (hkind : t.kind = .template chunks) {s : String} {i : Nat} (hs : .source s i ∈ chunks) :
    StandsAt s.toList (t.offset + i) source.toList := by
  obtain ⟨u, q, hu, hq, heof | ⟨hne, n, htoken⟩⟩ := exists_place_of_mem h ht
  · rw [hkind] at heof
    cases heof
  · rw [hkind] at htoken
    obtain ⟨cs, hrest, htemplate⟩ := templateRest_of_token htoken hne
    have hstands : AllStand ([backquote] ++ cs) chunks :=
      templateRest_stands htemplate [backquote] rfl trivial nofun
    obtain ⟨front, back, hcs, hfront, hfront'⟩ := hstands s i hs
    refine ⟨u ++ front, back, ?_, ?_, List.append_ne_nil_of_right_ne_nil _ hfront'⟩
    · rw [List.append_assoc, ← hcs, List.singleton_append, ← hrest]
      exact hu.rest
    · rw [byteLength_append, hfront, hq, hu.offset, Nat.zero_add]

/-- The sources of the interpolations stand in the text at the offsets that the tokens give them. -/
theorem stands_of_mem_sources (h : tokenize source = .ok ts) (ht : t ∈ ts) {s : String} {j : Nat}
    (hs : (s, j) ∈ t.sources) : StandsAt s.toList j source.toList := by
  obtain ⟨chunks, i, hkind, hmem, rfl⟩ := Token.mem_sources.mp hs
  exact stands_source h ht hkind hmem

/-- The last of the tokens from one up to a later one stands right before the later one. -/
theorem getLast?_between {i j : Nat} (hij : i < j) (hj : j < ts.length) :
    ((ts.drop i).take (j - i)).getLast? = some ts[j - 1] := by
  have hlength : ((ts.drop i).take (j - i)).length - 1 = j - i - 1 := by
    rw [List.length_take_of_le (by rw [List.length_drop]; omega)]
  have hplace : i + (j - i - 1) = j - 1 := by omega
  rw [List.getLast?_eq_getElem?, hlength, List.getElem?_take_of_lt (by omega),
    List.getElem?_drop, hplace, List.getElem?_eq_getElem]

/-- **A text may be cut between its tokens.**  The offsets of the tokens are places of the text, each
one behind the one before it; the text is a gap and then the tokens with gaps behind them.  What
stands from the start of one token up to the start of a later one falls into the tokens from the one
up to the other, at the same distances, those of interpolations included, and ends there, if the last
of them is no point. -/
theorem tokenize_restarts (h : tokenize source = .ok ts) :
    ts.Pairwise (fun a b => a.offset < b.offset) ∧
    (∀ t ∈ ts, IsBoundary source.toList t.offset) ∧
    (∃ gap rest, source.toList = gap ++ rest ∧ Gap rest gap ∧ Laid (byteLength gap) rest ts) ∧
    ∀ (i j : Nat) (_ : i < j) (_ : j < ts.length), ts[j - 1].kind ≠ .punctuator .dot →
      let between := (ts.drop i).take (j - i)
      ∃ part, slice? source.toList ts[i].offset ts[j].offset = some part ∧
        tokenize (String.ofList part) =
          .ok (between.map (Token.moved ts[i].offset 0) ++ [⟨.eof, byteLength part⟩]) ∧
        ∀ t ∈ between, ts[i].offset ≤ t.offset ∧
          (t.moved ts[i].offset 0).sources = t.sources.map fun x => (x.1, x.2 - ts[i].offset) := by
  obtain ⟨p, hblanks, hlexed⟩ := tokenize_eq_ok.mp h
  obtain ⟨gap, hgap, hends⟩ := trivia_gap hblanks
  have hp : p.offset = byteLength gap := hgap.offset.trans (Nat.zero_add _)
  refine ⟨hlexed.increasing, fun t => isBoundary_offset h, ⟨gap, p.rest, hgap.rest, hends, ?_⟩, ?_⟩
  · exact hp ▸ hlexed.laid
  intro i j hij hj hdot between
  have hbetween : ts.drop i = between ++ ts.drop j := by
    rw [← List.take_append_drop (j - i) (ts.drop i), List.drop_drop, Nat.add_sub_cancel' hij.le]
  have hne : ts.drop j ≠ [] := fun hnil => by
    have := List.drop_eq_nil_iff.mp hnil
    omega
  have hcut : ts = ts.take i ++ (between ++ ts.drop j) := by
    rw [← hbetween, List.take_append_drop]
  obtain ⟨w, q, hw, hlexed'⟩ := (hcut ▸ hlexed : Lexed p _).behind
    (List.append_ne_nil_of_right_ne_nil between hne)
  have hlast : ∀ t ∈ between.getLast?, t.kind ≠ .punctuator .dot := by
    intro t ht
    obtain rfl := Option.some.inj ((getLast?_between hij hj).symm.trans ht)
    exact hdot
  obtain ⟨part, q', hpart, hlexed'', hagain⟩ := hlexed'.cut hne hlast
  have hi : ts[i].offset = q.offset := (hbetween ▸ hlexed').offset_getElem (hij.trans hj)
  have hj' : ts[j].offset = q'.offset := hlexed''.offset_getElem hj
  have hfront := hgap.trans hw
  refine ⟨part, slice?_eq_some.mpr ⟨gap ++ w, q'.rest, ?_, ?_, ?_⟩, ?_, fun t ht => ?_⟩
  · rw [List.append_assoc, ← hpart.rest]
    exact hfront.rest
  · rw [hi, hfront.offset, Nat.zero_add]
  · rw [hj', hi, hpart.offset]
  · rw [hi]
    have hagain := hagain 0
    rw [Nat.zero_add] at hagain
    refine tokenize_eq_ok.mpr ⟨⟨part, 0⟩, ?_, hagain⟩
    rw [String.toList_ofList]
    exact hagain.bare
  · have hle : ts[i].offset ≤ t.offset := by
      rw [hi]
      exact hlexed'.le_offset t (List.mem_append_left _ ht)
    exact ⟨hle, Token.sources_moved hle⟩

/-- A member behind a question mark, a comment and a template literal. -/
def joinedSource : String :=
  "x?.y /* ? */ `$\x7by\x7d`;"

/-- The tokens of that source. -/
def joinedTokens : List Token :=
  [⟨.word "x", 0⟩, ⟨.punctuator .optionalChain, 1⟩, ⟨.word "y", 3⟩, ⟨.template [.source "y" 3], 13⟩,
    ⟨.punctuator .semicolon, 19⟩, ⟨.eof, 20⟩]

theorem tokenize_restarts_template : tokenize joinedSource = .ok joinedTokens ∧
    joinedTokens[3].kind ≠ .punctuator .dot ∧
    slice? joinedSource.toList 3 19 = some "y /* ? */ `$\x7by\x7d`".toList ∧
    tokenize "y /* ? */ `$\x7by\x7d`" =
      .ok [⟨.word "y", 0⟩, ⟨.template [.source "y" 3], 10⟩, ⟨.eof, 16⟩] := by
  have htokens : tokenize joinedSource = .ok joinedTokens := rfl
  have hlast : joinedTokens[3].kind ≠ .punctuator .dot := nofun
  obtain ⟨part, hpart, hagain, -⟩ :=
    (tokenize_restarts htokens).2.2.2 2 4 (by decide) (by decide) hlast
  have hslice : slice? joinedSource.toList 3 19 = some "y /* ? */ `$\x7by\x7d`".toList := by
    decide +kernel
  obtain rfl := Option.some.inj (hpart.symm.trans hslice)
  exact ⟨htokens, hlast, hslice, hagain⟩

/-- A point in front of a name is a token, but at the end of a text it belongs to the number. -/
example : (tokenize "1.x").map List.length = .ok 4 ∧ (tokenize "1.").map List.length = .ok 2 := by
  decide +kernel

end Stencil.Script
