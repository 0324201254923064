import Stencil.Proofs.Template.Agreement

/-! # Where an interpolation ends

The source of an interpolation ends at the first brace that closes none of its own.  The lexer looks
for it without reading tokens: it counts braces and steps over what stands between `'` or `"`
(`Reading.step`).  Of the tokens of the source it gets two wrong.

* A comment is not skipped: a quotation mark in it starts a quoted part, and braces in it count.
* A template literal within the source is no quoted part.  Its text is read as if it were code, and
  so are its interpolations, which for them is right.

**A source whose comments and whose template literals, outside of their interpolations, hold neither
quotation marks nor braces is found as it is** (`tokenize_interpolation`): its own braces are
balanced, and so are those around the interpolations in it.
-/
namespace Stencil.Script
open Scan

/-- The text of a chunk. -/
def Chunk.text? : Chunk → Option String
  | .text s => some s
  | .source .. => none

/-- The texts of a token that is a template literal. -/
def TokenKind.texts : TokenKind → List String
  | .template chunks => chunks.filterMap Chunk.text?
  | _ => []

/-- The texts in the template literals of a source. -/
def literalTexts (source : String) : List String :=
  match tokenize source with
  | .ok ts => ts.flatMap (·.kind.texts)
  | .error _ => []

namespace Scan
open Stencil.Text Stencil.Security

/-- The marks that the end of an interpolation depends on. -/
def delimiters : List Char :=
  ['\'', '"', '\x7b', '\x7d']

/-- Whether a text is free of these marks. -/
def IsPlainText (u : List Char) : Prop :=
  ∀ c ∈ u, c ∉ delimiters

instance : DecidablePred IsPlainText :=
  List.decidableBAll (· ∉ delimiters)

/-- What matters of an interpolation up to a place in it. -/
inductive Reading where
  /-- Nothing is quoted, and braces are open. -/
  | code (depth : Nat)
  /-- A quotation mark is open; a backslash may stand in front. -/
  | quoted (quote : Char) (escaped : Bool) (depth : Nat)

namespace Reading

/-- One character further, unless it is the brace that ends the interpolation. -/
def step : Reading → Char → Option Reading
  | .code depth, c =>
    if c = '\x7d' then if depth = 0 then none else some (.code (depth - 1))
    else if c = '\x7b' then some (.code (depth + 1))
    else if c = '\'' ∨ c = '"' then some (.quoted c false depth)
    else some (.code depth)
  | .quoted quote escaped depth, c =>
    if escaped then some (.quoted quote false depth)
    else if c = '\\' then some (.quoted quote true depth)
    else if c = quote then some (.code depth)
    else some (.quoted quote false depth)

/-- Behind a text. -/
def after? (r : Reading) (u : List Char) : Option Reading :=
  u.foldlM step r

/-- How the lexer stands. -/
def template (start : Nat) (source : List Char) : Reading → Template
  | .code depth => .code start depth source
  | .quoted quote escaped depth => .quoted quote escaped start depth source

variable {r r' : Reading} {u v : List Char} {c : Char} {depth : Nat}

theorem after?_append (r : Reading) (u v : List Char) :
    r.after? (u ++ v) = (r.after? u).bind (·.after? v) :=
  List.foldlM_append

theorem after?_cons (r : Reading) (c : Char) (u : List Char) :
    r.after? (c :: u) = (r.step c).bind (·.after? u) :=
  rfl

theorem after?_step (h : r.step c = some r') (u : List Char) :
    r.after? (c :: u) = r'.after? u := by
  rw [after?_cons, h, Option.bind_some]

theorem step_plain (hc : c ∉ delimiters) : (code depth).step c = some (.code depth) := by
  simp only [delimiters, List.mem_cons, List.not_mem_nil, or_false, not_or] at hc
  obtain ⟨hsingle, hdouble, hopen, hclose⟩ := hc
  simp only [step, hsingle, hdouble, hopen, hclose, if_false, or_self]

theorem step_open : (code depth).step '\x7b' = some (.code (depth + 1)) := rfl

theorem step_close : (code (depth + 1)).step '\x7d' = some (.code depth) := rfl

theorem step_quote (hc : c = '\'' ∨ c = '"') :
    (code depth).step c = some (.quoted c false depth) := by
  rcases hc with rfl | rfl <;> rfl

theorem after?_plain (hu : IsPlainText u) : (code depth).after? u = some (.code depth) := by
  induction u with
  | nil => rfl
  | cons c u ih =>
    obtain ⟨hc, hu⟩ := List.forall_mem_cons.mp hu
    rw [after?_step (step_plain hc), ih hu]

/-- A quoted part is passed up to its end. -/
theorem after?_guarded {q : Char} (hu : Guarded q u) :
    (quoted q false depth).after? u = some (.quoted q false depth) := by
  induction hu with
  | nil => rfl
  | cons slash mark _ ih =>
    rw [after?_cons, step, if_neg Bool.false_ne_true, if_neg slash, if_neg mark, Option.bind_some,
      ih]
  | escape _ ih => exact ih

theorem after?_string {q : Char} (hq : q = '\'' ∨ q = '"') (hu : Guarded q u) :
    (code depth).after? (q :: (u ++ [q])) = some (.code depth) := by
  have hclose : (quoted q false depth).step q = some (.code depth) := by
    rcases hq with rfl | rfl <;> rfl
  rw [after?_step (step_quote hq), after?_append, after?_guarded hu, Option.bind_some,
    after?_step hclose]
  rfl

/-! ### The lexer -/

theorem templateRest_step (h : r.step c = some r') (start : Nat) (text : List Char)
    (chunks : List Chunk) (from' : Nat) (source : List Char) (o : Nat) (rest : List Char) :
    templateRest start text chunks (r.template from' source) o (c :: rest) =
      templateRest start text chunks (r'.template from' (c :: source)) (o + c.utf8Size) rest := by
  cases r with
  | quoted quote escaped depth =>
    rw [template, templateRest]
    rw [step] at h
    by_cases hescaped : escaped = true
    · rw [if_pos hescaped] at h ⊢
      cases h
      rfl
    · rw [if_neg hescaped] at h ⊢
      by_cases hslash : c = '\\'
      · rw [if_pos hslash] at h ⊢
        cases h
        rfl
      · rw [if_neg hslash] at h ⊢
        by_cases hmark : c = quote
        · rw [if_pos hmark] at h ⊢
          cases h
          rfl
        · rw [if_neg hmark] at h ⊢
          cases h
          rfl
  | code depth =>
    rw [step] at h
    split at h
    · rename_i hc
      subst hc
      cases depth with
      | zero => cases h
      | succ depth =>
        cases h
        rfl
    · split at h
      · rename_i hc
        subst hc
        cases h
        rfl
      · split at h
        · rename_i hc
          cases h
          rcases hc with rfl | rfl <;> rfl
        · rename_i hclose hopen hquote
          rw [not_or] at hquote
          cases h
          rw [template, templateRest]
          · rfl
          · exact hopen
          · exact hquote.1
          · exact hquote.2
          · exact fun hc _ => hclose hc
          · exact fun _ hc _ => hclose hc

/-- The source of an interpolation is read as it is stepped through. -/
theorem templateRest_after (h : r.after? u = some r') (start : Nat) (text : List Char)
    (chunks : List Chunk) (from' : Nat) (source : List Char) (o : Nat) (rest : List Char) :
    templateRest start text chunks (r.template from' source) o (u ++ rest) =
      templateRest start text chunks (r'.template from' (u.reverse ++ source)) (o + byteLength u)
        rest := by
  induction u generalizing r source o with
  | nil =>
    cases h
    rfl
  | cons c u ih =>
    rw [after?_cons] at h
    obtain ⟨r₁, hstep, hafter⟩ := Option.bind_eq_some_iff.mp h
    rw [List.cons_append, templateRest_step hstep, ih hafter, List.reverse_cons, List.append_assoc,
      byteLength_cons, Nat.add_assoc]
    rfl

end Reading

/-! ## Template literals in a source -/

section Literals
variable {start : Nat} {text : List Char} {chunks parts : List Chunk} {mode : Template} {o : Nat}
  {cs rest : List Char} {n : Place}

/-- The texts of the chunks are free of delimiters. -/
def PlainTexts (chunks : List Chunk) : Prop :=
  ∀ s, .text s ∈ chunks → IsPlainText s.toList

theorem text_mem_flush (hne : text ≠ []) : .text (String.ofList text.reverse) ∈ flush text chunks := by
  unfold flush
  rw [if_neg (mt List.isEmpty_iff.mp hne)]
  exact List.mem_cons_self

/-- The characters of the text that is being read come to stand in a chunk. -/
theorem templateRest_text (h : templateRest start text chunks mode o cs = .ok (parts, n))
    (hmode : ∃ skip, mode = .text skip) (htexts : PlainTexts parts) : IsPlainText text := by
  have hflush (text : List Char) (chunks : List Chunk) (hsub : flush text chunks ⊆ parts) :
      IsPlainText text := by
    intro c hc
    have hchunk := hsub (text_mem_flush (List.ne_nil_of_mem hc))
    have hplain := htexts _ hchunk
    rw [String.toList_ofList] at hplain
    exact hplain c (List.mem_reverse.mpr hc)
  fun_induction templateRest start text chunks mode o cs
  case case1 => cases h
  case case6 => cases h
  case case2 ih => exact ih h ⟨_, rfl⟩
  case case3 text chunks o rest ih => exact hflush text chunks (templateRest_chunks h)
  case case4 text chunks o rest _ =>
    cases h
    exact hflush text chunks fun chunk hchunk => List.mem_reverse.mpr hchunk
  case case5 ih => exact (List.forall_mem_cons.mp (ih h ⟨_, rfl⟩)).2
  case case7 ih => exact (List.forall_mem_cons.mp (ih h ⟨_, rfl⟩)).2
  all_goals
    obtain ⟨skip, hmode⟩ := hmode
    cases hmode

/-- An escape sequence for a character that is no delimiter holds none. -/
theorem isPlainText_of_escape {taken : Nat} {image : Char} {body : List Char}
    (h : escape start (body ++ rest) = .ok (image, taken)) (htaken : taken ≤ body.length)
    (himage : image ∉ delimiters) : IsPlainText (body.take taken) := by
  have hsimple : ∀ d ∈ delimiters, simpleEscape d = d := by simp [delimiters, simpleEscape]
  have hhex : ∀ d ∈ delimiters, isHexDigit d = false := by
    simp only [delimiters, List.forall_mem_cons]
    exact ⟨rfl, rfl, rfl, rfl, List.forall_mem_nil _⟩
  obtain ⟨c, hc, hx, hu⟩ | ⟨c, ds, hds, hdigits, hletter⟩ := (isEscape_take h htaken).forms
  · rw [hc]
    obtain ⟨r, rfl⟩ : ∃ r, body = c :: r := by
      cases body with
      | nil => cases taken <;> cases hc
      | cons b r =>
        cases taken with
        | zero => cases hc
        | succ taken => exact ⟨r, congrArg (· :: r) (List.cons.inj hc).1⟩
    have hescape : escape start (c :: (r ++ rest)) = .ok (simpleEscape c, 1) := by
      rw [escape]
      · exact hx
      · exact hu
    obtain ⟨rfl, -⟩ := Prod.mk.inj (Except.ok.inj (h.symm.trans hescape))
    exact List.forall_mem_singleton.mpr fun hmem => himage ((hsimple c hmem).symm ▸ hmem)
  · rw [hds]
    refine List.forall_mem_cons.mpr ⟨?_, fun d hd hmem => ?_⟩
    · rcases hletter with ⟨rfl, -⟩ | ⟨rfl, -⟩ <;> decide
    · have hdigit := hdigits d hd
      rw [hhex d hmem] at hdigit
      cases hdigit

/-- How a source stands that holds the rest of a template literal. -/
def Template.reading (depth : Nat) : Template → Reading
  | .text _ => .code depth
  | .code _ inner _ => .code (depth + 1 + inner)
  | .quoted quote escaped _ inner _ => .quoted quote escaped (depth + 1 + inner)

/-- **A template literal in a source is passed** if its texts are free of delimiters: the braces
around its interpolations are closed, and what is within them is read in the same way. -/
theorem templateRest_reading (h : templateRest start text chunks mode o cs = .ok (parts, n))
    (htexts : PlainTexts parts) : ∃ body, cs = body ++ backquote :: n.rest ∧
      mode.skip ≤ body.length ∧
      ∀ depth, (mode.reading depth).after? (body.drop mode.skip) = some (.code depth) := by
  fun_induction templateRest start text chunks mode o cs
  case case1 => cases h
  case case6 => cases h
  case case2 ih =>
    obtain ⟨body, rfl, hskip, hbody⟩ := ih h
    exact ⟨_ :: body, rfl, Nat.succ_le_succ hskip, hbody⟩
  case case3 rest ih =>
    obtain ⟨body, rfl, -, hbody⟩ := ih h
    refine ⟨'$' :: '\x7b' :: body, rfl, Nat.zero_le _, fun depth => ?_⟩
    exact hbody depth
  case case4 =>
    cases h
    exact ⟨[], rfl, Nat.zero_le _, fun _ => rfl⟩
  case case5 image taken hescape _ _ ih =>
    obtain ⟨body, rfl, hskip, hbody⟩ := ih h
    have himage : image ∉ delimiters :=
      templateRest_text h ⟨_, rfl⟩ htexts image List.mem_cons_self
    have hplain := isPlainText_of_escape hescape hskip himage
    refine ⟨_ :: body, rfl, Nat.zero_le _, fun depth => ?_⟩
    have happend := Reading.after?_append (.code depth) (body.take taken) (body.drop taken)
    rw [List.take_append_drop, Reading.after?_plain hplain, Option.bind_some] at happend
    refine (Reading.after?_step (Reading.step_plain (by decide)) body).trans ?_
    exact happend.trans (hbody depth)
  case case7 text chunks o c rest _ _ _ ih =>
    obtain ⟨body, rfl, -, hbody⟩ := ih h
    have hc : c ∉ delimiters := templateRest_text h ⟨_, rfl⟩ htexts c List.mem_cons_self
    refine ⟨c :: body, rfl, Nat.zero_le _, fun depth => ?_⟩
    exact (Reading.after?_step (Reading.step_plain hc) body).trans (hbody depth)
  case case8 from' source o rest chunk ih =>
    obtain ⟨body, rfl, -, hbody⟩ := ih h
    exact ⟨'\x7d' :: body, rfl, Nat.zero_le _, hbody⟩
  case case13 c _ inner hzero hsucc hopen hsingle hdouble ih =>
    obtain ⟨body, rfl, -, hbody⟩ := ih h
    have hclose : c ≠ '\x7d' := fun hc => by
      cases inner with
      | zero => exact hzero hc rfl
      | succ inner => exact hsucc inner hc rfl
    have hc : c ∉ delimiters := by
      simp only [delimiters, List.mem_cons, List.not_mem_nil, or_false, not_or]
      exact ⟨hsingle, hdouble, hopen, hclose⟩
    refine ⟨c :: body, rfl, Nat.zero_le _, fun depth => ?_⟩
    exact (Reading.after?_step (Reading.step_plain hc) body).trans (hbody depth)
  case case14 quote escaped from' inner source o c rest mode ih =>
    obtain ⟨body, rfl, -, hbody⟩ := ih h
    refine ⟨c :: body, rfl, Nat.zero_le _, fun depth => ?_⟩
    have hstep : (Reading.quoted quote escaped (depth + 1 + inner)).step c =
        some (mode.reading depth) := by
      unfold mode
      rw [Reading.step, apply_ite (Template.reading depth), apply_ite (Template.reading depth),
        apply_ite (Template.reading depth), apply_ite some, apply_ite some, apply_ite some]
      rfl
    have hskip : mode.skip = 0 := by
      unfold mode
      rw [apply_ite Template.skip, apply_ite Template.skip, apply_ite Template.skip]
      simp only [Template.skip, ite_self]
    have hbody := hbody depth
    rw [hskip] at hbody
    exact (Reading.after?_step hstep body).trans hbody
  all_goals
    rename_i ih
    obtain ⟨body, rfl, -, hbody⟩ := ih h
    refine ⟨_ :: body, rfl, Nat.zero_le _, hbody⟩

end Literals

/-! ## Tokens of a source -/

section Tokens
variable {p q n : Place} {u rest : List Char} {k : TokenKind} {depth depth' : Nat}

theorem isPlainText_of_isMark (h : ∀ c ∈ u, isMark c = false) : IsPlainText u := by
  have hmarks : ∀ d ∈ delimiters, isMark d = true := by
    simp only [delimiters, List.forall_mem_cons]
    exact ⟨rfl, rfl, rfl, rfl, List.forall_mem_nil _⟩
  intro c hc hmem
  have hplain := h c hc
  rw [hmarks c hmem] at hplain
  cases hplain

theorem isPlainText_spelling {q : Punctuator} (hopen : q ≠ .openBrace) (hclose : q ≠ .closeBrace) :
    IsPlainText q.spelling.toList := by
  have hall : q.spelling.toList.all (fun c => !delimiters.contains c) = true := by
    cases q <;> first | decide | exact absurd rfl hopen | exact absurd rfl hclose
  intro c hc hmem
  have hplain := List.all_eq_true.mp hall c hc
  rw [List.contains_iff_mem.mpr hmem] at hplain
  cases hplain

/-- A token that is no template literal is passed as the parser counts its braces. -/
theorem after?_lexeme (h : Lexeme u k rest) (hk : ∀ chunks, k ≠ .template chunks)
    (hbraces : k.braces? depth = some depth') :
    (Reading.code depth).after? u = some (.code depth') := by
  cases h with
  | number chars _ =>
    cases hbraces
    exact Reading.after?_plain (isPlainText_of_isMark chars)
  | string isQuote guarded _ =>
    cases hbraces
    exact Reading.after?_string isQuote.symm guarded
  | template => exact (hk _ rfl).elim
  | word _ chars _ =>
    cases hbraces
    exact Reading.after?_plain (isPlainText_of_isMark fun c hc => isMark_of_isNameChar (chars c hc))
  | punctuator q =>
    by_cases hopen : q = .openBrace
    · subst hopen
      cases hbraces
      rfl
    · by_cases hclose : q = .closeBrace
      · subst hclose
        cases depth with
        | zero => cases hbraces
        | succ depth =>
          cases hbraces
          rfl
      · have hinner : (TokenKind.punctuator q).isInner = true := by
          cases q <;> first | rfl | exact absurd rfl hopen | exact absurd rfl hclose
        rw [TokenKind.braces?_of_isInner hinner] at hbraces
        cases hbraces
        exact Reading.after?_plain (isPlainText_spelling hopen hclose)

/-- A template literal is read from behind its first mark. -/
theorem templateRest_of_token {chunks : List Chunk} (h : token p = .ok (.template chunks, n))
    (hp : p.rest ≠ []) : ∃ cs, p.rest = backquote :: cs ∧
      templateRest p.offset [] [] (.text 0) 1 cs = .ok (chunks, n) := by
  obtain ⟨cs, o⟩ := p
  obtain ⟨c, rest, rfl⟩ := List.exists_cons_of_ne_nil hp
  rw [token_cons] at h
  split at h
  · obtain ⟨x, hx⟩ := kind_of_number h
    cases hx
  · split at h
    · cases hstring : stringRest c o [] 0 (o + 1) rest <;> rw [hstring] at h <;> cases h
    · split at h
      · rename_i hquote
        cases htemplate : templateRest o [] [] (.text 0) 1 rest with
        | error e =>
          rw [htemplate] at h
          cases h
        | ok x =>
          rw [htemplate] at h
          cases h
          exact ⟨rest, congrArg (· :: rest) hquote, htemplate⟩
      · split at h
        · cases h
        · obtain ⟨q, hq, -⟩ := punctuator_spelling h
          cases hq

/-- **A token of a source is passed** as the parser counts its braces. -/
theorem after?_token (h : token p = .ok (k, n)) (hp : p.rest ≠ [])
    (htexts : ∀ s ∈ k.texts, IsPlainText s.toList) (hbraces : k.braces? depth = some depth') :
    ∃ u, p.rest = u ++ n.rest ∧ (Reading.code depth).after? u = some (.code depth') := by
  by_cases hk : ∃ chunks, k = .template chunks
  · obtain ⟨chunks, rfl⟩ := hk
    cases hbraces
    obtain ⟨cs, hrest, htemplate⟩ := templateRest_of_token h hp
    have hplain : PlainTexts chunks := fun s hs => htexts s (List.mem_filterMap.mpr ⟨_, hs, rfl⟩)
    obtain ⟨body, rfl, -, hbody⟩ := templateRest_reading htemplate hplain
    have hmark : (Reading.code depth).step backquote = some (.code depth) :=
      Reading.step_plain (by decide)
    refine ⟨backquote :: (body ++ [backquote]), by rw [hrest]; simp, ?_⟩
    rw [Reading.after?_step hmark, Reading.after?_append]
    refine (congrArg (Option.bind · _) (hbody depth)).trans ?_
    exact Reading.after?_step hmark []
  · obtain ⟨u, hu, hlexeme⟩ := lexeme_of_token h hp
    exact ⟨u, hu, after?_lexeme hlexeme (fun chunks hchunks => hk ⟨chunks, hchunks⟩) hbraces⟩

/-- **The tokens of a source are passed, and what stands between them.** -/
theorem after?_lexed {ts : List Token} {fuel : Nat} (h : Lexed q ts)
    (hblanks : trivia .blanks p.offset p.rest = .ok q) (hfuel : p.rest.length < fuel)
    (hgaps : ∀ u ∈ skipped fuel p, IsPlainText u)
    (htexts : ∀ t ∈ ts, ∀ s ∈ t.kind.texts, IsPlainText s.toList)
    (hbraces : braces? ts depth = some depth') :
    (Reading.code depth).after? p.rest = some (.code depth') := by
  -- by induction on the tokens; in front of each of them, a gap and the lexeme are passed
  induction h generalizing p fuel depth with
  | done =>
    obtain ⟨v, htakes, -⟩ := trivia_again hblanks
    have hrest : p.rest = v := htakes.rest.trans (List.append_nil v)
    cases hbraces
    cases fuel with
    | zero => exact absurd hfuel (Nat.not_lt_zero _)
    | succ fuel =>
      rw [hrest]
      exact Reading.after?_plain (hgaps v (mem_skipped hblanks htakes.rest))
  | @next q n' q' k ts bare ne htoken blanks rest ih =>
    obtain ⟨v, htakes, -⟩ := trivia_again hblanks
    obtain ⟨hhead, htail⟩ := List.forall_mem_cons.mp htexts
    rw [braces?_cons] at hbraces
    obtain ⟨n₁, hkind, hbraces⟩ := Option.bind_eq_some_iff.mp hbraces
    obtain ⟨u, hu, hfirst⟩ := after?_token htoken ne hhead hkind
    cases fuel with
    | zero => exact absurd hfuel (Nat.not_lt_zero _)
    | succ fuel =>
      have hlt := token_length hblanks htoken ne
      have hgap := hgaps v (mem_skipped hblanks htakes.rest)
      have hbehind : (Reading.code n₁).after? n'.rest = some (.code depth') :=
        ih blanks (by omega) (fun w hw => hgaps w (skipped_subset hblanks ne htoken hw)) htail
          hbraces
      rw [htakes.rest, hu, Reading.after?_append, Reading.after?_plain hgap, Option.bind_some,
        Reading.after?_append, hfirst, Option.bind_some, hbehind]

end Tokens

/-! ## The literal around a source -/

/-- A template literal that is a single interpolation of a source whose own braces are balanced. -/
theorem templateRest_interpolation {e : List Char} (h : (Reading.code 0).after? e = some (.code 0))
    (start : Nat) : templateRest start [] [] (.text 0) 1 ('$' :: '\x7b' :: (e ++ ['\x7d', backquote])) =
      .ok ([.source (String.ofList e) 3], ⟨[], start + (byteLength e + 5)⟩) := by
  have hread := Reading.templateRest_after h start [] [] 3 [] 3 ['\x7d', backquote]
  refine hread.trans ?_
  show Except.ok ([Chunk.source (String.ofList (e.reverse ++ []).reverse) 3],
    (⟨[], start + (3 + byteLength e + 1 + 1)⟩ : Place)) = _
  rw [List.append_nil, List.reverse_reverse, Nat.add_assoc, Nat.add_assoc, Nat.add_comm 3]

end Scan

/-- The source as the only interpolation of a template literal. -/
def interpolated (source : String) : String :=
  "`$\x7b" ++ source ++ "\x7d`"

/-- **The source of an interpolation is found as it is**, if its tokens are balanced and if neither
its comments nor the texts of template literals in it hold quotation marks or braces. -/
theorem tokenize_interpolated {e : String} {ts : List Token} (hts : tokenize e = .ok ts)
    (hbraces : braces? ts 0 = some 0) (hgaps : ∀ u ∈ gaps e, IsPlainText u)
    (htexts : ∀ s ∈ literalTexts e, IsPlainText s.toList) :
    tokenize (interpolated e) =
      .ok [⟨.template [.source e 3], 0⟩, ⟨.eof, e.utf8ByteSize + 5⟩] := by
  obtain ⟨q, hblanks, hlexed⟩ := tokenize_eq_ok.mp hts
  have htexts : ∀ t ∈ ts, ∀ s ∈ t.kind.texts, IsPlainText s.toList := by
    intro t ht s hs
    refine htexts s ?_
    rw [literalTexts, hts]
    exact List.mem_flatMap.mpr ⟨t, ht, hs⟩
  have hafter : (Reading.code 0).after? e.toList = some (.code 0) :=
    after?_lexed (p := ⟨e.toList, 0⟩) hlexed hblanks (Nat.lt_succ_self _) hgaps htexts hbraces
  have htoList : (interpolated e).toList =
      backquote :: '$' :: '\x7b' :: (e.toList ++ ['\x7d', backquote]) := by
    rw [interpolated, String.toList_append, String.toList_append]
    rfl
  have htoken : Scan.token ⟨(interpolated e).toList, 0⟩ =
      .ok (.template [.source e 3], ⟨[], e.utf8ByteSize + 5⟩) := by
    have hlength : Text.byteLength e.toList = e.utf8ByteSize := by
      rw [← Text.utf8ByteSize_ofList, String.ofList_toList]
    have hnumber (rest : List Char) : ¬ startsNumber backquote rest = true := Bool.false_ne_true
    rw [htoList, token_cons, if_neg (hnumber _), if_neg (by decide), if_pos rfl,
      templateRest_interpolation hafter, String.ofList_toList, hlength, Nat.zero_add]
    rfl
  refine tokenize_eq_ok.mpr ⟨⟨(interpolated e).toList, 0⟩, ?_, ?_⟩
  · rw [htoList]
    rfl
  · exact .next (by rw [htoList]; rfl) (by rw [htoList]; exact List.cons_ne_nil _ _) htoken rfl .done

/-- A template literal with an object in an interpolation, and a comment behind it. -/
def nestedLiteral : String :=
  "f(`a $\x7b\x7bkey: '\x7d`'\x7d\x7d`) // done"

theorem tokenize_interpolated_nested : ∃ ts, tokenize nestedLiteral = .ok ts ∧
    braces? ts 0 = some 0 ∧ (∀ u ∈ gaps nestedLiteral, IsPlainText u) ∧
      (∀ s ∈ literalTexts nestedLiteral, IsPlainText s.toList) ∧
      tokenize (interpolated nestedLiteral) =
        .ok [⟨.template [.source nestedLiteral 3], 0⟩, ⟨.eof, nestedLiteral.utf8ByteSize + 5⟩] := by
  have hbalanced : (tokenize nestedLiteral).toOption.bind (braces? · 0) = some 0 := by
    decide +kernel
  have hgaps : ∀ u ∈ gaps nestedLiteral, IsPlainText u := by decide +kernel
  have htexts : ∀ s ∈ literalTexts nestedLiteral, IsPlainText s.toList := by decide +kernel
  cases hts : tokenize nestedLiteral with
  | error e =>
    rw [hts] at hbalanced
    cases hbalanced
  | ok ts =>
    rw [hts] at hbalanced
    exact ⟨ts, rfl, hbalanced, hgaps, htexts,
      tokenize_interpolated hts hbalanced hgaps htexts⟩

/-- A brace in the text of a template literal ends the interpolation that the literal stands in. -/
example : (tokenize "`\x7d`").toOption.bind (braces? · 0) = some 0 ∧
    (tokenize (interpolated "`\x7d`")).isOk = false := by
  decide +kernel

/-- An apostrophe in a comment hides the end of the interpolation that the comment stands in. -/
example : (tokenize "x /* it's */").toOption.bind (braces? · 0) = some 0 ∧
    (tokenize (interpolated "x /* it's */")).isOk = false := by
  decide +kernel

end Stencil.Script
