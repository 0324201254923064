import Stencil.Proofs.Script.Parser.Parts
import Stencil.Proofs.Script.Token.Spelling
import Stencil.Proofs.Template.Pieces

/-! # Where the expression of a block ends

A block ends at the first double braces behind its expression.  Nothing is parsed to find them:
`close?` counts braces and steps over quoted parts by itself, while the lexer knows tokens.  The two
see the same quoted parts and the same braces (`passes_of_lexed`), with two exceptions.

* A comment is not skipped: a quotation mark in it opens a quoted part, and braces in it count.
* A template literal is one quoted part, whatever its interpolations hold.  A mark in one of them
  that delimits template literals ends the part early.

**A program whose comments hold neither quotation marks nor braces and whose interpolations hold no
such mark is found between double braces as it is** (`nextBlockFrom_of_parseProgram`): the braces of
a program are balanced, so none that stands in front of its end can be taken for the end of the
block.
-/
namespace Stencil.Script
open Scan

/-! ## What makes a source plain -/

namespace Scan

/-- The texts that are skipped in front of the tokens from a place on, and behind the last one.
`fuel` exceeds the number of characters to come. -/
def skipped : Nat → Place → List (List Char)
  | 0, _ => []
  | fuel + 1, p =>
    match trivia .blanks p.offset p.rest with
    | .error _ => []
    | .ok q =>
      p.rest.take (p.rest.length - q.rest.length) ::
        if q.rest.isEmpty then []
        else match token q with
          | .ok (_, n) => skipped fuel n
          | .error _ => []

end Scan

/-- The blanks and comments between the tokens of a source. -/
def gaps (source : String) : List (List Char) :=
  Scan.skipped (source.toList.length + 1) ⟨source.toList, 0⟩

/-- The source of an interpolation. -/
def Chunk.source? : Chunk → Option String
  | .source s _ => some s
  | .text _ => none

/-- The interpolations of a token. -/
def TokenKind.interpolations : TokenKind → List String
  | .template chunks => chunks.filterMap Chunk.source?
  | _ => []

/-- The interpolations in the template literals of a source. -/
def interpolations (source : String) : List String :=
  match tokenize source with
  | .ok ts => ts.flatMap (·.kind.interpolations)
  | .error _ => []

/-- No comment of the source holds a quotation mark or a brace. -/
def PlainGaps (source : String) : Prop :=
  ∀ u ∈ gaps source, u.any isMark = false
  deriving Decidable

/-- No interpolation of the source holds the mark that delimits template literals. -/
def PlainInterpolations (source : String) : Prop :=
  ∀ s ∈ interpolations source, backquote ∉ s.toList
  deriving Decidable

theorem plainChunks_of_interpolations {chunks : List Chunk}
    (h : ∀ s ∈ (TokenKind.template chunks).interpolations, backquote ∉ s.toList) :
    PlainChunks chunks :=
  fun s _ hs => h s (List.mem_filterMap.mpr ⟨_, hs, rfl⟩)

theorem mem_interpolations {source s : String} {ts : List Token} {t : Token}
    (hts : tokenize source = .ok ts) (ht : t ∈ ts) (hs : s ∈ t.kind.interpolations) :
    s ∈ interpolations source := by
  unfold interpolations
  rw [hts]
  exact List.mem_flatMap.mpr ⟨t, ht, hs⟩

namespace Scan
variable {p q n : Place} {v : List Char} {k : TokenKind} {fuel : Nat}

theorem skipped_succ (h : trivia .blanks p.offset p.rest = .ok q) (hv : p.rest = v ++ q.rest) :
    skipped (fuel + 1) p = v :: if q.rest.isEmpty then [] else
      match token q with
      | .ok (_, n) => skipped fuel n
      | .error _ => [] := by
  have htake : p.rest.take (p.rest.length - q.rest.length) = v := by
    rw [hv, List.length_append, Nat.add_sub_cancel]
    exact List.take_left
  rw [skipped, h]
  dsimp only
  rw [htake]

theorem mem_skipped (h : trivia .blanks p.offset p.rest = .ok q) (hv : p.rest = v ++ q.rest) :
    v ∈ skipped (fuel + 1) p := by
  rw [skipped_succ h hv]
  exact List.mem_cons_self

/-- What is skipped behind a token is skipped. -/
theorem skipped_subset (h : trivia .blanks p.offset p.rest = .ok q) (hq : q.rest ≠ [])
    (htoken : token q = .ok (k, n)) : skipped fuel n ⊆ skipped (fuel + 1) p := by
  obtain ⟨v, htakes, -⟩ := trivia_again h
  rw [skipped_succ h htakes.rest, if_neg fun hend => hq (List.isEmpty_iff.mp hend), htoken]
  exact List.subset_cons_self v _

end Scan
end Stencil.Script

namespace Stencil.Template
open Text Script Scan

/-! ## Passing characters -/

/-- Outside of quotes, the characters are passed on the way to the end of a block; in front of them
`n` braces are open, and behind them `m`. -/
def Passes (u : List Char) (n m : Nat) : Prop :=
  ∀ seen rest, close? seen n none (u ++ rest) = close? (u.reverse ++ seen) m none rest

/-- A quoted part is passed up to its end. -/
theorem close?_guarded {q : Char} {u : List Char} (h : Guarded q u) (seen rest : List Char)
    (depth : Nat) :
    close? seen depth (some q) (u ++ rest) = close? (u.reverse ++ seen) depth (some q) rest := by
  induction h generalizing seen with
  | nil => rfl
  | @cons c u slash mark _ ih =>
    rw [List.cons_append, close?_quoted slash, if_neg mark, ih, List.reverse_cons,
      List.append_assoc]
    rfl
  | @escape d u _ ih =>
    have hpass : close? seen depth (some q) ('\\' :: d :: (u ++ rest)) =
        close? (d :: '\\' :: seen) depth (some q) (u ++ rest) := by
      rw [close?.eq_def]
      rfl
    rw [List.cons_append, List.cons_append, hpass, ih]
    simp only [List.reverse_cons, List.append_assoc]
    rfl

namespace Passes
variable {u v : List Char} {n k m : Nat}

theorem nil : Passes [] n n :=
  fun _ _ => rfl

theorem trans (hu : Passes u n k) (hv : Passes v k m) : Passes (u ++ v) n m := by
  intro seen rest
  rw [List.append_assoc, hu, hv, List.reverse_append, List.append_assoc]

/-- Characters that are neither quotation marks nor braces. -/
theorem plain (h : u.any isMark = false) : Passes u n n := by
  induction u with
  | nil => exact .nil
  | cons c u ih =>
    obtain ⟨hc, hu⟩ := Bool.or_eq_false_iff.mp h
    have hne : ∀ d ∈ marks, c ≠ d := by
      rintro d hd rfl
      rw [isMark, List.contains_iff_mem.mpr hd] at hc
      cases hc
    have hquote : ¬ isQuote c = true := by
      intro hquote
      rcases Bool.or_eq_true_iff.mp hquote with hquote | hback
      · rcases Bool.or_eq_true_iff.mp hquote with hsingle | hdouble
        · exact hne _ (by decide) (eq_of_beq hsingle)
        · exact hne _ (by decide) (eq_of_beq hdouble)
      · exact hne backquote (by decide) (eq_of_beq hback)
    intro seen rest
    rw [List.cons_append, close?_other hquote (hne _ (by decide)) (hne _ (by decide)), ih hu,
      List.reverse_cons, List.append_assoc]
    rfl

theorem opens : Passes ['\x7b'] n (n + 1) :=
  fun _ _ => close?_open

theorem closes : Passes ['\x7d'] (n + 1) n :=
  fun _ _ => close?_close fun _ hzero => absurd hzero (Nat.succ_ne_zero n)

/-- A quoted part. -/
theorem quoted {q : Char} {body : List Char} (hquote : isQuote q = true) (h : Guarded q body) :
    Passes (q :: (body ++ [q])) n n := by
  have hslash : q ≠ '\\' := by
    rintro rfl
    exact absurd hquote (by decide)
  intro seen rest
  rw [List.cons_append, List.append_assoc, close?_quote hquote, close?_guarded h,
    List.singleton_append, close?_quoted hslash, if_pos rfl]
  simp only [List.reverse_cons, List.reverse_append, List.reverse_nil, List.append_assoc,
    List.nil_append, List.cons_append]

end Passes

/-! ## Passing tokens -/

section Tokens
variable {u rest : List Char} {k : TokenKind} {n m : Nat}

/-- A punctuator that is no brace holds no mark. -/
theorem passes_of_punctuator {q : Punctuator}
    (h : (TokenKind.punctuator q).braces? n = some m) : Passes q.spelling.toList n m := by
  by_cases hopen : q = .openBrace
  · subst hopen
    cases h
    exact .opens
  · by_cases hclose : q = .closeBrace
    · subst hclose
      cases n with
      | zero => cases h
      | succ n =>
        cases h
        exact .closes
    · have hplain : q.spelling.toList.any isMark = false := by
        cases q <;> first | decide | exact absurd rfl hopen | exact absurd rfl hclose
      have hinner : (TokenKind.punctuator q).isInner = true := by
        cases q <;> first | rfl | exact absurd rfl hopen | exact absurd rfl hclose
      rw [TokenKind.braces?_of_isInner hinner] at h
      cases h
      exact .plain hplain

/-- **A token is passed as the parser counts its braces.** -/
theorem passes_of_lexeme (h : Lexeme u k rest)
    (hplain : ∀ s ∈ k.interpolations, backquote ∉ s.toList) (hbraces : k.braces? n = some m) :
    Passes u n m := by
  cases h with
  | number chars _ =>
    cases hbraces
    exact .plain (List.any_eq_false.mpr fun c hc => Bool.eq_false_iff.mp (chars c hc))
  | string isQuote guarded _ =>
    cases hbraces
    refine .quoted ?_ guarded
    rcases isQuote with rfl | rfl <;> decide
  | template _ guarded =>
    cases hbraces
    exact .quoted (by decide) (guarded (plainChunks_of_interpolations hplain))
  | word _ chars _ =>
    cases hbraces
    refine .plain (List.any_eq_false.mpr fun c hc => ?_)
    exact Bool.eq_false_iff.mp (isMark_of_isNameChar (chars c hc))
  | punctuator q => exact passes_of_punctuator hbraces

/-- **The tokens of a text are passed, and what stands between them.** -/
theorem passes_of_lexed {p q : Place} {ts : List Token} {fuel : Nat} (h : Lexed q ts)
    (hblanks : trivia .blanks p.offset p.rest = .ok q) (hfuel : p.rest.length < fuel)
    (hgaps : ∀ u ∈ skipped fuel p, u.any isMark = false)
    (hplain : ∀ t ∈ ts, ∀ s ∈ t.kind.interpolations, backquote ∉ s.toList)
    (hbraces : braces? ts n = some m) : Passes p.rest n m := by
  -- by induction on the tokens; in front of each of them, a gap and the lexeme are passed
  induction h generalizing p fuel n with
  | done =>
    obtain ⟨v, htakes, -⟩ := trivia_again hblanks
    have hrest : p.rest = v := htakes.rest.trans (List.append_nil v)
    cases hbraces
    cases fuel with
    | zero => exact absurd hfuel (Nat.not_lt_zero _)
    | succ fuel =>
      rw [hrest]
      exact .plain (hgaps v (mem_skipped hblanks htakes.rest))
  | @next q n' q' k ts bare ne htoken blanks rest ih =>
    obtain ⟨v, htakes, -⟩ := trivia_again hblanks
    obtain ⟨u, hu, hlexeme⟩ := lexeme_of_token htoken ne
    obtain ⟨hhead, htail⟩ := List.forall_mem_cons.mp hplain
    rw [braces?_cons] at hbraces
    obtain ⟨n₁, hkind, hbraces⟩ := Option.bind_eq_some_iff.mp hbraces
    cases fuel with
    | zero => exact absurd hfuel (Nat.not_lt_zero _)
    | succ fuel =>
      have hlt := token_length hblanks htoken ne
      have hgap : Passes v n n := .plain (hgaps v (mem_skipped hblanks htakes.rest))
      have hfirst : Passes u n n₁ := passes_of_lexeme hlexeme hhead hkind
      have hbehind : Passes n'.rest n₁ m :=
        ih blanks (by omega) (fun w hw => hgaps w (skipped_subset hblanks ne htoken hw)) htail
          hbraces
      rw [htakes.rest, hu]
      exact hgap.trans (hfirst.trans hbehind)

end Tokens

/-! ## Programs between braces -/

theorem enclose_of_passes {u : List Char} (h : Passes u 0 0) (before after : List Char) :
    enclose before (u ++ closing ++ after) = .found before u after := by
  have hclose : close? [] 0 none (u ++ closing ++ after) = some (u, after) := by
    rw [List.append_assoc, h]
    show some ((u.reverse ++ []).reverse, after) = some (u, after)
    rw [List.append_nil, List.reverse_reverse]
  unfold enclose
  rw [hclose]

/-- **A program is found between double braces as it is**, if its comments hold neither quotation
marks nor braces, and if no interpolation of its template literals holds the mark that delimits
these. -/
theorem nextBlockFrom_of_parseProgram {source : String} {body : List Stmt}
    (hparse : parseProgram source = .ok body) (hgaps : PlainGaps source)
    (hinterpolations : PlainInterpolations source) (after : List Char) :
    nextBlockFrom (opening ++ source.toList ++ closing ++ after) 0 =
      (0, .found [] source.toList after) := by
  -- no brace is open behind the program, since those of its tokens are balanced
  obtain ⟨statements, hrun, -⟩ := Parser.bind_eq_ok.mp hparse
  obtain ⟨ts, hts, hbalanced⟩ := Parser.balanced_of_run hrun
  obtain ⟨q, hblanks, hlexed⟩ := tokenize_eq_ok.mp hts
  have hpasses : Passes source.toList 0 0 :=
    passes_of_lexed (p := ⟨source.toList, 0⟩) hlexed hblanks (Nat.lt_succ_self _) hgaps
      (fun t ht s hs => hinterpolations s (mem_interpolations hts ht hs)) (hbalanced 0)
  have hopen : breakOn? opening (opening ++ (source.toList ++ closing ++ after)) =
      some ([], source.toList ++ closing ++ after) := rfl
  have hsplit (cs : List Char) : nextBlockFrom cs 0 = (0, nextBlock cs) := by
    cases cs <;> rfl
  rw [hsplit, List.append_assoc, List.append_assoc, ← List.append_assoc source.toList, nextBlock,
    hopen]
  dsimp only
  rw [enclose_of_passes hpasses]

/-- An object with braces in a string and in a template literal, with another object in it, and with
a comment behind it. -/
def bracedProgram : String :=
  "(\x7ba: '\x7d\x7d', b: `\x7b\x7b$\x7bx\x7d`, c: \x7b\x7d\x7d) // done"

theorem nextBlockFrom_of_parseProgram_braced : ∃ body,
    parseProgram bracedProgram = .ok body ∧ PlainGaps bracedProgram ∧
      PlainInterpolations bracedProgram ∧
      nextBlockFrom (opening ++ bracedProgram.toList ++ closing ++ [' ', '!']) 0 =
        (0, .found [] bracedProgram.toList [' ', '!']) := by
  have hparses : (parseProgram bracedProgram).isOk = true := by decide +kernel
  have hgaps : PlainGaps bracedProgram := by decide +kernel
  have hinterpolations : PlainInterpolations bracedProgram := by decide +kernel
  rcases hparse : parseProgram bracedProgram with e | body
  · rw [hparse] at hparses
    cases hparses
  · exact ⟨body, rfl, hgaps, hinterpolations,
      nextBlockFrom_of_parseProgram hparse hgaps hinterpolations _⟩

/-- A comment with an apostrophe hides the end of the block. -/
example : (parseProgram "1 // it's\n").isOk = true ∧
    nextBlock (opening ++ "1 // it's\n".toList ++ closing) =
      .unclosed [] ("1 // it's\n".toList ++ closing) := by
  decide +kernel

/-- A mark in a string of an interpolation ends the quoted part, so that the braces behind it end
the block. -/
example : (parseProgram "`$\x7b'`\x7d\x7d'\x7d`").isOk = true ∧
    nextBlock (opening ++ "`$\x7b'`\x7d\x7d'\x7d`".toList ++ closing) =
      .found [] "`$\x7b'`".toList ("'\x7d`".toList ++ closing) := by
  decide +kernel

end Stencil.Template
