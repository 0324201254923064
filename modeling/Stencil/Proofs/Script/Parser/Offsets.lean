import Stencil.Proofs.Script.Parser.Parts
import Stencil.Proofs.Script.Parser.Uniformity

/-! # Offsets of syntax errors

Put a text into an interpolation of a source, or into one that is itself in the text of another one,
and so on (`Nested`).  Reading the source does not get past this text without parsing it alone, and
what that reports is what the source reports, moved to where the text stands (`Locates`).  For one
hole this is read off the runs of the parser on the tokens (`locates_of_uniform`): a parser that
reads up to the end comes to the hole, unless it has failed before.  From there it goes by induction
on the holes (`Locates.cons`).

That errors are found at character boundaries is the same fact about runs once more, with the
boundaries as the allowed offsets; as errors in interpolations are moved, this goes by induction on
the length of the text (`foundIn_of_alone`).
-/
namespace Stencil.ScriptError

theorem shift_zero (e : ScriptError) : e.shift 0 = e := by
  cases e with
  | malformed message offset => cases offset <;> simp [shift]
  | _ => rfl

theorem shift_shift (e : ScriptError) (i j : Nat) : (e.shift j).shift i = e.shift (i + j) := by
  cases e with
  | malformed message offset => cases offset <;> simp [shift, Nat.add_assoc]
  | _ => rfl

end Stencil.ScriptError

namespace Stencil.Script
open Scan (StandsAt)
open Stencil.Text (byteLength byteLength_append IsBoundary isBoundary_iff slice?
  utf8ByteSize_ofList)

/-- What has gone wrong, if anything has. -/
def fault? {α : Type} : Except ScriptError α → Option ScriptError
  | .error e => some e
  | .ok _ => none

theorem fault?_eq_some {α : Type} {x : Except ScriptError α} {e : ScriptError} :
    fault? x = some e ↔ x = .error e := by
  cases x <;> simp [fault?]

theorem fault?_map {α β : Type} (f : α → β) (x : Except ScriptError α) :
    fault? (x.map f) = fault? x := by
  cases x <;> rfl

/-! ## Texts in holes -/

/-- What lexing and parsing the text of an interpolation alone reports, at a depth. -/
def alone? (depth : Nat) (text : String) : Option ScriptError :=
  fault? (Parser.interpolation (Parser.grammar depth) 0 text)

/-- The text stands in an interpolation in an interpolation, and so on, of the source; each hole is
in the tokens of the text in the one before it. -/
inductive Nested : List Hole → String → String → Prop where
  | here (text : String) : Nested [] text text
  | inside {hole : Hole} {holes : List Hole} {source inner text : String}
      (tokens : tokenize source = .ok (hole.fill inner)) (rest : Nested holes inner text) :
      Nested (hole :: holes) source text

/-- Where the text in the last one of nested holes starts. -/
def position : List Hole → Nat
  | [] => 0
  | hole :: holes => hole.position + position holes

theorem position_singleton (hole : Hole) : position [hole] = hole.position :=
  Nat.add_zero _

/-- **What a reading of a source reports**, for a text in nested holes: either it fails in the same
way whatever the text is, or the text is parsed at a lesser depth, and if this alone reports an
error, the reading reports the same one, moved to where the text stands; else it reports what it
does for all texts in which nothing is wrong. -/
def Locates (read : String → Option ScriptError) (depth : Nat) (holes : List Hole) : Prop :=
  (∃ e, ∀ source text, Nested holes source text → read source = some e) ∨
    ∃ d < depth, ∃ rest, ∀ source text, Nested holes source text →
      read source = ((alone? d text).map (·.shift (position holes))).or rest

namespace Locates
variable {read : String → Option ScriptError} {depth : Nat} {hole : Hole} {holes : List Hole}

theorem mono (h : Locates read depth holes) {depth' : Nat} (hd : depth ≤ depth') :
    Locates read depth' holes :=
  h.imp_right fun ⟨d, hlt, h⟩ => ⟨d, Nat.lt_of_lt_of_le hlt hd, h⟩

theorem nil (depth : Nat) : Locates (alone? depth) (depth + 1) [] := by
  refine .inr ⟨depth, Nat.lt_succ_self _, none, fun source text h => ?_⟩
  cases h
  cases alone? depth source with
  | none => rfl
  | some e => exact congrArg some e.shift_zero.symm

/-- One hole in the text in the other, what is wrong with the inner text is moved twice. -/
theorem cons (hone : Locates read depth [hole]) (hrest : ∀ d, Locates (alone? d) (d + 1) holes) :
    Locates read depth (hole :: holes) := by
  have hsplit {source text : String} (h : Nested (hole :: holes) source text) :
      ∃ inner, Nested [hole] source inner ∧ Nested holes inner text := by
    cases h with
    | inside tokens rest => exact ⟨_, .inside tokens (.here _), rest⟩
  rcases hone with ⟨e, he⟩ | ⟨d, hd, rest, hread⟩
  · refine .inl ⟨e, fun source text h => ?_⟩
    obtain ⟨inner, houter, -⟩ := hsplit h
    exact he source inner houter
  · rcases hrest d with ⟨e, he⟩ | ⟨d', hd', rest', hread'⟩
    · refine .inl ⟨e.shift hole.position, fun source text h => ?_⟩
      obtain ⟨inner, houter, hinner⟩ := hsplit h
      rw [hread source inner houter, he inner text hinner, position_singleton]
      rfl
    · refine .inr ⟨d', by omega, (rest'.map (·.shift hole.position)).or rest,
        fun source text h => ?_⟩
      obtain ⟨inner, houter, hinner⟩ := hsplit h
      rw [hread source inner houter, hread' inner text hinner, position_singleton]
      cases alone? d' text with
      | none => rfl
      | some e => exact congrArg some (e.shift_shift hole.position (position holes))

end Locates

/-- The text in a hole in the tokens of a source stands at the hole's position. -/
theorem Hole.stands_of_tokenize (hole : Hole) {source text : String}
    (h : tokenize source = .ok (hole.fill text)) :
    StandsAt text.toList hole.position source.toList :=
  stands_source h (List.mem_append_right _ List.mem_cons_self) rfl
    (List.mem_append_right _ List.mem_cons_self)

/-- No token in front of a hole in the tokens of a text is the last one. -/
theorem Hole.ne_eof_of_tokenize {hole : Hole} {source text : String}
    (h : tokenize source = .ok (hole.fill text)) : ∀ t ∈ hole.before, t.kind ≠ .eof := by
  obtain ⟨q, -, hlexed⟩ := tokenize_eq_ok.mp h
  obtain ⟨init, o, hinit, hne⟩ := hlexed.exists_init
  unfold Hole.fill at hinit
  rcases List.eq_nil_or_concat hole.behind with hnil | ⟨behind, x, hbehind⟩
  · rw [hnil] at hinit
    obtain ⟨-, htoken⟩ := List.append_inj' hinit rfl
    cases htoken
  · rw [hbehind, List.concat_eq_append, ← List.cons_append, ← List.append_assoc] at hinit
    obtain ⟨rfl, -⟩ := List.append_inj' hinit rfl
    exact fun t ht => hne t (List.mem_append_left _ ht)

namespace Parser
variable {α : Type}

/-- If a parser that runs alike with all fillings does not stop in front of the hole, it parses the
text there. -/
theorem Situation.Uniform.cases [Visible α] {k : Situation} {P : Parser α}
    (h : k.Uniform fun _ => P) (hallowed : ∀ i, k.Allowed i)
    (hends : ∀ text a ts, P ⟨0, k.shorthand, k.size⟩ (k.hole.fill text) ≠
      .ok (a, ts ++ k.hole.token text :: k.hole.behind)) :
    (∃ e, ∀ text, fault? (P ⟨0, k.shorthand, k.size⟩ (k.hole.fill text)) = some e) ∨
    ∃ d < k.depth, ∃ rest, ∀ text, fault? (P ⟨0, k.shorthand, k.size⟩ (k.hole.fill text)) =
      ((alone? d text).map (·.shift k.hole.position)).or rest := by
  have hclear : k.Clear (.before k.hole.before) :=
    fun _ _ _ => ⟨hallowed _, fun _ _ _ _ => hallowed _⟩
  have hrun (text : String) : k.run (.before k.hole.before) (fun _ => P) ⟨0, text⟩ =
    P ⟨0, k.shorthand, k.size⟩ (k.hole.fill text) := rfl
  simp only [← hrun]
  cases h _ hclear fun _ => True with
  | fails message i allowed ends =>
    exact .inl ⟨.syntaxAt message (0 + i), fun text => congrArg fault? (ends ⟨0, text⟩ trivial)⟩
  | goesOn A T steady side clear ends =>
    cases T with
    | behind ts => cases side
    | before ts => exact absurd (ends ⟨0, ""⟩ trivial) (hends "" _ ts)
  | asks d lower fault rest =>
    have hrest : ∃ rest, ∀ text, (∃ e, interpolation (grammar d) 0 text = .ok e) →
        fault? (k.run (.before k.hole.before) (fun _ => P) ⟨0, text⟩) = rest := by
      cases rest with
      | fails message i allowed ends =>
        exact ⟨some (.syntaxAt message (0 + i)),
          fun text hok => congrArg fault? (ends ⟨0, text⟩ ⟨trivial, hok⟩)⟩
      | goesOn A T steady side clear ends =>
        exact ⟨none, fun text hok => congrArg fault? (ends ⟨0, text⟩ ⟨trivial, hok⟩)⟩
    obtain ⟨rest, hrest⟩ := hrest
    refine .inr ⟨d, lower, rest, fun text => ?_⟩
    unfold alone?
    cases hinner : interpolation (grammar d) 0 text with
    | error e =>
      rw [fault ⟨0, text⟩ e trivial hinner, Nat.zero_add]
      rfl
    | ok e => exact hrest text ⟨e, hinner⟩

/-- A parser that reads the tokens of a text up to the end does not stop in front of a hole. -/
theorem not_atEnd {hole : Hole} {text : String} {ts u : List Token}
    (hne : ∀ t ∈ hole.before, t.kind ≠ .eof)
    (h : hole.fill text = u ++ (ts ++ hole.token text :: hole.behind)) :
    atEnd (ts ++ hole.token text :: hole.behind) = false := by
  cases ts with
  | nil => rfl
  | cons t ts =>
    refine atEnd_cons (hne t ?_)
    rw [← List.append_assoc] at h
    obtain ⟨hbefore, -⟩ := List.append_inj' h rfl
    rw [hbefore]
    exact List.mem_append_right _ List.mem_cons_self

/-- **A parser that reads texts up to the end reports what is wrong with the text in a hole.** -/
theorem locates_of_uniform [Visible α] {read : String → Option ScriptError} {depth : Nat}
    (shorthand : Bool) (P : Nat → Parser α)
    (hread : ∀ source ts, tokenize source = .ok ts →
      read source = fault? (P ts.length ⟨0, shorthand, ts.length⟩ ts))
    (huniform : ∀ k : Situation, depth ≤ k.depth → k.Uniform fun _ => P k.size)
    (hends : ∀ ts a r, P ts.length ⟨0, shorthand, ts.length⟩ ts = .ok (a, r) →
      (∃ u, ts = u ++ r) ∧ atEnd r = true) (hole : Hole) : Locates read depth [hole] := by
  by_cases hsome : ∃ source text, tokenize source = .ok (hole.fill text)
  · obtain ⟨source, text, hsome⟩ := hsome
    let k : Situation :=
      { hole, depth, shorthand, size := (hole.fill "").length, Allowed := fun _ => True
        zero := trivial }
    have hlength (text : String) : (hole.fill text).length = k.size := by
      simp only [k, Hole.fill, List.length_append, List.length_cons]
    have hcases := (huniform k (Nat.le_refl depth)).cases (fun _ => trivial) fun text a ts hok => by
      obtain ⟨⟨u, hu⟩, hend⟩ := hends (hole.fill text) a _ (by rw [hlength]; exact hok)
      rw [not_atEnd (Hole.ne_eof_of_tokenize hsome) hu] at hend
      cases hend
    have hread' (source text : String) (h : Nested [hole] source text) :
        read source = fault? (P k.size ⟨0, shorthand, k.size⟩ (hole.fill text)) := by
      cases h with
      | inside tokens rest =>
        cases rest
        rw [hread source _ tokens, hlength]
    rcases hcases with ⟨e, he⟩ | ⟨d, hd, rest, hrest⟩
    · exact .inl ⟨e, fun source text h => (hread' source text h).trans (he text)⟩
    · refine .inr ⟨d, hd, rest, fun source text h => ?_⟩
      rw [position_singleton]
      exact (hread' source text h).trans (hrest text)
  · -- The hole is in the tokens of no text.
    refine .inl ⟨.syntaxAt "" 0, fun source text h => ?_⟩
    cases h with
    | inside tokens rest => exact absurd ⟨source, _, tokens⟩ hsome

theorem alone?_eq {depth : Nat} {text : String} {ts : List Token} (hts : tokenize text = .ok ts) :
    alone? depth text =
      fault? (wholeExpression (grammar depth).assignment ⟨0, false, ts.length⟩ ts) := by
  unfold alone?
  rw [interpolation_eq, hts]
  exact fault?_map _ _

theorem locates_alone (depth : Nat) (holes : List Hole) :
    Locates (alone? depth) (depth + 1) holes := by
  induction holes generalizing depth with
  | nil => exact .nil depth
  | cons hole holes ih =>
    have hone : Locates (alone? depth) depth [hole] := by
      refine locates_of_uniform false (fun _ => wholeExpression (grammar depth).assignment)
        (fun source ts hts => alone?_eq hts)
        (fun k hk =>
          Situation.uniform_wholeExpression (Situation.level_grammar depth k hk).assignment)
        (fun ts a r hr => ?_) hole
      obtain ⟨e, s, he, hs⟩ := run_bind_ok hr
      obtain ⟨u, hu, -⟩ := reads_expression (reads_grammar depth) _ _ _ _ he
      change (if atEnd s = true then pure e else unexpected : Parser Expr) _ s = _ at hs
      split at hs
      · cases hs
        exact ⟨⟨u, hu⟩, by assumption⟩
      · exact absurd hs unexpected_ne_ok
    exact (hone.cons fun d => ih d).mono (Nat.le_succ depth)

theorem fault?_run {source : String} {ts : List Token} (shorthand : Bool)
    (hts : tokenize source = .ok ts) : fault? (run shorthand source) =
      fault? (program [] (ts.length + 1) ⟨0, shorthand, ts.length⟩ ts) := by
  unfold run
  rw [hts]
  change fault? (program [] (ts.length + 1) ⟨0, shorthand, ts.length⟩ ts >>= _) = _
  cases program [] (ts.length + 1) ⟨0, shorthand, ts.length⟩ ts <;> rfl

/-- **A script reports what is wrong with the text in an interpolation** where that text stands. -/
theorem locates_run (shorthand : Bool) (hole : Hole) (holes : List Hole) :
    Locates (fun source => fault? (run shorthand source)) maxNesting (hole :: holes) := by
  have hone : Locates (fun source => fault? (run shorthand source)) maxNesting [hole] := by
    refine locates_of_uniform shorthand (fun size => program [] (size + 1))
      (fun source ts hts => fault?_run shorthand hts)
      (fun k hk => Situation.uniform_program hk _ fun _ => []) (fun ts a r hr => ?_) hole
    obtain ⟨u, hu, -, hend⟩ := phrase_of_program (Nat.lt_succ_self _) hr
    exact ⟨⟨u, hu⟩, hend⟩
  exact hone.cons fun d => locates_alone d holes

/-! ## Character boundaries -/

/-- The error is found at a character boundary of the text. -/
def FoundIn (text : String) (e : ScriptError) : Prop :=
  ∃ message i, e = .syntaxAt message i ∧ IsBoundary text.toList i

/-- A parser that runs alike wherever its text stands finds errors at character boundaries, if those
are found there in shorter texts. -/
theorem foundIn_of_uniform [Visible α] {source : String} {ts : List Token} {depth : Nat}
    (shorthand : Bool) (P : Nat → Parser α) (hts : tokenize source = .ok ts)
    (hinner : ∀ text d e, text.length < source.length → alone? d text = some e → FoundIn text e)
    (huniform : ∀ k : Situation, depth ≤ k.depth → k.Uniform fun _ => P k.size) {e : ScriptError}
    (h : P ts.length ⟨0, shorthand, ts.length⟩ ts = .error e) : FoundIn source e := by
  let k : Situation :=
    { hole := default, depth, shorthand, size := ts.length, Allowed := IsBoundary source.toList
      zero := isBoundary_iff.mpr ⟨[], _, rfl, rfl⟩ }
  have hclear : k.Clear (.behind ts) := by
    refine fun _ t ht => ⟨isBoundary_offset hts ht, fun hkind hmem _ he => ?_⟩
    -- What is wrong with an interpolation is found in its text, which is shorter.
    have hstands := stands_source hts ht hkind hmem
    obtain ⟨_, _, heq, hi⟩ := hinner _ _ _ hstands.length_lt (fault?_eq_some.mpr he)
    cases heq
    exact hstands.isBoundary hi
  have hrun : k.run (.behind ts) (fun _ => P k.size) ⟨0, ""⟩ = .error e := h
  cases huniform k (Nat.le_refl depth) _ hclear fun _ => True with
  | fails message i allowed ends =>
    rw [ends _ trivial] at hrun
    cases hrun
    exact ⟨message, 0 + i, rfl, by rwa [Nat.zero_add]⟩
  | goesOn A T steady side clear ends =>
    rw [ends _ trivial] at hrun
    cases hrun

theorem foundIn_of_alone {d : Nat} {text : String} {e : ScriptError} (h : alone? d text = some e) :
    FoundIn text e := by
  cases hts : tokenize text with
  | error e' =>
    obtain ⟨message, i, rfl, hi⟩ := tokenize_error hts
    have h := fault?_eq_some.mp h
    rw [interpolation_eq, hts] at h
    cases h
    exact ⟨message, 0 + i, rfl, by rwa [Nat.zero_add]⟩
  | ok ts =>
    rw [alone?_eq hts] at h
    exact foundIn_of_uniform false (fun _ => wholeExpression (grammar d).assignment) hts
      (fun text d e hlength hinner => foundIn_of_alone hinner)
      (fun k hk => Situation.uniform_wholeExpression (Situation.level_grammar d k hk).assignment)
      (fault?_eq_some.mp h)
termination_by text.length

theorem foundIn_of_run {shorthand : Bool} {source : String} {e : ScriptError}
    (h : run shorthand source = .error e) : FoundIn source e := by
  cases hts : tokenize source with
  | error e' =>
    unfold run at h
    rw [hts] at h
    cases h
    exact tokenize_error hts
  | ok ts =>
    have h := fault?_eq_some.mpr h
    rw [fault?_run shorthand hts] at h
    exact foundIn_of_uniform shorthand (fun size => program [] (size + 1)) hts
      (fun _ _ _ _ => foundIn_of_alone) (fun k hk => Situation.uniform_program hk _ fun _ => [])
      (fault?_eq_some.mp h)

end Parser

theorem Nested.stands {hole : Hole} {holes : List Hole} {source text : String}
    (h : Nested (hole :: holes) source text) :
    StandsAt text.toList (position (hole :: holes)) source.toList := by
  induction holes generalizing hole source with
  | nil =>
    cases h with
    | inside tokens rest =>
      cases rest
      exact hole.stands_of_tokenize tokens
  | cons hole' holes ih =>
    cases h with
    | inside tokens rest => exact (hole.stands_of_tokenize tokens).trans (ih rest)

/-! ## Programs and declarations -/

/-- What holds of the errors that parsing a source reports. -/
structure LocatesErrors (parse : String → Except ScriptError (List Stmt)) : Prop where
  /-- Each one has an offset, which is a character boundary of the source. -/
  boundary : ∀ source e, parse source = .error e → ∃ message i,
    e = .syntaxAt message i ∧ i ≤ source.utf8ByteSize ∧ IsBoundary source.toList i
  /-- Those of a text in interpolations are the ones that it has alone, moved to where it stands. -/
  interpolated : ∀ hole holes,
    Locates (fun source => fault? (parse source)) maxNesting (hole :: holes)

theorem locatesErrors_of_run (shorthand : Bool) {parse : String → Except ScriptError (List Stmt)}
    (h : ∀ source, fault? (parse source) = fault? (Parser.run shorthand source)) :
    LocatesErrors parse := by
  constructor
  · intro source e he
    have herror : Parser.run shorthand source = .error e := by
      rw [← fault?_eq_some, ← h, he]
      rfl
    obtain ⟨message, i, rfl, hi⟩ := Parser.foundIn_of_run herror
    obtain ⟨a, b, hsource, rfl⟩ := isBoundary_iff.mp hi
    refine ⟨message, _, rfl, ?_, hi⟩
    rw [← source.ofList_toList, utf8ByteSize_ofList, hsource, byteLength_append]
    exact Nat.le_add_right _ _
  · intro hole holes
    simp only [h]
    exact Parser.locates_run shorthand hole holes

/-- **Offsets of errors survive interpolation**, however deep. -/
theorem errors_located :
    (∀ hole holes source text, Nested (hole :: holes) source text →
      slice? source.toList (position (hole :: holes))
        (position (hole :: holes) + byteLength text.toList) = some text.toList) ∧
    LocatesErrors parseProgram ∧ LocatesErrors parseDeclarations := by
  refine ⟨fun hole holes source text h => h.stands.slice, ?_, ?_⟩
  · exact locatesErrors_of_run false fun source => by
      unfold parseProgram
      cases Parser.run false source <;> rfl
  · exact locatesErrors_of_run true fun source => by
      unfold parseDeclarations
      cases Parser.run true source <;> rfl

/-- A template literal in an interpolation of another one, with a text in its own interpolation. -/
def literalInLiteral (text : String) : String :=
  "`a$\x7b`\u00e9$\x7b" ++ text ++ "\x7d`\x7d`"

/-- Where the inner literal is, and where the text is in that one, if it is one byte long. -/
def holesOfLiterals : List Hole :=
  [{ before := [], start := 0, front := [.text "a"], gap := 4, back := [], behind := [⟨.eof, 14⟩] },
    { before := [], start := 0, front := [.text "\u00e9"], gap := 5, back := [],
      behind := [⟨.eof, 8⟩] }]

/-- A character that starts no token is reported behind both literals' openings, nine bytes into the
source, since nothing is reported for a digit in its place. -/
theorem errors_located_nested :
    Nested holesOfLiterals (literalInLiteral "#") "#" ∧
    Nested holesOfLiterals (literalInLiteral "1") "1" ∧
    fault? (parseProgram (literalInLiteral "1")) = none ∧
    slice? (literalInLiteral "#").toList 9 10 = some "#".toList ∧
    fault? (parseProgram (literalInLiteral "#")) =
      some (.syntaxAt "Invalid or unexpected token '#'" 9) := by
  have hhash : Nested holesOfLiterals (literalInLiteral "#") "#" :=
    .inside rfl (.inside rfl (.here "#"))
  have hdigit : Nested holesOfLiterals (literalInLiteral "1") "1" :=
    .inside rfl (.inside rfl (.here "1"))
  have hnone : fault? (parseProgram (literalInLiteral "1")) = none := by decide +kernel
  obtain ⟨hslice, hprogram, -⟩ := errors_located
  refine ⟨hhash, hdigit, hnone, hslice _ _ _ _ hhash, ?_⟩
  have halone (d : Nat) :
      alone? d "#" = some (.syntaxAt "Invalid or unexpected token '#'" 0) := by
    unfold alone?
    rw [Parser.interpolation_eq]
    rfl
  rcases hprogram.interpolated _ _ with ⟨e, he⟩ | ⟨d, -, rest, hread⟩
  · exact absurd ((he _ _ hdigit).symm.trans hnone) (Option.some_ne_none e)
  · have hrest := (hread _ _ hdigit).symm.trans hnone
    refine (hread _ _ hhash).trans ?_
    rw [halone, (Option.or_eq_none_iff.mp hrest).2]
    rfl

end Stencil.Script
