import Stencil.Proofs.Template.Plan

/-! # What stands for the blocks of a text

The blocks at the top of a text cut it into literal pieces and sources (`cutBlocks`), and what is
rendered for such a block is what the block would be rendered to if it were a text on its own
(`Renderer.replacements`).  A rendering that no limit stops puts these in the places of the blocks
and leaves all else as it is (`write_eq_replacements`).
-/
namespace Stencil.Template
open Stencil.Text

/-! ## Blocks on their own -/

section Passing
variable {seen cs : List Char} {depth : Nat} {c : Char}

theorem close?_quoted {q : Char} (hc : c ≠ '\\') :
    close? seen depth (some q) (c :: cs) =
      close? (c :: seen) depth (if c = q then none else some q) cs := by
  rw [close?.eq_def]
  exact if_neg hc

theorem close?_quote (hc : isQuote c) :
    close? seen depth none (c :: cs) = close? (c :: seen) depth (some c) cs := by
  rw [close?.eq_def]
  exact if_pos hc

theorem close?_open : close? seen depth none ('\x7b' :: cs) =
    close? ('\x7b' :: seen) (depth + 1) none cs := by
  rw [close?.eq_def]
  rfl

theorem close?_close (hcs : ∀ after, depth = 0 → cs ≠ '\x7d' :: after) :
    close? seen depth none ('\x7d' :: cs) = close? ('\x7d' :: seen) (depth - 1) none cs := by
  rw [close?.eq_def]
  simp only [show isQuote '\x7d' = false by decide, Bool.false_eq_true, if_false,
    show ¬ '\x7d' = '\x7b' by decide, if_true]

theorem close?_other (hquote : ¬ isQuote c) (hopen : c ≠ '\x7b') (hclose : c ≠ '\x7d') :
    close? seen depth none (c :: cs) = close? (c :: seen) depth none cs := by
  rw [close?.eq_def]
  simp only [hquote, hopen, hclose, Bool.false_eq_true, if_false]

end Passing

/-- Where a block ends is settled by what stands before its end. -/
def EndsAlike (seen : List Char) (depth : Nat) (quote : Option Char) (cs inner after : List Char) :
    Prop :=
  ∃ body, cs = body ++ closing ++ after ∧ inner = seen.reverse ++ body ∧
    ∀ after', close? seen depth quote (body ++ closing ++ after') = some (inner, after')

/-- A character that is passed does not matter. -/
theorem EndsAlike.pass {seen cs inner after : List Char} {c : Char} {depth depth' : Nat}
    {quote quote' : Option Char} (h : EndsAlike (c :: seen) depth' quote' cs inner after)
    (hpass : ∀ body after', cs = body ++ closing ++ after →
      close? seen depth quote (c :: (body ++ closing ++ after')) =
        close? (c :: seen) depth' quote' (body ++ closing ++ after')) :
    EndsAlike seen depth quote (c :: cs) inner after := by
  obtain ⟨body, hcs, hinner, hall⟩ := h
  refine ⟨c :: body, by rw [hcs]; rfl, by rw [hinner]; simp, fun after' => ?_⟩
  exact (hpass body after' hcs).trans (hall after')

theorem endsAlike_of_close? {seen cs inner after : List Char} {depth : Nat} {quote : Option Char}
    (h : close? seen depth quote cs = some (inner, after)) :
    EndsAlike seen depth quote cs inner after := by
  fun_induction close? seen depth quote cs with
  | case1 | case2 => cases h
  | case3 seen depth q d cs ih =>
    obtain ⟨body, hcs, hinner, hall⟩ := ih h
    refine ⟨'\\' :: d :: body, by rw [hcs]; rfl, by rw [hinner]; simp, fun after' => ?_⟩
    simpa [close?] using hall after'
  | case4 seen depth c cs q hc ih => exact (ih h).pass fun _ _ _ => close?_quoted hc
  | case5 seen depth c cs hquote ih => exact (ih h).pass fun _ _ _ => close?_quote hquote
  | case6 seen depth cs hquote ih => exact (ih h).pass fun _ _ _ => close?_open
  | case7 =>
    cases h
    exact ⟨[], rfl, by simp, fun _ => rfl⟩
  | case8 seen depth cs hnot hquote hopen ih =>
    -- a second brace would end the block, but then it would have ended before
    refine (ih h).pass fun body after' hcs => close?_close fun rest hdepth hrest => ?_
    cases body with
    | nil => exact hnot _ hdepth hcs
    | cons b body =>
      cases hrest
      exact hnot _ hdepth hcs
  | case9 seen depth c cs hquote hopen hclose ih =>
    exact (ih h).pass fun _ _ _ => close?_other hquote hopen hclose

/-- A block that was found is found on its own. -/
theorem nextBlock_alone {cs before inner after : List Char}
    (hb : nextBlock cs = .found before inner after) :
    nextBlock (opening ++ inner ++ closing) = .found [] inner [] := by
  unfold nextBlock at hb
  split at hb
  · rename_i before' body hbody
    unfold enclose at hb
    split at hb
    · rename_i inner' after' hclose
      cases hb
      -- where the block ends does not depend on what follows, so nothing need follow
      obtain ⟨inner', -, hinner, hall⟩ := endsAlike_of_close? hclose
      obtain rfl : inner = inner' := hinner
      have hend : close? [] 0 none (inner ++ closing) = some (inner, []) := by
        have hnil := hall []
        rwa [List.append_nil] at hnil
      have hopen : breakOn? opening (opening ++ (inner ++ closing)) =
          some ([], inner ++ closing) := rfl
      rw [List.append_assoc, nextBlock, hopen]
      dsimp only
      rw [enclose, hend]
    · cases hb
  · cases hb

/-! ## The blocks at the top -/

/-- The literal text before every block at the top and the source in the block, and the text behind
the last one. -/
def cutBlocks (cs : List Char) : List (List Char × List Char) × List Char :=
  match h : nextBlock cs with
  | .found before inner after =>
    have shorter := (Block.length_lt (nextBlock_append (by simp [h])) h).2
    ((before, inner) :: (cutBlocks after).1, (cutBlocks after).2)
  | .unclosed .. | .none => ([], cs)
termination_by cs.length

/-- A block as it stands in a text. -/
def blockText (inner : List Char) : List Char :=
  opening ++ inner ++ closing

/-- The pieces make up the text. -/
theorem cutBlocks_append (cs : List Char) :
    ((cutBlocks cs).1.flatMap fun block => block.1 ++ blockText block.2) ++ (cutBlocks cs).2 =
      cs := by
  fun_induction cutBlocks cs with
  | case1 cs before inner after hb shorter ih =>
    have hb : blockAt 0 cs = .found before inner after := hb
    have happend := append_of_found hb
    rw [List.flatMap_cons, List.append_assoc, ih, ← happend]
    simp [blockText]
  | case2 | case3 => rfl

/-- Literal texts, each followed by what stands for a block. -/
def joined : List (String × String) → String
  | [] => ""
  | (literal, output) :: rest => literal ++ output ++ joined rest

/-- The literal text before each block, and what is rendered for the block on its own, from the
state that the blocks before it leave. -/
def Renderer.replacements {σ : Type} (r : Renderer σ) (state : σ) :
    List (List Char × List Char) → List (String × String)
  | [] => []
  | (before, inner) :: rest =>
    let (output, state) := r.render state (String.ofList (blockText inner))
    (String.ofList before, output) :: r.replacements state rest

/-! ## Plans, block by block -/

/-- The literal text before each block that a plan comes to the end of, and what is written for the
block. -/
def Plan.pieces {σ : Type} (r : Renderer σ) (state : σ) : Plan → List (String × String)
  | .plain before inner next =>
    let (output, state) := r.evaluateSource (String.ofList inner) state
    (String.ofList before, output) :: next.pieces r state
  | .nested before inner source next =>
    let (expression, state) := source.write r inner 0 state
    let (output, state) := r.evaluateSource expression state
    (String.ofList before, output) :: next.pieces r state
  | .spent | .rest _ | .unclosed _ | .refused .. | .stopped .. => []

section Blocks
variable {σ : Type} {r : Renderer σ} {turns : Nat} {cs before inner after : List Char}

/-- A block on its own, without blocks in it, is evaluated. -/
theorem render_plain_block (hb : nextBlock cs = .found before inner after)
    (hturns : 2 ≤ r.maxIterations) (hnested : ¬ hasNested inner) (state : σ) :
    r.render state (String.ofList (blockText inner)) =
      r.evaluateSource (String.ofList inner) state := by
  have halone : blockAt 0 (blockText inner) = .found [] inner [] := nextBlock_alone hb
  have hrest : plan r.ceiling 0 1 [] = .rest [] := plan_rest hturns rfl
  have hplan : plan r.ceiling 0 0 (blockText inner) = .plain [] inner (.rest []) := by
    rw [plan_plain (Nat.le_of_succ_le hturns) halone hnested, hrest]
  rw [r.render_of_halt_none state _ (by rw [String.toList_ofList, hplan]; rfl),
    String.toList_ofList, hplan]
  simp [Plan.write]

/-- A block on its own is evaluated after the blocks in it. -/
theorem render_nested_block (hb : nextBlock cs = .found before inner after)
    (hnested : hasNested inner) (hdepth : 1 ≤ r.maxDepth) {source : Plan}
    (hsource : plan r.ceiling 1 (turns + 1) inner = source) (hhalt : source.halt = none)
    (hturns : turns + 1 + source.turns + 1 ≤ r.maxIterations) (state : σ) :
    r.render state (String.ofList (blockText inner)) =
      let (expression, state) := source.write r inner 0 state
      r.evaluateSource expression state := by
  have halone : blockAt 0 (blockText inner) = .found [] inner [] := nextBlock_alone hb
  have hsource' : plan r.ceiling 1 1 inner = source := by
    rw [← hsource] at hhalt ⊢
    exact plan_mono hhalt (Nat.le_refl _) (by omega)
  have hrest : plan r.ceiling 0 (0 + 1 + source.turns) [] = .rest [] :=
    plan_rest (show 0 + 1 + source.turns + 1 ≤ r.maxIterations by omega) rfl
  have hplan : plan r.ceiling 0 0 (blockText inner) = .nested [] inner source (.rest []) := by
    rw [plan_nested (show 0 + 1 ≤ r.maxIterations by omega) halone hnested hdepth hsource' hhalt,
      hrest]
  rw [r.render_of_halt_none state _ (by rw [String.toList_ofList, hplan]; rfl),
    String.toList_ofList, hplan]
  simp [Plan.write]

/-- **One block after the other.**  Where no limit stops the rendering, the first block is replaced
by what it is rendered to on its own, and the plan goes on behind it. -/
theorem exists_plan_next (h : (plan r.ceiling 0 turns cs).halt = none)
    (hb : nextBlock cs = .found before inner after) :
    ∃ turns', (plan r.ceiling 0 turns' after).halt = none ∧ ∀ whole offset state,
      let block := r.render state (String.ofList (blockText inner))
      let next := plan r.ceiling 0 turns' after
      let behind := offset + (Span.ofPieces 0 before inner).stop
      (plan r.ceiling 0 turns cs).pieces r state =
          (String.ofList before, block.1) :: next.pieces r block.2 ∧
        (plan r.ceiling 0 turns cs).write r whole offset state =
          (String.ofList before ++ block.1 ++ (next.write r whole behind block.2).1,
            (next.write r whole behind block.2).2) := by
  -- behind the block there is one more turn at least, which the block on its own takes at its end
  have hroom : turns + (plan r.ceiling 0 turns cs).turns ≤ r.maxIterations :=
    (turns_plan_le (Nat.le_of_succ_le (turns_of_halt_none h))).2 h
  obtain ⟨hnested, hplan, hnext⟩ |
    ⟨hnested, hdepth, source, hsource, hhalt, hplan, hnext⟩ := plan_of_found h hb
  · refine ⟨turns + 1, hnext, fun whole offset state => ?_⟩
    have hone := (plan r.ceiling 0 (turns + 1) after).one_le_turns
    rw [hplan, Plan.turns] at hroom
    rw [hplan, render_plain_block hb (by omega) hnested]
    exact ⟨rfl, rfl⟩
  · refine ⟨turns + 1 + source.turns, hnext, fun whole offset state => ?_⟩
    have hone := (plan r.ceiling 0 (turns + 1 + source.turns) after).one_le_turns
    rw [hplan, Plan.turns] at hroom
    rw [hplan, render_nested_block hb hnested hdepth hsource hhalt (by omega)]
    exact ⟨rfl, rfl⟩

/-- **What is written where no limit stops the rendering:** the blocks at the top are replaced by
what each of them is rendered to on its own; if no block lacks its end, the literal text is kept. -/
theorem write_eq_replacements (h : (plan r.ceiling 0 turns cs).halt = none) (state : σ) :
    (plan r.ceiling 0 turns cs).pieces r state = r.replacements state (cutBlocks cs).1 ∧
      ∀ whole offset, ∃ ending,
        ((plan r.ceiling 0 turns cs).write r whole offset state).1 =
            joined (r.replacements state (cutBlocks cs).1) ++ ending ∧
          (nextBlock (cutBlocks cs).2 = .none → ending = String.ofList (cutBlocks cs).2) := by
  fun_induction cutBlocks cs generalizing turns state with
  | case1 cs before inner after hb shorter ih =>
    obtain ⟨turns', hnext, hstep⟩ := exists_plan_next h hb
    obtain ⟨hpieces, hwrite⟩ := ih hnext (r.render state (String.ofList (blockText inner))).2
    refine ⟨by rw [(hstep cs 0 state).1, hpieces]; rfl, fun whole offset => ?_⟩
    obtain ⟨ending, hending, hplain⟩ := hwrite whole (offset + (Span.ofPieces 0 before inner).stop)
    refine ⟨ending, ?_, hplain⟩
    rw [(hstep whole offset state).2, hending]
    simp only [Renderer.replacements, joined, String.append_assoc]
  | case2 cs before body hb =>
    have hplan : plan r.ceiling 0 turns cs = .unclosed before :=
      plan_unclosed (turns_of_halt_none h) hb
    rw [hplan]
    refine ⟨rfl, fun whole offset => ⟨_, String.empty_append.symm, fun hnone => ?_⟩⟩
    exact absurd (hb.symm.trans hnone) nofun
  | case3 cs hb =>
    have hplan : plan r.ceiling 0 turns cs = .rest cs := plan_rest (turns_of_halt_none h) hb
    rw [hplan]
    exact ⟨rfl, fun whole offset => ⟨_, String.empty_append.symm, fun _ => rfl⟩⟩

end Blocks
end Stencil.Template
