import Stencil.Proofs.Template.Pieces

/-! # What the text of a template controls

What an expression evaluates to is written and never looked into.  So the text and the two limits
alone settle which texts are looked into, and how deep, how many turns are taken, how many
expressions are evaluated, and where a limit stops the rendering (`control_fixed_by_text`).

To say which texts are looked into, a rendering is run that keeps a log of them (`renderLogged`).
-/
namespace Stencil.Template
open Stencil.Text

/-- A text that is looked into, and how many blocks deep it stands. -/
structure Visit where
  depth : Nat
  text : List Char

/-- The texts that a plan looks into within blocks, in order; the one at which the depth is too
great is the last. -/
def Plan.visits (depth : Nat) : Plan → List Visit
  | .spent | .rest _ | .unclosed _ => []
  | .refused _ inner => [⟨depth + 1, inner⟩]
  | .stopped _ inner source => ⟨depth + 1, inner⟩ :: source.visits (depth + 1)
  | .plain _ _ next => next.visits depth
  | .nested _ inner source next =>
    ⟨depth + 1, inner⟩ :: (source.visits (depth + 1) ++ next.visits depth)

/-- The expressions that are evaluated. -/
def Plan.evaluations : Plan → Nat
  | .spent | .rest _ | .unclosed _ | .refused .. => 0
  | .stopped _ _ source => source.evaluations
  | .plain _ _ next => 1 + next.evaluations
  | .nested _ _ source next => source.evaluations + (1 + next.evaluations)

namespace Renderer
variable {σ : Type} (r : Renderer σ)

/-- Rendering, with a log of the texts within blocks that are looked into. -/
def renderLogged (depth : Nat) (whole : List Char) (offset : Nat) (out : String) (turns : Nat)
    (state : σ) (cs : List Char) : Rendering σ × List Visit :=
  let turns := turns + 1
  if r.maxIterations < turns then (⟨out, turns, state, some (.tooMany r.maxIterations)⟩, [])
  else
    match h : blockAt depth cs with
    | .none => ({ out := out ++ String.ofList cs, turns, state }, [])
    | .unclosed before _ =>
      let marker := unclosedMarker r.debug whole (offset + byteLength before)
      ({ out := out ++ String.ofList before ++ marker, turns, state }, [])
    | .found before inner after =>
      have shorter := Block.length_lt (blockAt_append (by simp [h])) h
      let out := out ++ String.ofList before
      let source : Rendering σ × List Visit :=
        if hasNested inner then
          if r.maxDepth < depth + 1 then
            (⟨"", turns, state, some (.tooDeep r.maxDepth)⟩, [⟨depth + 1, inner⟩])
          else
            let done := renderLogged (depth + 1) inner 0 "" turns state inner
            (done.1, ⟨depth + 1, inner⟩ :: done.2)
        else ({ out := String.ofList inner, turns, state }, [])
      if source.1.halt.isSome then ({ source.1 with out }, source.2)
      else
        let (text, state) := r.evaluateSource source.1.out source.1.state
        let stop := offset + (Span.ofPieces 0 before inner).stop
        let done := renderLogged depth whole stop (out ++ text) source.1.turns state after
        (done.1, source.2 ++ done.2)
termination_by cs.length
decreasing_by
  · exact shorter.1
  · exact shorter.2

/-- The renderer that counts the expressions which it evaluates. -/
def counting : Renderer (σ × Nat) :=
  { r with evaluate := fun source (state, n) =>
      let (text, state) := r.evaluate source state
      (text, state, n + 1) }

section Logged
variable {r : Renderer σ} {depth : Nat} {whole : List Char} {offset : Nat} {out : String}
  {turns : Nat} {state : σ} {cs before inner after body : List Char}

theorem renderLogged_halts (h : r.maxIterations < turns + 1) :
    r.renderLogged depth whole offset out turns state cs =
      (⟨out, turns + 1, state, some (.tooMany r.maxIterations)⟩, []) := by
  unfold renderLogged
  simp only [if_pos h]

theorem renderLogged_none (h : turns + 1 ≤ r.maxIterations) (hb : blockAt depth cs = .none) :
    r.renderLogged depth whole offset out turns state cs =
      ({ out := out ++ String.ofList cs, turns := turns + 1, state }, []) := by
  unfold renderLogged
  simp only [if_neg (Nat.not_lt.mpr h)]
  split <;> simp_all

theorem renderLogged_unclosed (h : turns + 1 ≤ r.maxIterations)
    (hb : blockAt depth cs = .unclosed before body) :
    r.renderLogged depth whole offset out turns state cs =
      ({ out := out ++ String.ofList before
          ++ unclosedMarker r.debug whole (offset + byteLength before)
         turns := turns + 1, state }, []) := by
  unfold renderLogged
  simp only [if_neg (Nat.not_lt.mpr h)]
  split <;> simp_all

/-- The source of an expression, the blocks in it rendered, with the log of these. -/
def sourceLogged (r : Renderer σ) (depth turns : Nat) (state : σ) (inner : List Char) :
    Rendering σ × List Visit :=
  if hasNested inner then
    if r.maxDepth < depth + 1 then
      (⟨"", turns, state, some (.tooDeep r.maxDepth)⟩, [⟨depth + 1, inner⟩])
    else
      let done := r.renderLogged (depth + 1) inner 0 "" turns state inner
      (done.1, ⟨depth + 1, inner⟩ :: done.2)
  else ({ out := String.ofList inner, turns, state }, [])

theorem renderLogged_found (h : turns + 1 ≤ r.maxIterations)
    (hb : blockAt depth cs = .found before inner after) :
    r.renderLogged depth whole offset out turns state cs =
      let source := r.sourceLogged depth (turns + 1) state inner
      if source.1.halt.isSome then ({ source.1 with out := out ++ String.ofList before }, source.2)
      else
        let (text, state) := r.evaluateSource source.1.out source.1.state
        let done := r.renderLogged depth whole (offset + (Span.ofPieces 0 before inner).stop)
          (out ++ String.ofList before ++ text) source.1.turns state after
        (done.1, source.2 ++ done.2) := by
  rw [renderLogged]
  simp only [if_neg (Nat.not_lt.mpr h)]
  split
  · simp_all
  · simp_all
  · rename_i heq
    rw [heq] at hb
    cases hb
    rfl

theorem sourceLogged_nested (hnested : hasNested inner) (hdepth : ¬ r.maxDepth < depth + 1)
    {log : List Visit}
    (h : r.renderLogged (depth + 1) inner 0 "" turns state inner =
      (r.renderFrom (depth + 1) inner 0 "" turns state inner, log)) :
    r.sourceLogged depth turns state inner =
      (r.renderSource depth turns state inner, ⟨depth + 1, inner⟩ :: log) := by
  rw [sourceLogged, if_pos hnested, if_neg hdepth, h, r.renderSource_nested hnested hdepth]

/-- **The texts that are looked into are those of the plan.** -/
theorem renderLogged_eq (depth : Nat) (whole : List Char) (offset : Nat) (out : String)
    (turns : Nat) (state : σ) (cs : List Char) :
    r.renderLogged depth whole offset out turns state cs =
      (r.renderFrom depth whole offset out turns state cs,
        (plan r.ceiling depth turns cs).visits depth) := by
  fun_induction plan r.ceiling depth turns cs generalizing whole offset out state with
  | case1 depth turns cs hturns => rw [renderLogged_halts hturns, renderFrom_halts r hturns]; rfl
  | case2 depth turns cs hturns hb =>
    have hturns := Nat.not_lt.mp hturns
    rw [renderLogged_none hturns hb, renderFrom_none r hturns hb]
    rfl
  | case3 depth turns cs hturns before body hb =>
    have hturns := Nat.not_lt.mp hturns
    rw [renderLogged_unclosed hturns hb, renderFrom_unclosed r hturns hb]
    rfl
  | case4 depth turns cs hturns before inner after hb shorter hnested hdepth =>
    have hturns := Nat.not_lt.mp hturns
    have hsource : r.sourceLogged depth (turns + 1) state inner =
        (⟨"", turns + 1, state, some (.tooDeep r.maxDepth)⟩, [⟨depth + 1, inner⟩]) := by
      rw [sourceLogged, if_pos hnested]
      exact if_pos hdepth
    rw [renderFrom_found hturns hb, r.renderSource_refused hnested hdepth,
      renderLogged_found hturns hb, hsource]
    rfl
  | case5 depth turns cs hturns before inner after hb shorter hnested hdepth source hhalt ih =>
    have hturns := Nat.not_lt.mp hturns
    have hsource := r.renderSource_eq (p := source) hnested hdepth (r.renderFrom_eq (depth + 1)
      inner 0 "" (turns + 1) state inner)
    rw [renderFrom_found hturns hb, renderLogged_found hturns hb,
      sourceLogged_nested hnested hdepth (ih inner 0 "" state), hsource]
    simp only [Option.isSome_map, hhalt, if_true, Plan.visits]
    rfl
  | case6 depth turns cs hturns before inner after hb shorter hnested hdepth source hhalt ih ih' =>
    have hturns := Nat.not_lt.mp hturns
    have hsource := r.renderSource_eq (p := source) hnested hdepth (r.renderFrom_eq (depth + 1)
      inner 0 "" (turns + 1) state inner)
    rw [renderFrom_found hturns hb, renderLogged_found hturns hb,
      sourceLogged_nested hnested hdepth (ih inner 0 "" state), hsource]
    simp only [Option.isSome_map, hhalt, Bool.false_eq_true, if_false, ih', Plan.visits,
      evaluateSource]
    rfl
  | case7 depth turns cs hturns before inner after hb shorter hnested ih =>
    have hturns := Nat.not_lt.mp hturns
    have hsource : r.sourceLogged depth (turns + 1) state inner =
        ({ out := String.ofList inner, turns := turns + 1, state }, []) := if_neg hnested
    rw [renderFrom_found hturns hb, r.renderSource_plain hnested, renderLogged_found hturns hb,
      hsource]
    simp only [Option.isSome_none, Bool.false_eq_true, if_false, ih, Plan.visits, evaluateSource,
      List.nil_append]

end Logged

/-- To count the expressions changes nothing else. -/
theorem write_counting (whole : List Char) (offset : Nat) (state : σ) (n : Nat) (p : Plan) :
    p.write r.counting whole offset (state, n) =
      ((p.write r whole offset state).1, (p.write r whole offset state).2, n + p.evaluations) := by
  induction p generalizing whole offset state n with
  | spent | rest | unclosed | refused => rfl
  | stopped before inner source ih => simp only [Plan.write, Plan.evaluations, ih]
  | plain before inner next ih =>
    simp only [Plan.write, Plan.evaluations, evaluateSource, counting] at ih ⊢
    rw [ih]
    simp only [Nat.add_assoc]
  | nested before inner source next ih ih' =>
    simp only [Plan.write, Plan.evaluations, evaluateSource, counting] at ih ih' ⊢
    rw [ih, ih']
    simp only [Nat.add_assoc]

end Renderer

/-! ## What the plan bounds -/

/-- An expression is evaluated in a turn of its own, and the last turn evaluates none. -/
theorem Plan.evaluations_lt_turns (p : Plan) : p.evaluations < p.turns := by
  induction p with
  | spent | rest | unclosed | refused => exact Nat.zero_lt_one
  | stopped before inner source ih =>
    simp only [evaluations, turns]
    omega
  | plain before inner next ih =>
    simp only [evaluations, turns]
    omega
  | nested before inner source next ih ih' =>
    simp only [evaluations, turns]
    omega

section Visits
variable {c : Ceiling} {depth turns : Nat} {cs : List Char}

theorem isInfix_of_found {before inner after : List Char}
    (hb : blockAt depth cs = .found before inner after) : inner <:+: cs ∧ after <:+: cs := by
  have happend := append_of_found hb
  refine ⟨⟨before ++ opening, closing ++ after, ?_⟩,
    ⟨before ++ opening ++ inner ++ closing, [], ?_⟩⟩
  · simpa only [List.append_assoc] using happend
  · rw [List.append_nil]
    exact happend

/-- What is looked into stands in the text. -/
theorem isInfix_of_mem_visits {v : Visit} (hv : v ∈ (plan c depth turns cs).visits depth) :
    v.text <:+: cs := by
  fun_induction plan c depth turns cs with
  | case1 | case2 | case3 => exact absurd hv List.not_mem_nil
  | case4 depth turns cs hturns before inner after hb =>
    cases List.mem_singleton.mp hv
    exact (isInfix_of_found hb).1
  | case5 depth turns cs hturns before inner after hb shorter hnested hdeep source hhalt ih =>
    rcases List.mem_cons.mp hv with rfl | hv
    · exact (isInfix_of_found hb).1
    · exact (ih hv).trans (isInfix_of_found hb).1
  | case6 depth turns cs hturns before inner after hb shorter hnested hdeep source hhalt ih ih' =>
    rcases List.mem_cons.mp hv with rfl | hv
    · exact (isInfix_of_found hb).1
    rcases List.mem_append.mp hv with hv | hv
    · exact (ih hv).trans (isInfix_of_found hb).1
    · exact (ih' hv).trans (isInfix_of_found hb).2
  | case7 depth turns cs hturns before inner after hb shorter hnested ih =>
    exact (ih hv).trans (isInfix_of_found hb).2

/-- The text at which the rendering stops since it stands too deep is the last one, and no other one
stands too deep. -/
theorem depth_of_mem_visits {v : Visit} (hv : v ∈ (plan c depth turns cs).visits depth) :
    v.depth ≤ c.depth ∨ (plan c depth turns cs).halt = some .depth ∧
      ((plan c depth turns cs).visits depth).getLast? = some v := by
  fun_induction plan c depth turns cs with
  | case1 | case2 | case3 => exact absurd hv List.not_mem_nil
  | case4 =>
    cases List.mem_singleton.mp hv
    exact .inr ⟨rfl, rfl⟩
  | case5 depth turns cs hturns before inner after hb shorter hnested hdeep source hhalt ih =>
    rcases List.mem_cons.mp hv with rfl | hv
    · exact .inl (Nat.not_lt.mp hdeep)
    rcases ih hv with hle | ⟨hstop, hlast⟩
    · exact .inl hle
    · refine .inr ⟨hstop, ?_⟩
      rw [Plan.visits, List.getLast?_cons]
      exact congrArg (fun last => some (Option.getD last _)) hlast
  | case6 depth turns cs hturns before inner after hb shorter hnested hdeep source hhalt ih ih' =>
    rcases List.mem_cons.mp hv with rfl | hv
    · exact .inl (Nat.not_lt.mp hdeep)
    rcases List.mem_append.mp hv with hv | hv
    -- no limit stopped the source, so nothing in it was too deep
    · rcases ih hv with hle | ⟨hstop, -⟩
      · exact .inl hle
      · have hstop : source.halt = some .depth := hstop
        rw [hstop] at hhalt
        exact absurd rfl hhalt
    · rcases ih' hv with hle | ⟨hstop, hlast⟩
      · exact .inl hle
      · refine .inr ⟨hstop, ?_⟩
        rw [Plan.visits, List.getLast?_cons, List.getLast?_append, hlast]
        rfl
  | case7 depth turns cs hturns before inner after hb shorter hnested ih => exact ih hv

end Visits

/-! ## The control of a rendering -/

/-- **The text and the two limits control the rendering.**  Whatever expressions evaluate to, from
whatever state, the texts that are looked into, the turns that are taken, the limit that stops the
rendering and the number of expressions that are evaluated are those of the plan.  What is looked
into stands in the text and not too deep, and the turns and the expressions are bounded.  Where no
limit stops the rendering and no block lacks its end, the blocks at the top are replaced by what
each of them is rendered to on its own, and all else is kept. -/
theorem control_fixed_by_text {σ : Type} (r : Renderer σ) (state : σ) (text : String) :
    let cs := text.toList
    let p := plan ⟨r.maxDepth, r.maxIterations⟩ 0 0 cs
    let done := r.renderFrom 0 cs 0 "" 0 state cs
    r.renderLogged 0 cs 0 "" 0 state cs = (done, p.visits 0) ∧
    done.turns = p.turns ∧ done.halt = p.halt.map (Limit.diagnosis r.ceiling) ∧
    (r.counting.renderFrom 0 cs 0 "" 0 (state, 0) cs).state = (done.state, p.evaluations) ∧
    (∀ v ∈ p.visits 0, v.text <:+: cs ∧ (v.depth ≤ r.maxDepth ∨
      p.halt = some .depth ∧ (p.visits 0).getLast? = some v)) ∧
    p.turns ≤ cs.length + 1 ∧ p.turns ≤ r.maxIterations + 1 ∧
    p.evaluations ≤ r.maxIterations ∧
    let (blocks, tail) := cutBlocks cs
    (blocks.flatMap fun block => block.1 ++ blockText block.2) ++ tail = cs ∧
      (p.halt = none → nextBlock tail = .none →
        (r.render state text).1 = joined (r.replacements state blocks) ++ String.ofList tail) := by
  intro cs p done
  have hdone : done = { out := (p.write r cs 0 state).1
                        turns := p.turns
                        state := (p.write r cs 0 state).2
                        halt := p.halt.map (Limit.diagnosis r.ceiling) } := by
    have heq := r.renderFrom_eq 0 cs 0 "" 0 state cs
    simp only [String.empty_append, Nat.zero_add] at heq
    exact heq
  have hturns : p.turns ≤ r.maxIterations + 1 := by
    have hle : 0 + p.turns ≤ r.maxIterations + 1 := (turns_plan_le (Nat.zero_le _)).1
    rwa [Nat.zero_add] at hle
  have hevaluations := p.evaluations_lt_turns
  refine ⟨r.renderLogged_eq 0 cs 0 "" 0 state cs, by rw [hdone], by rw [hdone], ?_, ?_,
    turns_plan_le_length, hturns, by omega, cutBlocks_append cs, ?_⟩
  · rw [Renderer.renderFrom_eq, hdone]
    exact congrArg Prod.snd ((r.write_counting cs 0 state 0 p).trans (by rw [Nat.zero_add]))
  · exact fun v hv => ⟨isInfix_of_mem_visits hv, depth_of_mem_visits hv⟩
  · intro hhalt htail
    obtain ⟨-, hwrite⟩ := write_eq_replacements (r := r) hhalt state
    obtain ⟨ending, hending, hplain⟩ := hwrite cs 0
    rw [r.render_of_halt_none state text hhalt, hending, hplain htail]

/-- A block that holds a block, between literal texts. -/
theorem control_fixed_by_text_nested :
    let r : Renderer Nat :=
      { maxDepth := 1, maxIterations := 4, debug := false
        evaluate := fun source n => (source ++ source, n + 1) }
    let text := "x{{ {{a}}b }}y"
    let (blocks, tail) := cutBlocks text.toList
    (plan ⟨1, 4⟩ 0 0 text.toList).halt = none ∧ nextBlock tail = .none ∧
      (r.render 0 text).1 = joined (r.replacements 0 blocks) ++ String.ofList tail ∧
      joined (r.replacements 0 blocks) = "xaabaab" ∧ String.ofList tail = "y" := by
  intro r text
  have hhalt : (plan ⟨1, 4⟩ 0 0 text.toList).halt = none := by decide +kernel
  have htail : nextBlock (cutBlocks text.toList).2 = .none := by decide +kernel
  obtain ⟨-, -, -, -, -, -, -, -, -, hrender⟩ := control_fixed_by_text r 0 text
  exact ⟨hhalt, htail, hrender hhalt htail, by decide +kernel, by decide +kernel⟩

end Stencil.Template
