import Stencil.Proofs.Template.Lockstep

/-! # The plan of a rendering

Which blocks are looked into, in which order, and where a limit stops the rendering, is settled
before anything is evaluated: a text and the two limits have a **plan** (`plan`), and to render the
text is to carry the plan out (`Renderer.renderFrom_eq`).  The evaluation of expressions has no part
in the plan.  It only tells what is written into the places of the blocks.
-/
namespace Stencil.Template

/-- The limits of a rendering. -/
structure Ceiling where
  /-- Blocks that may be nested. -/
  depth : Nat
  /-- Turns that may be taken. -/
  turns : Nat

/-- The limits of a renderer. -/
def Renderer.ceiling {σ : Type} (r : Renderer σ) : Ceiling :=
  ⟨r.maxDepth, r.maxIterations⟩

/-- The limit that stops a rendering. -/
inductive Limit where
  | depth
  | turns
  deriving DecidableEq

/-- What is told of the limit that stopped a rendering. -/
def Limit.diagnosis (c : Ceiling) : Limit → Diagnosis
  | .depth => .tooDeep c.depth
  | .turns => .tooMany c.turns

/-- What there is to do to render a text. -/
inductive Plan where
  /-- No turn is left. -/
  | spent
  /-- The text has no block, and is copied. -/
  | rest (cs : List Char)
  /-- The text before a block that has no end is copied, and a marker is written. -/
  | unclosed (before : List Char)
  /-- Behind the text before a block, the blocks within it are nested too deep. -/
  | refused (before inner : List Char)
  /-- Behind the text before a block, a limit stops the rendering of the blocks within it. -/
  | stopped (before inner : List Char) (source : Plan)
  /-- A block without blocks within it is evaluated. -/
  | plain (before inner : List Char) (next : Plan)
  /-- The blocks within a block are rendered, and then it is evaluated. -/
  | nested (before inner : List Char) (source next : Plan)

namespace Plan

/-- The limit that stops the rendering, if one does. -/
def halt : Plan → Option Limit
  | .spent => some .turns
  | .rest _ => none
  | .unclosed _ => none
  | .refused .. => some .depth
  | .stopped _ _ source => source.halt
  | .plain _ _ next => next.halt
  | .nested _ _ _ next => next.halt

/-- The turns that are taken. -/
def turns : Plan → Nat
  | .spent | .rest _ | .unclosed _ | .refused .. => 1
  | .stopped _ _ source => 1 + source.turns
  | .plain _ _ next => 1 + next.turns
  | .nested _ _ source next => 1 + source.turns + next.turns

end Plan

/-- The plan for a text that stands `depth` blocks deep, when `turns` turns were taken before. -/
def plan (c : Ceiling) (depth turns : Nat) (cs : List Char) : Plan :=
  if c.turns < turns + 1 then .spent
  else
    match h : blockAt depth cs with
    | .none => .rest cs
    | .unclosed before _ => .unclosed before
    | .found before inner after =>
      have shorter := Block.length_lt (blockAt_append (by simp [h])) h
      if hasNested inner then
        if c.depth < depth + 1 then .refused before inner
        else
          let source := plan c (depth + 1) (turns + 1) inner
          if source.halt.isSome then .stopped before inner source
          else .nested before inner source (plan c depth (turns + 1 + source.turns) after)
      else .plain before inner (plan c depth (turns + 1) after)
termination_by cs.length
decreasing_by
  · exact shorter.1
  · exact shorter.2
  · exact shorter.2

/-! ## Carrying a plan out -/

namespace Renderer
variable {σ : Type} (r : Renderer σ)

/-- The text of the expression that a source holds. -/
def evaluateSource (source : String) (state : σ) : String × σ :=
  r.evaluate (String.ofList (Number.trimBlanks source.toList)) state

end Renderer

/-- What a plan writes for the rest of a text `whole`, `offset` bytes into it, and the state that it
leaves. -/
def Plan.write {σ : Type} (r : Renderer σ) (whole : List Char) (offset : Nat) (state : σ) :
    Plan → String × σ
  | .spent => ("", state)
  | .rest cs => (String.ofList cs, state)
  | .unclosed before =>
    (String.ofList before ++ unclosedMarker r.debug whole (offset + Text.byteLength before), state)
  | .refused before _ => (String.ofList before, state)
  | .stopped before inner source => (String.ofList before, (source.write r inner 0 state).2)
  | .plain before inner next =>
    let (text, state) := r.evaluateSource (String.ofList inner) state
    let (out, state) := next.write r whole (offset + (Span.ofPieces 0 before inner).stop) state
    (String.ofList before ++ text ++ out, state)
  | .nested before inner source next =>
    let (expression, state) := source.write r inner 0 state
    let (text, state) := r.evaluateSource expression state
    let (out, state) := next.write r whole (offset + (Span.ofPieces 0 before inner).stop) state
    (String.ofList before ++ text ++ out, state)

namespace Renderer
variable {σ : Type} (r : Renderer σ) {depth turns : Nat} {state : σ} {inner : List Char}

theorem renderSource_plain (hnested : ¬ hasNested inner) :
    r.renderSource depth turns state inner = { out := String.ofList inner, turns, state } :=
  if_neg hnested

theorem renderSource_refused (hnested : hasNested inner) (hdepth : r.maxDepth < depth + 1) :
    r.renderSource depth turns state inner =
      ⟨"", turns, state, some (.tooDeep r.maxDepth)⟩ := by
  rw [renderSource, if_pos hnested, if_pos hdepth]

theorem renderSource_nested (hnested : hasNested inner) (hdepth : ¬ r.maxDepth < depth + 1) :
    r.renderSource depth turns state inner =
      r.renderFrom (depth + 1) inner 0 "" turns state inner := by
  rw [renderSource, if_pos hnested, if_neg hdepth]

/-- The blocks within a block are rendered by a plan of their own. -/
theorem renderSource_eq (hnested : hasNested inner) (hdepth : ¬ r.maxDepth < depth + 1) {p : Plan}
    (h : r.renderFrom (depth + 1) inner 0 "" (turns + 1) state inner =
      { out := "" ++ (p.write r inner 0 state).1
        turns := turns + 1 + p.turns
        state := (p.write r inner 0 state).2
        halt := p.halt.map (Limit.diagnosis r.ceiling) }) :
    r.renderSource depth (turns + 1) state inner =
      { out := (p.write r inner 0 state).1
        turns := turns + 1 + p.turns
        state := (p.write r inner 0 state).2
        halt := p.halt.map (Limit.diagnosis r.ceiling) } := by
  rw [r.renderSource_nested hnested hdepth, h, String.empty_append]

/-- **To render a text is to carry out its plan.** -/
theorem renderFrom_eq (depth : Nat) (whole : List Char) (offset : Nat) (out : String)
    (turns : Nat) (state : σ) (cs : List Char) :
    r.renderFrom depth whole offset out turns state cs =
      let p := plan r.ceiling depth turns cs
      let written := p.write r whole offset state
      { out := out ++ written.1
        turns := turns + p.turns
        state := written.2
        halt := p.halt.map (Limit.diagnosis r.ceiling) } := by
  -- by the recursion of the plan; the output and the state so far are any: they settle nothing
  fun_induction plan r.ceiling depth turns cs generalizing whole offset out state with
  | case1 depth turns cs hturns =>
    rw [renderFrom_halts r hturns]
    simp [Plan.write, Plan.turns, Plan.halt, Limit.diagnosis, ceiling]
  | case2 depth turns cs hturns hb =>
    rw [renderFrom_none r (Nat.not_lt.mp hturns) hb]
    rfl
  | case3 depth turns cs hturns before body hb =>
    rw [renderFrom_unclosed r (Nat.not_lt.mp hturns) hb]
    simp [Plan.write, Plan.turns, Plan.halt, String.append_assoc]
  | case4 depth turns cs hturns before inner after hb shorter hnested hdepth =>
    rw [renderFrom_found (Nat.not_lt.mp hturns) hb, r.renderSource_refused hnested hdepth]
    rfl
  | case5 depth turns cs hturns before inner after hb shorter hnested hdepth source hhalt ih =>
    have hsource := r.renderSource_eq (p := source) hnested hdepth (ih inner 0 "" state)
    rw [renderFrom_found (Nat.not_lt.mp hturns) hb, hsource]
    simp only [Option.isSome_map, hhalt, if_true, Plan.write, Plan.turns, Plan.halt, Nat.add_assoc]
  | case6 depth turns cs hturns before inner after hb shorter hnested hdepth source hhalt ih ih' =>
    have hsource := r.renderSource_eq (p := source) hnested hdepth (ih inner 0 "" state)
    rw [renderFrom_found (Nat.not_lt.mp hturns) hb, hsource]
    simp only [Option.isSome_map, hhalt, Bool.false_eq_true, if_false, ih']
    simp only [Plan.write, Plan.turns, Plan.halt, evaluateSource, String.append_assoc,
      Nat.add_assoc]
  | case7 depth turns cs hturns before inner after hb shorter hnested ih =>
    rw [renderFrom_found (Nat.not_lt.mp hturns) hb, r.renderSource_plain hnested]
    simp only [Option.isSome_none, Bool.false_eq_true, if_false, ih]
    simp only [Plan.write, Plan.turns, Plan.halt, evaluateSource, String.append_assoc,
      Nat.add_assoc]

theorem render_of_halt_none (state : σ) (text : String)
    (h : (plan r.ceiling 0 0 text.toList).halt = none) :
    r.render state text = (plan r.ceiling 0 0 text.toList).write r text.toList 0 state := by
  simp only [render, renderFrom_eq, h, Option.map_none, String.empty_append]

end Renderer

/-! ## What a plan can be -/

section Equations
variable {c c' : Ceiling} {depth turns turns' : Nat} {cs before inner after body : List Char}

/-- The pieces of a block that was found make up the text. -/
theorem append_of_found (hb : blockAt depth cs = .found before inner after) :
    before ++ opening ++ inner ++ closing ++ after = cs :=
  Option.some.inj ((congrArg Block.text? hb).symm.trans (blockAt_append (by simp [hb])))

theorem length_of_found (hb : blockAt depth cs = .found before inner after) :
    before.length + inner.length + after.length + 4 = cs.length := by
  rw [← append_of_found hb]
  simp [opening, closing]
  omega

theorem plan_rest (hturns : turns + 1 ≤ c.turns) (hb : blockAt depth cs = .none) :
    plan c depth turns cs = .rest cs := by
  rw [plan, if_neg (Nat.not_lt.mpr hturns)]
  split <;> simp_all

theorem plan_unclosed (hturns : turns + 1 ≤ c.turns)
    (hb : blockAt depth cs = .unclosed before body) :
    plan c depth turns cs = .unclosed before := by
  rw [plan, if_neg (Nat.not_lt.mpr hturns)]
  split <;> simp_all

theorem plan_found (hturns : turns + 1 ≤ c.turns)
    (hb : blockAt depth cs = .found before inner after) :
    plan c depth turns cs =
      if hasNested inner then
        if c.depth < depth + 1 then .refused before inner
        else
          let source := plan c (depth + 1) (turns + 1) inner
          if source.halt.isSome then .stopped before inner source
          else .nested before inner source (plan c depth (turns + 1 + source.turns) after)
      else .plain before inner (plan c depth (turns + 1) after) := by
  rw [plan, if_neg (Nat.not_lt.mpr hturns)]
  split
  · simp_all
  · simp_all
  · rename_i heq
    rw [heq] at hb
    cases hb
    rfl

theorem plan_plain (hturns : turns + 1 ≤ c.turns)
    (hb : blockAt depth cs = .found before inner after) (hnested : ¬ hasNested inner) :
    plan c depth turns cs = .plain before inner (plan c depth (turns + 1) after) := by
  rw [plan_found hturns hb, if_neg hnested]

theorem plan_nested (hturns : turns + 1 ≤ c.turns)
    (hb : blockAt depth cs = .found before inner after) (hnested : hasNested inner)
    (hdepth : depth + 1 ≤ c.depth) {source : Plan}
    (hsource : plan c (depth + 1) (turns + 1) inner = source) (hhalt : source.halt = none) :
    plan c depth turns cs =
      .nested before inner source (plan c depth (turns + 1 + source.turns) after) := by
  rw [plan_found hturns hb, if_pos hnested, if_neg (Nat.not_lt.mpr hdepth), hsource]
  exact if_neg (by simp [hhalt])

theorem turns_of_halt_none (h : (plan c depth turns cs).halt = none) : turns + 1 ≤ c.turns := by
  by_contra hspent
  rw [plan, if_pos (Nat.not_le.mp hspent)] at h
  cases h

/-- Where no limit stops the rendering, a block is evaluated, after the blocks within it. -/
theorem plan_of_found (h : (plan c depth turns cs).halt = none)
    (hb : blockAt depth cs = .found before inner after) :
    ¬ hasNested inner ∧
        plan c depth turns cs = .plain before inner (plan c depth (turns + 1) after) ∧
        (plan c depth (turns + 1) after).halt = none ∨
      hasNested inner ∧ depth + 1 ≤ c.depth ∧
        ∃ source, plan c (depth + 1) (turns + 1) inner = source ∧ source.halt = none ∧
          plan c depth turns cs =
            .nested before inner source (plan c depth (turns + 1 + source.turns) after) ∧
          (plan c depth (turns + 1 + source.turns) after).halt = none := by
  have hplan := plan_found (turns_of_halt_none h) hb
  rw [hplan] at h ⊢
  by_cases hnested : hasNested inner
  · refine .inr ⟨hnested, ?_⟩
    rw [if_pos hnested] at h ⊢
    by_cases hdeep : c.depth < depth + 1
    · rw [if_pos hdeep] at h
      cases h
    rw [if_neg hdeep] at h ⊢
    refine ⟨Nat.not_lt.mp hdeep, _, rfl, ?_⟩
    dsimp only at h ⊢
    cases hsource : (plan c (depth + 1) (turns + 1) inner).halt with
    | none =>
      rw [hsource] at h
      exact ⟨rfl, rfl, h⟩
    | some l =>
      rw [hsource] at h
      exact absurd (hsource.symm.trans h) nofun
  · rw [if_neg hnested] at h ⊢
    exact .inl ⟨hnested, rfl, h⟩

/-- **More room changes nothing.**  A plan that no limit stops is that of every ceiling which leaves
as much room, or more. -/
theorem plan_mono (h : (plan c depth turns cs).halt = none) (hdepth : c.depth ≤ c'.depth)
    (hroom : c.turns + turns' ≤ c'.turns + turns) :
    plan c' depth turns' cs = plan c depth turns cs := by
  fun_induction plan c depth turns cs generalizing turns' with
  | case1 => cases h
  | case2 depth turns cs hturns hb => exact plan_rest (by omega) hb
  | case3 depth turns cs hturns before body hb => exact plan_unclosed (by omega) hb
  | case4 => cases h
  | case5 depth turns cs hturns before inner after hb shorter hnested hdeep source hhalt =>
    have hnone : source.halt = none := h
    rw [hnone] at hhalt
    cases hhalt
  | case6 depth turns cs hturns before inner after hb shorter hnested hdeep source hhalt ih =>
    rename_i ih'
    -- the source takes as many turns under both ceilings, so the rest has as much room again
    have hnone : source.halt = none := Option.not_isSome_iff_eq_none.mp hhalt
    have hsource : plan c' (depth + 1) (turns' + 1) inner = source := ih hnone (by omega)
    have hnext : (plan c depth (turns + 1 + source.turns) after).halt = none := h
    rw [plan_nested (by omega) hb hnested (by omega) hsource hnone, ih' hnext (by omega)]
  | case7 depth turns cs hturns before inner after hb shorter hnested ih =>
    have hnext : (plan c depth (turns + 1) after).halt = none := h
    rw [plan_plain (by omega) hb hnested, ih hnext (by omega)]

end Equations

/-! ## How far a plan goes -/

section Bounds
variable {c : Ceiling} {depth turns : Nat} {cs : List Char}

theorem Plan.one_le_turns (p : Plan) : 1 ≤ p.turns := by
  cases p <;> simp only [Plan.turns] <;> omega

/-- Every turn but the last one takes braces away from the text. -/
theorem turns_plan_le_length : (plan c depth turns cs).turns ≤ cs.length + 1 := by
  fun_induction plan c depth turns cs with
  | case1 | case2 | case3 | case4 => exact Nat.le_add_left _ _
  | case5 depth turns cs hturns before inner after hb shorter hnested hdeep source hhalt ih =>
    have hlength := length_of_found hb
    have hsource : source.turns ≤ inner.length + 1 := ih
    simp only [Plan.turns]
    omega
  | case6 depth turns cs hturns before inner after hb shorter hnested hdeep source hhalt ih ih' =>
    have hlength := length_of_found hb
    have hsource : source.turns ≤ inner.length + 1 := ih
    simp only [Plan.turns]
    omega
  | case7 depth turns cs hturns before inner after hb shorter hnested ih =>
    have hlength := length_of_found hb
    simp only [Plan.turns]
    omega

/-- No more turns are taken than are allowed, but for the one that finds that it is not. -/
theorem turns_plan_le (h : turns ≤ c.turns) :
    turns + (plan c depth turns cs).turns ≤ c.turns + 1 ∧
      ((plan c depth turns cs).halt = none →
        turns + (plan c depth turns cs).turns ≤ c.turns) := by
  fun_induction plan c depth turns cs with
  | case1 => exact ⟨Nat.succ_le_succ h, nofun⟩
  | case2 | case3 | case4 => simp only [Plan.turns]; omega
  | case5 depth turns cs hturns before inner after hb shorter hnested hdeep source hhalt ih =>
    obtain ⟨hle, -⟩ := ih (by omega)
    have hle : turns + 1 + source.turns ≤ c.turns + 1 := hle
    refine ⟨?_, fun hnone => ?_⟩
    · simp only [Plan.turns]
      omega
    · have hnone : source.halt = none := hnone
      rw [hnone] at hhalt
      cases hhalt
  | case6 depth turns cs hturns before inner after hb shorter hnested hdeep source hhalt ih ih' =>
    obtain ⟨-, hsource⟩ := ih (by omega)
    have hsource : turns + 1 + source.turns ≤ c.turns :=
      hsource (Option.not_isSome_iff_eq_none.mp hhalt)
    obtain ⟨hle, hle'⟩ := ih' hsource
    simp only [Plan.turns, Plan.halt]
    refine ⟨by omega, fun hnone => ?_⟩
    have hlt := hle' hnone
    omega
  | case7 depth turns cs hturns before inner after hb shorter hnested ih =>
    obtain ⟨hle, hle'⟩ := ih (by omega)
    simp only [Plan.turns, Plan.halt]
    refine ⟨by omega, fun hnone => ?_⟩
    have hlt := hle' hnone
    omega

end Bounds
end Stencil.Template
