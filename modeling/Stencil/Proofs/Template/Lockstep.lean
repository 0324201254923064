import Stencil.Proofs.Template.Substitution

/-! # Rendering from states that are alike

A renderer **respects** a relation between states if in related states it evaluates every expression
to the same text and leaves related states.  Then it renders every text alike from related states:
to the same output, with as many turns, stopped by the same limit, if any, and leaving related
states.  The recursion is that of rendering: the source of a block and the text behind it are both
shorter than the text.
-/
namespace Stencil.Template

/-- Two renderings that are the same but for their states, which are related. -/
structure Rendering.Alike {σ : Type} (R : σ → σ → Prop) (d d' : Rendering σ) : Prop where
  out : d'.out = d.out
  turns : d'.turns = d.turns
  halt : d'.halt = d.halt
  state : R d.state d'.state

namespace Renderer
variable {σ : Type} (r : Renderer σ)

/-- In related states every expression is evaluated to the same text, and leaves related states. -/
def Respects (R : σ → σ → Prop) : Prop :=
  ∀ source s s', R s s' →
    (r.evaluate source s').1 = (r.evaluate source s).1 ∧
      R (r.evaluate source s).2 (r.evaluate source s').2

/-- The source of an expression, the blocks in it rendered. -/
def renderSource (depth turns : Nat) (state : σ) (inner : List Char) : Rendering σ :=
  if hasNested inner then
    if r.maxDepth < depth + 1 then ⟨"", turns, state, some (.tooDeep r.maxDepth)⟩
    else r.renderFrom (depth + 1) inner 0 "" turns state inner
  else { out := String.ofList inner, turns, state }

variable {r} {R : σ → σ → Prop} {depth : Nat} {whole : List Char} {offset : Nat} {out : String}
  {turns : Nat} {state state' : σ} {cs before inner after : List Char}

/-- A block is replaced by what the source of its expression, rendered, evaluates to. -/
theorem renderFrom_found (h : turns + 1 ≤ r.maxIterations)
    (hb : blockAt depth cs = .found before inner after) :
    r.renderFrom depth whole offset out turns state cs =
      let source := r.renderSource depth (turns + 1) state inner
      if source.halt.isSome then { source with out := out ++ String.ofList before }
      else
        let (text, state) :=
          r.evaluate (String.ofList (Number.trimBlanks source.out.toList)) source.state
        r.renderFrom depth whole (offset + (Span.ofPieces 0 before inner).stop)
          (out ++ String.ofList before ++ text) source.turns state after := by
  rw [renderFrom]
  simp only [if_neg (Nat.not_lt.mpr h)]
  split
  · simp_all
  · simp_all
  · rename_i heq
    rw [heq] at hb
    cases hb
    rfl

theorem renderSource_alike (hstate : R state state')
    (ih : ∀ depth whole offset out turns,
      (r.renderFrom depth whole offset out turns state inner).Alike R
        (r.renderFrom depth whole offset out turns state' inner)) :
    (r.renderSource depth turns state inner).Alike R
      (r.renderSource depth turns state' inner) := by
  unfold renderSource
  split
  · split
    · exact ⟨rfl, rfl, rfl, hstate⟩
    · exact ih ..
  · exact ⟨rfl, rfl, rfl, hstate⟩

/-- **Texts are rendered alike from related states.** -/
theorem renderFrom_alike (hr : r.Respects R) (hstate : R state state') :
    (r.renderFrom depth whole offset out turns state cs).Alike R
      (r.renderFrom depth whole offset out turns state' cs) := by
  induction hlength : cs.length using Nat.strongRecOn
    generalizing depth whole offset out turns state state' cs with
  | ind n ih =>
  subst hlength
  by_cases hturns : r.maxIterations < turns + 1
  · rw [renderFrom_halts r hturns, renderFrom_halts r hturns]
    exact ⟨rfl, rfl, rfl, hstate⟩
  · have hturns := Nat.not_lt.mp hturns
    cases hb : blockAt depth cs with
    | none =>
      rw [renderFrom_none r hturns hb, renderFrom_none r hturns hb]
      exact ⟨rfl, rfl, rfl, hstate⟩
    | unclosed before body =>
      rw [renderFrom_unclosed r hturns hb, renderFrom_unclosed r hturns hb]
      exact ⟨rfl, rfl, rfl, hstate⟩
    | found before inner after =>
      obtain ⟨hinner, hafter⟩ := Block.length_lt (blockAt_append (by simp [hb])) hb
      have hsource : (r.renderSource depth (turns + 1) state inner).Alike R
          (r.renderSource depth (turns + 1) state' inner) :=
        renderSource_alike hstate fun _ _ _ _ _ => ih _ hinner hstate rfl
      rw [renderFrom_found hturns hb, renderFrom_found hturns hb]
      dsimp only
      rw [hsource.halt]
      split
      · exact ⟨rfl, hsource.turns, rfl, hsource.state⟩
      · obtain ⟨htext, hnext⟩ := hr (String.ofList (Number.trimBlanks
          (r.renderSource depth (turns + 1) state inner).out.toList)) _ _ hsource.state
        rw [hsource.out, hsource.turns, htext]
        exact ih _ hafter hnext rfl

theorem render_alike (hr : r.Respects R) (hstate : R state state') (text : String) :
    (r.render state' text).1 = (r.render state text).1 ∧
      R (r.render state text).2 (r.render state' text).2 := by
  have hdone : (r.renderFrom 0 text.toList 0 "" 0 state text.toList).Alike R
      (r.renderFrom 0 text.toList 0 "" 0 state' text.toList) := renderFrom_alike hr hstate
  unfold render
  dsimp only
  rw [hdone.halt, hdone.out]
  split <;> exact ⟨rfl, hdone.state⟩

end Renderer
end Stencil.Template
