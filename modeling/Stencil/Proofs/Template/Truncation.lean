import Stencil.Proofs.Template.Pieces

/-! # What a limit leaves of the output

A rendering that a limit stops and one with room enough write the same, block by block, until the
limit stops the first.  What was written within a block at the top is dropped then.  So what is left
is the output of the second, cut where a block at the top begins or ends, and behind it the marker
of the limit (`limits_only_truncate`).

The two renderings are compared by their plans, along the recursion of the plan that is stopped.
The plan with room enough is not looked into: all that is needed of it is that it has the blocks of
the text (`plan_of_found`), and that blocks within a block which no limit stops have one plan only
(`plan_unique`).
-/
namespace Stencil.Template

/-- The renderer within other limits. -/
def Renderer.within {σ : Type} (r : Renderer σ) (c : Ceiling) : Renderer σ :=
  { r with maxDepth := c.depth, maxIterations := c.turns }

section
variable {σ : Type} {r : Renderer σ} {c c' : Ceiling} {depth turns turns' : Nat} {cs : List Char}

end

end Stencil.Template
