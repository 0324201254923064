import Stencil.Proofs.Script.Activations

/-! # Which calls check their arguments

The arguments of a helper are checked (`checkArguments`) in one place only, at a call by a name.
**Whether they are is settled by the name and by the place of the call** (`expr_call_name`): the
name is that of a helper, and the running function has no local of that name.  Nothing that the
arguments do can change this, because an expression binds no names; which function the name stands
for does not matter either.

So a helper that is called in any other way takes arguments that the check refuses.  A local that
stands for the helper is enough (`alias_unchecked`).
-/
namespace Stencil.Script

/-- Whether some frame binds a name is a matter of the names in the frames. -/
theorem isSome_findBinding? (name : String) (frames : List Frame) :
    (findBinding? name frames).isSome =
      (frames.map (List.map Prod.fst)).any fun names => names.contains name := by
  have hframe : ∀ frame : Frame,
      (frame.lookup name).isSome = (frame.map Prod.fst).contains name := by
    intro frame
    induction frame with
    | nil => rfl
    | cons entry rest ih =>
      rw [List.lookup_cons, List.map_cons, List.contains_cons, ← ih]
      cases name == entry.1 <;> rfl
  induction frames with
  | nil => rfl
  | cons frame outer ih =>
    rw [List.map_cons, List.any_cons, ← ih, ← hframe]
    unfold findBinding?
    rw [List.findSome?_cons]
    cases frame.lookup name <;> rfl

namespace Eval
variable {α β : Type} {c : Context} {m : Machine}

/-- A sequence is settled by what its second step does where the first one ends. -/
theorem outcome_bind_congr {x : Eval α} {f g : α → Eval β}
    (h : ∀ a m', outcome c m x = (.ok a, m') → outcome c m' (f a) = outcome c m' (g a)) :
    outcome c m (x >>= f) = outcome c m (x >>= g) := by
  rw [outcome_bind, outcome_bind]
  rcases hx : outcome c m x with ⟨_ | a, m'⟩
  · rfl
  · exact h a m' hx

/-- Whether a call by the name has its arguments checked. -/
def checksCall (c : Context) (m : Machine) (name : String) : Bool :=
  !(findBinding? name m.current.frames).isSome && c.scope.isHelper name

/-- Locals that are called the same on two machines make the same calls checked ones. -/
theorem checksCall_eq {m' : Machine} (h : m'.current.frames.map (List.map Prod.fst) =
    m.current.frames.map (List.map Prod.fst)) (name : String) :
    checksCall c m' name = checksCall c m name := by
  unfold checksCall
  rw [isSome_findBinding?, isSome_findBinding?, h]

theorem outcome_checkNamedCall (name : String) (f : Value) (args : List Value) :
    outcome c m (checkNamedCall name f args) =
      (if !f.isCallable then .error (.notFunction name)
        else if checksCall c m name then checkArguments c.limits.arguments args else .ok (), m) := by
  unfold checkNamedCall isLocal isHelper checksCall
  cases f.isCallable with
  | false => simp [outcome_bind]
  | true =>
    simp only [Bool.not_true, Bool.false_eq_true, if_false, outcome_bind, outcome_frames,
      outcome_read, bind_pure_comp, outcome_map, Except.map]
    cases findBinding? name m.current.frames <;> cases c.scope.isHelper name <;>
      simp [outcome_bind]

/-- **What a call by a name does.**  The function is called with the values of the arguments; these
have been checked before if, when the call begins, the name is that of a helper and no local of the
running function is called so. -/
theorem expr_call_name (c : Context) (depth : Nat) (name : String) (args : List Expr)
    (optional : Bool) (m : Machine) :
    let call := callVia (enter depth)
    outcome c m (expr call (.call (.name name) args optional)) = outcome c m (do
      let f ← lookup name
      if optional && f.isNullish then return .undefined
      let vs ← exprs call args
      if !f.isCallable then throw (.notFunction name)
      if checksCall c m name then ofExcept (checkArguments c.limits.arguments vs)
      call f vs) := by
  intro call
  have hcall := StepLogic.callVia ((StepLogic.keepingStack c).enter depth)
  unfold expr
  refine outcome_bind_congr fun f m₁ hlookup => ?_
  have hlooked : Kept depth .places m m₁ := by
    have h := StepLogic.lookup (L := StepLogic.keepingStack c) (n := depth) (r := .places) name
    have h := h.kept m
    rwa [hlookup] at h
  split
  · rfl
  refine outcome_bind_congr fun vs m₂ hargs => ?_
  have hevaluated : Kept depth .places m₁ m₂ := by
    have h := (StepLogic.exprs hcall args fun _ _ => trivial).kept m₁
    rwa [hargs] at h
  have hnames := (hlooked.trans hevaluated).names Reach.noConfusion Reach.noConfusion
  rw [outcome_bind, outcome_checkNamedCall, checksCall_eq hnames]
  cases f.isCallable with
  | false => simp [outcome_bind]
  | true =>
    cases checksCall c m name with
    | false => simp
    | true =>
      simp only [Bool.not_true, Bool.false_eq_true, if_false, if_true]
      rw [outcome_bind, outcome_ofExcept]

/-- The program `let f = id; f(true)`. -/
def callOfAlias : List Stmt :=
  [.decl .letDecl [("f", some (.name "id"))], .expr (.call (.name "f") [.bool true] false)]

/-- Through a local name a helper takes arguments that the check refuses: here it refuses any. -/
theorem alias_unchecked :
    let c : Context := {
      scope := { helpers := [("id", .native (.host 6 "id" 1))] }
      limits := { arguments := { nodes := 0 } }
      budget := { limit := 5000 }
      host := { natives := fun _ args => .ok (Value.argument args 0) } }
    (runProgram c 7 callOfAlias).1 = .ok (.bool true) ∧
      checkArguments c.limits.arguments [.bool true] =
        .error (.outOfRange "helper argument exceeds 0 nodes") :=
  ⟨rfl, rfl⟩

end Eval
end Stencil.Script
