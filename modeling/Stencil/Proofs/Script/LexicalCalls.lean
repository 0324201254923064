import Stencil.Proofs.Script.Detached
import Stencil.Proofs.Script.Supply

/-! # Calls are lexically scoped

**What a call of a function of a script comes to does not depend on what the activations around it
bind** (`calls_lexical`).  The machines on which it is called may differ in all their activations,
provided that these are equally many; they have to agree on what is counted and on the random
numbers to come.  If both give out the same identities, the calls give the same value or the same
error.  If the identities start elsewhere, the calls give the same up to those that they gave out
themselves: each result is one common result with its own identities moved.  For this the function,
its arguments and what names stand for must be older than both machines' supplies, and the host must
not look at identities.
-/
namespace Stencil.Script

/-- No identity in the value is as late as the bound: the value is the same under every renaming
that leaves the earlier ones alone. -/
def Value.IsOlder (base : Identity) (v : Value) : Prop :=
  ∀ ρ : Identity → Identity, (∀ id < base, ρ id = id) → v.rename ρ = v

/-- What names stand for is older than the bound, and the host does not look at later identities. -/
structure Context.IsOlder (base : Identity) (c : Context) : Prop where
  scope : ∀ name v, c.scope.lookup? name = some v → v.IsOlder base
  natives : ∀ ρ, IsShiftFrom base ρ → ∀ name args,
    c.host.natives name (args.map (Value.rename ρ)) =
      (c.host.natives name args).map (Value.rename ρ)

variable {c : Context} {base : Identity}

theorem Context.IsOlder.invariant (h : c.IsOlder base) {ρ : Identity → Identity}
    (hρ : IsShiftFrom base ρ) : c.Invariant ρ fun _ => True where
  within := c.within_true
  builtin _ := trivial
  scope name := by
    cases hfound : c.scope.lookup? name with
    | none => rfl
    | some v => exact congrArg some (h.scope name v hfound ρ hρ.below)
  natives _ name _ args _ := h.natives ρ hρ name args

theorem Value.map_rename_of_isOlder {args : List Value} (h : ∀ v ∈ args, v.IsOlder base)
    {ρ : Identity → Identity} (hρ : IsShiftFrom base ρ) : args.map (Value.rename ρ) = args :=
  (List.map_congr_left fun v hv => h v hv ρ hρ.below).trans (List.map_id _)

namespace Eval
variable {f : Value} {args : List Value}

/-- On a machine whose identities start elsewhere a call of what is older gives the same value with
moved identities, or the same error. -/
theorem callVia_shift (hc : c.IsOlder base) (hf : f.IsOlder base)
    (hargs : ∀ v ∈ args, v.IsOlder base) {ρ : Identity → Identity} (hρ : IsShiftFrom base ρ)
    (depth : Nat) {m : Machine} (hm : base ≤ m.next) :
    ((callVia (enter depth) f args).outcome c (m.rename ρ)).1 =
      ((callVia (enter depth) f args).outcome c m).1.map (Value.rename ρ) := by
  have hcall := PairLogic.callVia (PairLogic.enter
    (L := .shifted c (fun _ => True) base ρ hρ (hc.invariant hρ)) depth)
  have hshifted := hcall () f args f.within_true fun v _ => v.within_true
  have hshifted : Shifted c (fun _ => True) base ρ depth .call (callVia (enter depth) f args)
      (callVia (enter depth) (f.rename ρ) (args.map (Value.rename ρ)))
      fun v v' => v' = v.rename ρ := PairLogic.weaken hshifted fun _ _ _ h => h.2
  rw [hf ρ hρ.below, Value.map_rename_of_isOlder hargs hρ] at hshifted
  rw [(hshifted.twins m ⟨m.within_true, hm⟩).eq_map]

/-- **Calls are lexically scoped.**  A function of a script is called with the same arguments on two
machines that agree on the height of the stack, on what is counted and on the random numbers to
come, whatever their activations bind; the evaluator calls it, or a built-in function that was given
it.  If both machines give out the same identities, the value or the error is the same, and they
agree on all of this afterwards.  If they start to give them out at different places, behind those
of the function, of its arguments and of what names stand for, the two results are one, with the
identities that were given out moved to where each machine has them. -/
theorem calls_lexical (c : Context) (id : Identity) (definition : FunctionDef)
    (captured : List (String × Value)) (siblings : Siblings) (args : List Value) {m m' : Machine}
    (hheight : m'.stack.length = m.stack.length) (hticks : m'.ticks = m.ticks)
    (hallocated : m'.allocated = m.allocated) (hseed : m'.seed = m.seed) :
    ∀ call ∈ [callVia, callGiven],
      let f := Value.closure id definition captured siblings
      let run := fun m : Machine =>
        (call (enter (c.limits.callDepth - m.stack.length)) f args).outcome c m
      (m'.next = m.next → (run m').1 = (run m).1 ∧ (run m).2.SameCounts (run m').2) ∧
      ∀ base, Globals.firstIdentity ≤ base → base ≤ m.next → base ≤ m'.next →
        c.IsOlder base → f.IsOlder base → (∀ v ∈ args, v.IsOlder base) →
        ∃ (common : Except ScriptError Value) (ρ ρ' : Identity → Identity),
          IsShiftFrom base ρ ∧ IsShiftFrom base ρ' ∧
          (run m).1 = common.map (Value.rename ρ) ∧
          (run m').1 = common.map (Value.rename ρ') := by
  intro call hcall f run
  -- The two ways to call differ only in how a built-in function goes on.
  have hrun : ∀ m, run m =
      (callVia (enter (c.limits.callDepth - m.stack.length)) f args).outcome c m := by
    simp only [List.mem_cons, List.not_mem_nil, or_false] at hcall
    rcases hcall with rfl | rfl <;> exact fun _ => rfl
  have hsame := fun depth (m m' : Machine) (h : m.SameCounts m') =>
    sameCounts_callVia c depth id definition captured siblings args h
  refine ⟨fun hnext => ?_, fun base hbase hle hle' hc hf hargs => ?_⟩
  · rw [hrun, hrun, hheight]
    exact hsame _ m m' ⟨hticks, hallocated, hnext, hseed⟩
  · -- Both calls are that on a machine which starts at the bound and has no locals, moved.
    let depth := c.limits.callDepth - m.stack.length
    let start : Machine :=
      { next := base, ticks := m.ticks, allocated := m.allocated, seed := m.seed }
    have hmoved : ∀ m₁ : Machine, m₁.stack.length = m.stack.length → m₁.ticks = m.ticks →
        m₁.allocated = m.allocated → m₁.seed = m.seed → base ≤ m₁.next →
        (run m₁).1 = ((callVia (enter depth) f args).outcome c start).1.map
          (Value.rename (shiftFrom base (m₁.next - base))) := by
      intro m₁ hheight₁ hticks₁ hallocated₁ hseed₁ hle₁
      have hρ := isShiftFrom_shiftFrom hbase (m₁.next - base)
      have hnext : m₁.next = shiftFrom base (m₁.next - base) base := by
        rw [shiftFrom_of_le (Nat.le_refl base), Nat.add_sub_cancel' hle₁]
      have hcounts : (start.rename (shiftFrom base (m₁.next - base))).SameCounts m₁ :=
        ⟨hticks₁, hallocated₁, hnext, hseed₁⟩
      rw [← callVia_shift hc hf hargs hρ depth (Nat.le_refl base), hrun, hheight₁]
      exact (hsame depth _ m₁ hcounts).1
    exact ⟨_, _, _, isShiftFrom_shiftFrom hbase _, isShiftFrom_shiftFrom hbase _,
      hmoved m rfl rfl rfl rfl hle, hmoved m' hheight hticks hallocated hseed hle'⟩

/-- The function `() => [typeof secret]`. -/
def asksForSecret : FunctionDef :=
  .mk none [] (.expr (.array [.unary .typeOf (.name "secret")])) true

/-- Neither the activation that calls it nor the one that waits tells the function what `secret` is,
wherever the identities start. -/
theorem calls_lexical_secret :
    let c : Context := { budget := { limit := 5000 } }
    let m : Machine :=
      { current := ⟨[[("secret", ⟨.bool true, false⟩)]], [], []⟩, callers := [⟨[[]], [], []⟩],
        next := 10 }
    let m' : Machine :=
      { callers := [⟨[[("secret", ⟨.string "s", false⟩)]], [], []⟩], next := 20 }
    let f := Value.closure 6 asksForSecret [] []
    let run := fun m : Machine =>
      (callVia (enter (c.limits.callDepth - m.stack.length)) f []).outcome c m
    (m'.stack.length = m.stack.length ∧ m'.ticks = m.ticks ∧ m'.allocated = m.allocated ∧
      m'.seed = m.seed) ∧
    (run m).1 = .ok (.array 10 #[.string "undefined"]) ∧
    ∃ (common : Except ScriptError Value) (ρ ρ' : Identity → Identity),
      IsShiftFrom 7 ρ ∧ IsShiftFrom 7 ρ' ∧ (run m).1 = common.map (Value.rename ρ) ∧
        (run m').1 = common.map (Value.rename ρ') := by
  intro c m m' f run
  have hglobal : ∀ name v, c.scope.lookup? name = some v → v.IsOlder 7 := by
    intro name v hv ρ hρ
    have hglobals : ∀ id < Globals.firstIdentity, ρ id = id := fun id hid =>
      hρ id (Nat.lt_succ_of_lt hid)
    exact Globals.rename_table hglobals (name, v) (mem_of_lookup hv)
  have hc : c.IsOlder 7 := ⟨hglobal, fun _ _ _ _ => rfl⟩
  have hf : f.IsOlder 7 := by
    intro ρ hρ
    have hid : ρ 6 = 6 := hρ 6 (by decide)
    simp [f, hid, mapMembers]
  obtain ⟨-, hshift⟩ := @calls_lexical c 6 asksForSecret [] [] [] m m' rfl rfl rfl rfl
    callVia List.mem_cons_self
  exact ⟨⟨rfl, rfl, rfl, rfl⟩, rfl,
    hshift 7 (by decide) (by decide) (by decide) hc hf (List.forall_mem_nil _)⟩

end Eval
end Stencil.Script
