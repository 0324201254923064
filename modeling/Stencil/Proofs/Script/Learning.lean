import Stencil.Proofs.Script.Activations

/-! # Evaluations that learn

`Learns` says of a single step what a logic of pairs says of two: from a machine of which a world
says the truth, the step gets to one of which a later world does, whether it returns or fails, and
its results are as wanted in that world.  What the worlds say of machines is left open (`Tracking`),
but it must not depend on what is merely counted.  The rules that hold whatever they say are proved
here once.
-/
namespace Stencil.Script

/-! ## The values of a machine -/

/-- The values that an activation holds. -/
def Activation.values (a : Activation) : List Value :=
  a.frames.flatMap (fun frame => frame.map fun p => p.2.value) ++ a.captured.map (·.2) ++
    a.siblings.flatMap fun p => match p.2 with
      | .constant v => [v]
      | .function _ captured => captured.map (·.2)

/-- The values that a machine holds. -/
def Machine.values (m : Machine) : List Value :=
  (m.current :: m.callers).flatMap Activation.values ++ m.completion :: m.defaultExport.toList

/-- Whatever holds of everything that an activation binds holds of its values. -/
theorem Activation.forall_values {P : Value → Prop} {a : Activation}
    (hframes : ∀ frame ∈ a.frames, ∀ p ∈ frame, P p.2.value) (hcaptured : ∀ p ∈ a.captured, P p.2)
    (hconstants : ∀ name v, (name, .constant v) ∈ a.siblings → P v)
    (hfunctions : ∀ name f captured, (name, .function f captured) ∈ a.siblings →
      ∀ p ∈ captured, P p.2) : ∀ v ∈ a.values, P v := by
  refine List.forall_mem_append.mpr ⟨List.forall_mem_append.mpr ⟨fun v hv => ?_, ?_⟩, ?_⟩
  · obtain ⟨frame, hframe, hv⟩ := List.mem_flatMap.mp hv
    obtain ⟨p, hp, rfl⟩ := List.mem_map.mp hv
    exact hframes frame hframe p hp
  · exact List.forall_mem_map.mpr hcaptured
  · intro v hv
    obtain ⟨⟨name, b⟩, hb, hv⟩ := List.mem_flatMap.mp hv
    cases b with
    | constant u =>
      obtain rfl := List.mem_singleton.mp hv
      exact hconstants name v hb
    | function f captured =>
      obtain ⟨p, hp, rfl⟩ := List.mem_map.mp hv
      exact hfunctions name f captured hb p hp

/-- Whatever holds of the values of all activations and of what is kept holds of the values of the
machine. -/
theorem Machine.forall_values {P : Value → Prop} {m : Machine}
    (hcurrent : ∀ v ∈ m.current.values, P v) (hcallers : ∀ a ∈ m.callers, ∀ v ∈ a.values, P v)
    (hcompletion : P m.completion) (hdefault : ∀ v ∈ m.defaultExport, P v) :
    ∀ v ∈ m.values, P v := by
  refine List.forall_mem_append.mpr ⟨fun v hv => ?_, List.forall_mem_cons.mpr ⟨hcompletion, ?_⟩⟩
  · obtain ⟨a, ha, hv⟩ := List.mem_flatMap.mp hv
    rcases List.mem_cons.mp ha with rfl | ha
    · exact hcurrent v hv
    · exact hcallers a ha v hv
  · exact fun v hv => hdefault v (Option.mem_toList.mp hv)

/-! ## What is learnt -/

/-- Sides together with what their worlds say of machines. -/
structure Tracking extends Sides where
  /-- The world says the truth of the machine. -/
  Tracks : World → Machine → Prop
  /-- What is merely counted does not matter. -/
  same : ∀ {w m m'}, m.Same m' → m'.next = m.next → m'.received = m.received →
    Tracks w m → Tracks w m'

/-- From a machine that the world tracks, the step gets to one that a later world tracks, and its
results are as `Q` says of that world. -/
def Learns (T : Tracking) (c : Context) {α : Type} (w : T.World) (x : Eval α)
    (Q : T.World → α → Prop) : Prop :=
  ∀ m, T.Tracks w m → ∃ w', T.Le w w' ∧ T.Tracks w' (x.outcome c m).2 ∧
    ∀ a, (x.outcome c m).1 = .ok a → Q w' a

namespace Learns
variable {T : Tracking} {c : Context} {w : T.World} {α β : Type} {x : Eval α}
  {P Q : T.World → α → Prop}

theorem result {a : α} (h : Q w a) : Learns T c w (pure a) Q :=
  fun _ hm => ⟨w, T.refl w, hm, fun _ ha => Except.ok.inj ha ▸ h⟩

theorem fail (e : ScriptError) : Learns T c w (throw e : Eval α) Q :=
  fun _ hm => ⟨w, T.refl w, hm, fun _ ha => nomatch ha⟩

theorem bind {R : T.World → β → Prop} {f : α → Eval β} (hx : Learns T c w x P)
    (hf : ∀ w' a, T.Le w w' → P w' a → Learns T c w' (f a) R) :
    Learns T c w (x >>= f) R := by
  intro m hm
  obtain ⟨w₁, hle, hm₁, hP⟩ := hx m hm
  rw [Eval.outcome_bind]
  rcases houtcome : x.outcome c m with ⟨_ | a, m₁⟩
  · rw [houtcome] at hm₁
    exact ⟨w₁, hle, hm₁, fun _ ha => nomatch ha⟩
  · rw [houtcome] at hm₁ hP
    obtain ⟨w₂, hle', hm₂, hR⟩ := hf w₁ a hle (hP a rfl) m₁ hm₁
    exact ⟨w₂, T.trans hle hle', hm₂, hR⟩

theorem weaken (h : Learns T c w x P) (hPQ : ∀ w' a, T.Le w w' → P w' a → Q w' a) :
    Learns T c w x Q := by
  intro m hm
  obtain ⟨w', hle, hm', hP⟩ := h m hm
  exact ⟨w', hle, hm', fun a ha => hPQ w' a hle (hP a ha)⟩

/-- A step that touches neither values nor identities. -/
theorem counter (hx : ∀ m : Machine, m.Same (x.outcome c m).2 ∧
    (x.outcome c m).2.next = m.next ∧ (x.outcome c m).2.received = m.received) :
    Learns T c w x fun _ _ => True := by
  intro m hm
  obtain ⟨hsame, hnext, hreceived⟩ := hx m
  exact ⟨w, T.refl w, T.same hsame hnext hreceived hm, fun _ _ => trivial⟩

theorem get : Learns T c w (MonadState.get : Eval Machine) fun w' m => T.Tracks w' m :=
  fun _ hm => ⟨w, T.refl w, hm, fun _ ha => Except.ok.inj ha ▸ hm⟩

theorem read : Learns T c w (MonadReader.read : Eval Context) fun _ c' => c' = c :=
  fun _ hm => ⟨w, T.refl w, hm, fun _ ha => (Except.ok.inj ha).symm⟩

theorem limits : Learns T c w Eval.limits fun _ limits => limits = c.limits :=
  fun _ hm => ⟨w, T.refl w, hm, fun _ ha => (Except.ok.inj ha).symm⟩

theorem tick : Learns T c w Eval.tick fun _ _ => True :=
  counter fun _ => by
    rw [Eval.outcome_tick]
    exact ⟨⟨rfl, rfl, rfl, rfl, rfl⟩, rfl, rfl⟩

theorem charge (bytes : Nat) : Learns T c w (Eval.charge bytes) fun _ _ => True :=
  counter fun _ => by
    rw [Eval.outcome_charge]
    split <;> exact ⟨⟨rfl, rfl, rfl, rfl, rfl⟩, rfl, rfl⟩

theorem random : Learns T c w Native.random fun _ _ => True :=
  counter fun m => by
    obtain ⟨x, next, h⟩ := Eval.exists_outcome_random
    rw [h]
    exact ⟨⟨rfl, rfl, rfl, rfl, rfl⟩, rfl, rfl⟩

theorem isDeclared (name : String) : Learns T c w (Eval.isDeclared name) fun _ _ => True := by
  unfold Eval.isDeclared
  refine bind (counter fun _ => ⟨⟨rfl, rfl, rfl, rfl, rfl⟩, rfl, rfl⟩) fun _ frames _ _ => ?_
  split <;> exact result trivial

theorem ofExcept (y : Except ScriptError α) :
    Learns T c w (Eval.ofExcept y) fun _ a => y = .ok a := by
  cases y with
  | ok a => exact result rfl
  | error e => exact fail e

/-- A check in front of a step. -/
theorem guard {p : Prop} [Decidable p] {e : ScriptError} (h : ¬ p → Learns T c w x Q) :
    Learns T c w (if p then do let _ : Unit ← throw e; x else x) Q := by
  split
  · exact bind (P := fun _ _ => False) (fail e) fun _ _ _ hf => hf.elim
  · rename_i hp
    exact h hp

/-- The second side may be taken to be the same. -/
theorem same (h : Learns T c w x P) : Learns T c w x fun w' a => ∃ a', T.Same w' a a' :=
  weaken h fun _ a _ _ => ⟨a, rfl⟩

theorem paired {y : Eval Value} (h : Learns T c w y T.Fits) :
    Learns T c w y fun w' v => ∃ v', T.Paired w' v v' :=
  weaken h fun _ _ _ hv => ⟨_, hv, rfl⟩

theorem ofPaired {y : Eval Value}
    (h : Learns T c w y fun w' v => ∃ v', T.Paired w' v v') : Learns T c w y T.Fits :=
  weaken h fun _ _ _ ⟨_, hv, _⟩ => hv

theorem repeatTurns {go : Eval Bool} {turn : Eval (Option Flow)}
    (hgo : ∀ w, Learns T c w go fun _ _ => True)
    (hturn : ∀ w, Learns T c w turn fun w' flow => ∀ f ∈ flow, T.FitsFlow w' f) (turns : Nat) :
    Learns T c w (Eval.repeatTurns go turn turns) T.FitsFlow := by
  induction turns generalizing w with
  | zero => exact bind read fun _ _ _ _ => fail _
  | succ turns ih =>
    unfold Eval.repeatTurns
    refine bind (hgo w) fun w₁ goes _ _ => ?_
    split
    · unfold Eval.oneTurn
      refine bind tick fun w₂ _ _ _ => bind (hturn w₂) fun w₃ flow _ hflow => ?_
      split
      · exact result (hflow _ rfl)
      · exact ih
    · exact result trivial

theorem loop {go : Eval Bool} {turn : Eval (Option Flow)}
    (hgo : ∀ w, Learns T c w go fun _ _ => True)
    (hturn : ∀ w, Learns T c w turn fun w' flow => ∀ f ∈ flow, T.FitsFlow w' f) :
    Learns T c w (Eval.loop go turn) fun w' flow => ∃ flow', T.PairedFlow w' flow flow' :=
  bind read fun _ _ _ _ => weaken (repeatTurns hgo hturn _) fun _ _ _ h => ⟨_, h, rfl⟩

end Learns
end Stencil.Script
