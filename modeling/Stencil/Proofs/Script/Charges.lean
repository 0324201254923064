import Stencil.Proofs.Script.Activations

/-! # What evaluations charge

The bytes that an evaluation has charged are counted on the machine.  No step takes any back, and
none leaves more of them than the limit allows, unless there were more before (`Charged`).  This is
a logic of steps (`StepLogic.charging`), so it holds of every program (`Eval.allocated_program`).

What is charged for a result is the matter of a second judgement: a step **pays** for its results
if, whenever it gives one, it has charged at least a number of bytes on the way that goes with it
(`Pays`).
-/
namespace Stencil.Script

namespace Eval
variable {α : Type} (c : Context) (m : Machine)

theorem allocated_lookup? (name : String) :
    ((lookup? name).outcome c m).2.allocated = m.allocated := by
  rw [outcome_lookup?]
  cases findBinding? name m.current.frames with
  | some b => rfl
  | none =>
    cases m.current.captured.lookup name with
    | some v => rfl
    | none => rcases m.current.siblings.lookup name with _ | v | ⟨f, captured⟩ <;> rfl

theorem allocated_checkWritable (target : Target) :
    ((checkWritable target).outcome c m).2.allocated = m.allocated := by
  unfold checkWritable
  rw [outcome_bind, outcome_frames]
  dsimp only
  split
  · split <;> rfl
  · rw [outcome_bind]
    have hlookup := allocated_lookup? c m target.root
    rcases hfound : (lookup? target.root).outcome c m with ⟨e | found, m'⟩
    · rw [hfound] at hlookup
      exact hlookup
    · rw [hfound] at hlookup
      cases found <;> exact hlookup

/-- A step on a place charges nothing. -/
theorem allocated_onPlace (target : Target) (step : SlotStep α) :
    ((onPlace target step).outcome c m).2.allocated = m.allocated := by
  rw [outcome_onPlace]
  have hcheck := allocated_checkWritable c m target
  rcases hfound : (checkWritable target).outcome c m with ⟨_ | _, m'⟩
  · rw [hfound] at hcheck
    exact hcheck
  · rfl

end Eval

/-- What a step may have done to the bytes charged: none are taken back, and the limit is kept. -/
structure Charged (c : Context) (m m' : Machine) : Prop where
  grows : m.allocated ≤ m'.allocated
  bounded : m.allocated ≤ c.limits.allocation → m'.allocated ≤ c.limits.allocation

namespace Charged
variable {c : Context} {m m' m'' : Machine}

theorem same (h : m'.allocated = m.allocated) : Charged c m m' :=
  ⟨Nat.le_of_eq h.symm, fun hm => h ▸ hm⟩

theorem trans (h : Charged c m m') (h' : Charged c m' m'') : Charged c m m'' :=
  ⟨Nat.le_trans h.grows h'.grows, fun hm => h'.bounded (h.bounded hm)⟩

end Charged

/-- In the context the step keeps to what it may charge, and its results satisfy `Q`. -/
def Charging (c : Context) {α : Type} (x : Eval α) (Q : α → Prop) : Prop :=
  ∀ m, Charged c m (x.outcome c m).2 ∧ ∀ a, (x.outcome c m).1 = .ok a → Q a

namespace Charging
variable {c : Context} {α β : Type} {P Q : α → Prop} {x : Eval α}

/-- A step that charges nothing. -/
theorem free (hx : ∀ m : Machine, (x.outcome c m).2.allocated = m.allocated)
    (hQ : ∀ m a, (x.outcome c m).1 = .ok a → Q a) : Charging c x Q :=
  fun m => ⟨Charged.same (hx m), hQ m⟩

/-- A step that charges nothing and whose result does not matter. -/
theorem counter (hx : ∀ m : Machine, (x.outcome c m).2.allocated = m.allocated) :
    Charging c x fun _ => True :=
  free hx fun _ _ _ => trivial

theorem result (a : α) (ha : Q a) : Charging c (pure a) Q :=
  free (fun _ => rfl) fun _ _ h => Except.ok.inj h ▸ ha

theorem fail (e : ScriptError) : Charging c (throw e : Eval α) Q :=
  free (fun _ => rfl) fun _ _ h => nomatch h

theorem bind {R : β → Prop} {f : α → Eval β} (hx : Charging c x P)
    (hf : ∀ a, P a → Charging c (f a) R) : Charging c (x >>= f) R := by
  intro m
  obtain ⟨hcharged, hP⟩ := hx m
  rw [Eval.outcome_bind]
  rcases houtcome : x.outcome c m with ⟨_ | a, m'⟩ <;> rw [houtcome] at hcharged hP
  · exact ⟨hcharged, fun _ h => nomatch h⟩
  · obtain ⟨hcharged', hR⟩ := hf a (hP a rfl) m'
    exact ⟨hcharged.trans hcharged', hR⟩

theorem weaken (h : Charging c x P) (hPQ : ∀ a, P a → Q a) : Charging c x Q :=
  fun m => ⟨(h m).1, fun a ha => hPQ a ((h m).2 a ha)⟩

theorem ofExcept {y : Except ScriptError α} (h : ∀ a, y = .ok a → Q a) :
    Charging c (Eval.ofExcept y) Q := by
  cases y with
  | ok a => exact result a (h a rfl)
  | error e => exact fail e

theorem charge (bytes : Nat) : Charging c (Eval.charge bytes) fun _ => True := by
  intro m
  rw [Eval.outcome_charge]
  split
  · exact ⟨Charged.same rfl, fun _ _ => trivial⟩
  · rename_i hfits
    exact ⟨⟨Nat.le_add_right _ _, fun _ => Nat.le_of_not_lt hfits⟩, fun _ _ => trivial⟩

theorem between {before after : Machine → Machine}
    (hbefore : ∀ m, (before m).allocated = m.allocated)
    (hafter : ∀ m, (after m).allocated = m.allocated) (h : Charging c x Q) :
    Charging c (Eval.between before after x) Q := by
  intro m
  obtain ⟨hcharged, hQ⟩ := h (before m)
  rw [Eval.outcome_between]
  exact ⟨(Charged.same (hbefore m)).trans (hcharged.trans (Charged.same (hafter _))), hQ⟩

theorem repeatTurns {go : Eval Bool} {turn : Eval (Option Flow)} {R : Flow → Prop}
    (hnormal : R .normal) (hgo : Charging c go fun _ => True)
    (hturn : Charging c turn fun flow => ∀ f ∈ flow, R f) (turns : Nat) :
    Charging c (Eval.repeatTurns go turn turns) R := by
  induction turns with
  | zero => exact bind (counter fun _ => rfl) fun _ _ => fail _
  | succ turns ih =>
    refine bind hgo fun goes _ => ?_
    split
    · refine bind (counter fun m => by rw [Eval.outcome_tick]) fun _ _ => ?_
      refine bind hturn fun flow hflow => ?_
      split
      · exact result _ (hflow _ rfl)
      · exact ih
    · exact result _ hnormal

end Charging

/-- **Keeping to what may be charged is a logic of steps**, which says nothing about values. -/
def StepLogic.charging (c : Context) : StepLogic where
  definitions _ := True
  natives _ := True
  Holds _ _ x Q := Charging c x Q
  inner _ _ _ _ := trivial
  builtin _ := trivial
  result := Charging.result
  bind := Charging.bind
  fail := Charging.fail
  ofCall h := h
  ofPlaces h := h
  ofBlock h := h
  tick := Charging.counter fun m => by rw [Eval.outcome_tick]
  charge := Charging.charge
  fresh := Charging.counter fun _ => rfl
  limits := Charging.counter fun _ => rfl
  now := Charging.counter fun _ => rfl
  random := Charging.counter fun m => by
    obtain ⟨x, next, h⟩ := Eval.exists_outcome_random
    rw [h]
  isHelper _ := Charging.counter fun _ => rfl
  frames := Charging.counter fun _ => rfl
  parseJson s := Charging.free (fun m => by rw [Eval.outcome_parseJson]; split <;> rfl)
    fun _ v _ => v.within_true
  fetch url := Charging.free (fun m => by rw [Eval.outcome_fetch]; split <;> rfl)
    fun _ v _ => v.within_true
  runHost _ name _ args _ _ :=
    Charging.free (fun m => by rw [Eval.outcome_runHost]; split <;> rfl) fun _ v _ => v.within_true
  lookup? name := Charging.free (fun m => Eval.allocated_lookup? c m name)
    fun _ _ _ w _ => w.within_true
  newClosure f _ := Charging.free
    (fun m => by rw [Eval.outcome_newClosure]; split <;> rfl) fun _ v _ => v.within_true
  onPlace {_ _ _} target {step} hstep := by
    refine Charging.free (fun m => Eval.allocated_onPlace c m target step) fun m a ha => ?_
    have hpath := onPath_keeps hstep m.next target.keys
    have hframes : ∀ frame ∈ m.current.frames, ∀ p ∈ frame, p.2.value.Within _ _ :=
      fun _ _ p _ => p.2.value.within_true
    obtain ⟨-, hanswer⟩ := onBinding_within hpath target.root hframes
    rw [Eval.outcome_onPlace] at ha
    rcases hcheck : (Eval.checkWritable target).outcome c m with ⟨_ | _, m'⟩ <;> rw [hcheck] at ha
    · cases ha
    · refine hanswer a ?_
      rcases hfound : onBinding target.root (onPath step m.next target.keys) m.current.frames
        with ⟨_ | r, frames⟩ <;> rw [hfound] at ha
      · cases ha
      · exact congrArg some ha
  declare _ _ _ _ := Charging.counter fun _ => rfl
  complete _ := Charging.counter fun m => by
    simp only [Eval.complete, Eval.outcome_modify]
    split <;> rfl
  takeCompletion := Charging.free (fun _ => rfl) fun _ v _ => v.within_true
  noteExport _ := Charging.counter fun _ => rfl
  setDefault _ := Charging.counter fun _ => rfl
  withFrame := Charging.between (fun _ => rfl) fun _ => rfl
  loop hnormal hgo hturn := Charging.bind (Charging.counter fun _ => rfl) fun _ _ =>
    Charging.repeatTurns hnormal hgo hturn _
  withActivation _ := Charging.between (fun _ => rfl) fun m => by
    unfold Machine.leave
    split <;> rfl

/-- What the logic says of two steps, it says of the first one. -/
theorem Charging.ofPairs {c : Context} {α : Type} {n : Nat} {r : Reach} {x x' : Eval α}
    {Q : Unit → α → α → Prop} (h : (StepLogic.charging c).pairs.matching.Holds () () n r x x' Q) :
    Charging c x fun _ => True :=
  Charging.weaken h fun _ _ => trivial

/-- Every value belongs together with itself. -/
theorem Charging.matches (c : Context) (v : Value) :
    (StepLogic.charging c).pairs.matching.Match () v (v.rename id) :=
  ⟨v.within_true, rfl⟩

theorem Charging.matchAll (c : Context) (vs : List Value) :
    (StepLogic.charging c).pairs.matching.MatchAll () vs (vs.map (Value.rename id)) :=
  Sides.forall₂_paired_iff.mpr ⟨fun v _ => v.within_true, rfl⟩

/-! ## Programs and modules -/

section Runs
variable (c : Context) (next : Identity) (body : List Stmt)

theorem Charging.program : Charging c (Eval.program body) fun _ => True := by
  have hlimits : Charging c Eval.limits (· = c.limits) :=
    Charging.free (fun _ => rfl) fun _ _ h => (Except.ok.inj h).symm
  refine Charging.bind hlimits fun limits hlimits => ?_
  rw [hlimits]
  have hcalls := StepLogic.callVia ((StepLogic.charging c).enter (c.limits.callDepth - 1))
  exact Charging.weaken (StepLogic.programWith hcalls fun _ _ => trivial) fun _ _ => trivial

theorem Charging.module : Charging c (Eval.module body) fun _ => True := by
  let L := StepLogic.charging c
  have hplain : ∀ members, Charging c (Eval.plainObject members) fun _ => True :=
    fun _ => Charging.counter fun _ => rfl
  refine Charging.bind (hplain _) fun exports _ => Charging.bind (hplain _) fun v _ => ?_
  refine Charging.bind (Charging.counter fun _ => rfl) fun _ _ => ?_
  refine Charging.bind (Charging.counter fun _ => rfl) fun _ _ => ?_
  refine Charging.bind (Charging.program c body) fun _ _ => ?_
  exact Charging.bind (Charging.counter fun _ => rfl) fun _ _ => Charging.result _ trivial

/-- **No program charges more than the limit allows**, whether it ends or fails. -/
theorem Eval.allocated_program :
    ((program body).outcome c { next }).2.allocated ≤ c.limits.allocation :=
  (Charging.program c body { next }).1.bounded (Nat.zero_le _)

/-- No module charges more than the limit allows. -/
theorem Eval.allocated_module :
    ((module body).outcome c { next }).2.allocated ≤ c.limits.allocation :=
  (Charging.module c body { next }).1.bounded (Nat.zero_le _)

end Runs

/-! ## What is charged for a result -/

/-- Whenever the step gives a result, it has charged at least a number of bytes that goes with the
result. -/
def Pays (c : Context) {α : Type} (x : Eval α) (Q : α → Nat → Prop) : Prop :=
  ∀ m a m', x.outcome c m = (.ok a, m') → ∃ bytes, m.allocated + bytes ≤ m'.allocated ∧ Q a bytes

namespace Pays
variable {c : Context} {α β : Type} {P Q : α → Nat → Prop} {R : β → Nat → Prop} {x : Eval α}

/-- A result for which nothing is charged. -/
theorem result (a : α) (ha : Q a 0) : Pays c (pure a) Q := by
  rintro m _ _ ⟨⟩
  exact ⟨0, Nat.le_refl _, ha⟩

theorem fail (e : ScriptError) : Pays c (throw e : Eval α) Q := by
  rintro m _ _ ⟨⟩

theorem weaken (h : Pays c x P) (hPQ : ∀ a bytes, P a bytes → Q a bytes) : Pays c x Q := by
  intro m a m' hx
  obtain ⟨bytes, hbytes, ha⟩ := h m a m' hx
  exact ⟨bytes, hbytes, hPQ a bytes ha⟩

theorem bind {f : α → Eval β} (hx : Pays c x P)
    (hf : ∀ a bytes, P a bytes → Pays c (f a) fun b more => R b (bytes + more)) :
    Pays c (x >>= f) R := by
  intro m b m'' h
  rw [Eval.outcome_bind] at h
  rcases houtcome : x.outcome c m with ⟨_ | a, m'⟩ <;> rw [houtcome] at h
  · cases h
  · obtain ⟨bytes, hbytes, ha⟩ := hx m a m' houtcome
    obtain ⟨more, hmore, hb⟩ := hf a bytes ha m' b m'' h
    exact ⟨bytes + more, by omega, hb⟩

theorem ofResult {m : Machine} {a : α} (h : Pays c x Q) (ha : (x.outcome c m).1 = .ok a) :
    ∃ bytes, m.allocated + bytes ≤ (x.outcome c m).2.allocated ∧ Q a bytes :=
  h m a _ (Prod.ext ha rfl)

/-- A step that may charge, but not for its results. -/
theorem unpaid {S : α → Prop} (h : Charging c x S) : Pays c x fun a bytes => S a ∧ bytes = 0 := by
  intro m a m' hx
  obtain ⟨hcharged, hS⟩ := h m
  rw [hx] at hcharged hS
  exact ⟨0, hcharged.grows, hS a rfl, rfl⟩

/-- What a step charges is not needed for the results of those behind it. -/
theorem after {S : α → Prop} {f : α → Eval β} (hx : Charging c x S)
    (hf : ∀ a, S a → Pays c (f a) R) : Pays c (x >>= f) R := by
  refine bind (unpaid hx) fun a bytes ha => ?_
  rw [ha.2]
  exact weaken (hf a ha.1) fun b more hb => (Nat.zero_add more).symm ▸ hb

theorem map {f : α → β} (h : Pays c x P) (hf : ∀ a bytes, P a bytes → R (f a) bytes) :
    Pays c (f <$> x) R := by
  rw [map_eq_pure_bind]
  exact bind h fun a bytes ha => result _ (hf a bytes ha)

/-- A check in front of a step. -/
theorem guard {p : Prop} [Decidable p] {e : ScriptError} (h : ¬ p → Pays c x Q) :
    Pays c (if p then do let _ : Unit ← throw e; x else x) Q := by
  split
  · exact bind (P := fun _ _ => False) (fail e) fun _ _ hf => hf.elim
  · rename_i hp
    exact h hp

theorem limits : Pays c Eval.limits fun limits bytes => limits = c.limits ∧ bytes = 0 := by
  rintro m _ _ ⟨⟩
  exact ⟨0, Nat.le_refl _, rfl, rfl⟩

theorem charge (bytes : Nat) : Pays c (Eval.charge bytes) fun _ paid => paid = bytes := by
  intro m a m' h
  rw [Eval.outcome_charge] at h
  split at h <;> cases h
  exact ⟨bytes, Nat.le_refl _, rfl⟩

/-- A new string was charged for, and is within the limit. -/
theorem newString (s : String) :
    Pays c (Eval.newString s) fun v bytes =>
      v = .string s ∧ s.utf8ByteSize ≤ bytes ∧ s.utf8ByteSize ≤ c.limits.stringLength := by
  refine bind limits fun limits bytes hlimits => ?_
  rw [hlimits.1, hlimits.2]
  refine guard fun hlong => bind (charge _) fun _ bytes hbytes => result _ ?_
  exact ⟨rfl, by omega, Nat.le_of_not_lt hlong⟩

/-- The slots of a new array were charged for, and are within the limit. -/
theorem newArray (items : Array Value) :
    Pays c (Eval.newArray items) fun v bytes =>
      ∃ id, v = .array id items ∧ items.size * Eval.slotBytes ≤ bytes ∧
        items.size ≤ c.limits.arrayLength := by
  refine bind limits fun limits bytes hlimits => ?_
  rw [hlimits.1, hlimits.2]
  refine guard fun hlong => bind (charge _) fun _ bytes hbytes => ?_
  refine after (Charging.ofExcept fun _ _ => trivial) fun _ _ => ?_
  refine after (Charging.counter fun _ => rfl) fun id _ => result _ ?_
  exact ⟨id, rfl, by omega, Nat.le_of_not_lt hlong⟩

end Pays

end Stencil.Script
