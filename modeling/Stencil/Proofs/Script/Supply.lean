import Stencil.Proofs.Script.Activations
import Stencil.Proofs.Script.Renaming.Machine

/-! # Where the identities of an evaluation start

An evaluation gives its values identities from a supply, one after the other.  Where the supply
starts makes no difference but for the identities themselves: on a machine whose identities are
moved by a shift a step gives the same result with moved identities and leaves the same machine with
moved identities (`Shifted`).  For a step that asks the host for a value this need not be so, since
a host may look at identities, nor for a step that reads a name which stands for a value that is
moved; so it is said of contexts that look the same under the shift to the functions that are about
(`Context.Invariant`).  A context that only knows the global names does to scripts without functions
of the host, and in such contexts modules are run.

That steps shift in this sense is a logic of pairs (`PairLogic.shifted`).  So **a module that is run
with identities from elsewhere on puts out the same** (`runModule_shift`).
-/
namespace Stencil.Script

/-- The function is not one of the host. -/
def Native.IsBuiltin : Native → Prop
  | .builtin _ => True
  | .host .. => False

/-- A context in which names stand for the same under a renaming, and in which the functions of the
host that are among `N` do not look at the identities that are renamed. -/
structure Context.Invariant (c : Context) (ρ : Identity → Identity) (N : Native → Prop) :
    Prop where
  within : c.Within (fun _ => True) N
  builtin : ∀ b, N (.builtin b)
  scope : ∀ name, (c.scope.lookup? name).map (Value.rename ρ) = c.scope.lookup? name
  natives : ∀ id name arity args, N (.host id name arity) →
    c.host.natives name (args.map (Value.rename ρ)) =
      (c.host.natives name args).map (Value.rename ρ)

/-- A context in which only the global names can be read looks the same to functions of the
language. -/
theorem Context.invariant_of_scope {c : Context} {ρ : Identity → Identity} (hρ : IsShift ρ)
    (hscope : c.scope = {}) : c.Invariant ρ Native.IsBuiltin where
  within :=
    ⟨by simp [hscope], by simp [hscope], by simp [hscope], fun _ _ _ _ _ h => h.elim⟩
  builtin _ := trivial
  scope name := by
    have hglobal : c.scope.lookup? name = Globals.table.lookup name := by
      rw [hscope]
      rfl
    rw [hglobal]
    cases hfound : Globals.table.lookup name with
    | none => rfl
    | some v =>
      exact congrArg some (Globals.rename_table hρ.globals (name, v) (mem_of_lookup hfound))
  natives _ _ _ _ h := h.elim

/-- A machine without other functions than those among `N`, on which all identities that are still
to be given out are past a bound. -/
structure Machine.IsReady (N : Native → Prop) (base : Identity) (m : Machine) : Prop where
  within : m.Within (fun _ => True) N
  next : base ≤ m.next

/-- Results that are related, or the same error. -/
def Matching {α : Type} (Q : α → α → Prop) : Except ScriptError α → Except ScriptError α → Prop
  | .ok a, .ok a' => Q a a'
  | .error e, .error e' => e' = e
  | _, _ => False

/-- Outcomes that are the same but for the identities in them. -/
structure Twins {α : Type} (ρ : Identity → Identity) (Q : α → α → Prop)
    (run run' : Except ScriptError α × Machine) : Prop where
  result : Matching Q run.1 run'.1
  machine : run'.2 = run.2.rename ρ

/-- If the results are related by a function, one outcome is the other, renamed. -/
theorem Twins.eq_map {α : Type} {ρ : Identity → Identity} {g : α → α}
    {run run' : Except ScriptError α × Machine} (h : Twins ρ (fun a a' => a' = g a) run run') :
    run' = (run.1.map g, run.2.rename ρ) := by
  obtain ⟨hresult, hmachine⟩ := h
  refine Prod.ext ?_ hmachine
  rcases run with ⟨e | a, m⟩ <;> rcases run' with ⟨e' | a', m'⟩
  · exact congrArg Except.error hresult
  · exact hresult.elim
  · exact hresult.elim
  · exact congrArg Except.ok hresult

/-- On a renamed machine the second step does what the first one does on the machine, renamed; their
results are related by `Q`. -/
structure Shifted (c : Context) (N : Native → Prop) (base : Identity) (ρ : Identity → Identity)
    {α : Type} (n : Nat) (r : Reach) (x x' : Eval α) (Q : α → α → Prop) : Prop where
  keeps : Keeping c (fun _ => True) N n r x fun a => ∃ a', Q a a'
  next_le : ∀ m : Machine, m.IsReady N base → m.next ≤ (x.outcome c m).2.next
  twins : ∀ m : Machine, m.IsReady N base → Twins ρ Q (x.outcome c m) (x'.outcome c (m.rename ρ))

namespace Shifted

/-- Values without other functions than those among `N`, and the same with other identities. -/
def sides (N : Native → Prop) (ρ : Identity → Identity) : Sides where
  World := Unit
  Le _ _ := True
  refl _ := trivial
  trans _ _ := trivial
  rename := ρ
  Fits _ v := v.Within (fun _ => True) N

/-- The logic that says that no other functions come in. -/
abbrev within {c : Context} {N : Native → Prop} {ρ : Identity → Identity} (hc : c.Invariant ρ N) :
    StepLogic :=
  .keeping c _ _ hc.within (fun _ _ _ _ => trivial) hc.builtin

variable {c : Context} {N : Native → Prop} {base : Identity} {ρ : Identity → Identity} {α β : Type}
  {n : Nat} {r : Reach} {P Q : α → α → Prop} {x x' : Eval α}

theorem isReady (h : Shifted c N base ρ n r x x' Q) {m : Machine} (hm : m.IsReady N base) :
    (x.outcome c m).2.IsReady N base :=
  ⟨(h.keeps m hm.within).2.1, Nat.le_trans hm.next (h.next_le m hm)⟩

/-! ### Composition -/

theorem result {a a' : α} (h : Q a a') : Shifted c N base ρ n r (pure a) (pure a') Q where
  keeps := Keeping.result a ⟨a', h⟩
  next_le _ _ := Nat.le_refl _
  twins _ _ := ⟨h, rfl⟩

theorem fail (e : ScriptError) : Shifted c N base ρ n r (throw e) (throw e) Q where
  keeps := Keeping.fail e
  next_le _ _ := Nat.le_refl _
  twins _ _ := ⟨rfl, rfl⟩

theorem bind {R : β → β → Prop} {f f' : α → Eval β} (hx : Shifted c N base ρ n r x x' P)
    (hf : ∀ a a', P a a' → Shifted c N base ρ n r (f a) (f' a') R) :
    Shifted c N base ρ n r (x >>= f) (x' >>= f') R where
  keeps := Keeping.bind hx.keeps fun a ⟨a', ha⟩ => (hf a a' ha).keeps
  next_le m hm := by
    have hready := hx.isReady hm
    have hnext := hx.next_le m hm
    have hresult := (hx.keeps m hm.within).2.2
    rw [Eval.outcome_bind]
    rcases hrun : x.outcome c m with ⟨e | a, m₁⟩ <;> rw [hrun] at hready hnext hresult
    · exact hnext
    · obtain ⟨a', ha⟩ := hresult a rfl
      exact Nat.le_trans hnext ((hf a a' ha).next_le m₁ hready)
  twins m hm := by
    have hready := hx.isReady hm
    obtain ⟨hresult, hmachine⟩ := hx.twins m hm
    rw [Eval.outcome_bind, Eval.outcome_bind]
    rcases hrun : x.outcome c m with ⟨e | a, m₁⟩ <;>
      rcases hrun' : x'.outcome c (m.rename ρ) with ⟨e' | a', m₁'⟩ <;>
      rw [hrun, hrun'] at hmachine hresult <;> dsimp only at hmachine hresult
    · exact ⟨hresult, hmachine⟩
    · exact hresult.elim
    · exact hresult.elim
    · rw [hrun] at hready
      rw [hmachine]
      exact (hf a a' hresult).twins m₁ hready

/-- A step of a call may stand anywhere. -/
theorem ofCall (h : Shifted c N base ρ n .call x x' Q) : Shifted c N base ρ n r x x' Q :=
  { h with keeps := fun m hm => ⟨(h.keeps m hm).1.ofCall, (h.keeps m hm).2⟩ }

/-- A step of an expression may stand in a statement. -/
theorem ofPlaces (h : Shifted c N base ρ n .places x x' Q) : Shifted c N base ρ n .block x x' Q :=
  { h with keeps := fun m hm => ⟨(h.keeps m hm).1.ofPlaces, (h.keeps m hm).2⟩ }

/-- A step of a statement may stand in a program. -/
theorem ofBlock (h : Shifted c N base ρ n .block x x' Q) : Shifted c N base ρ n .program x x' Q :=
  { h with keeps := fun m hm => ⟨(h.keeps m hm).1.ofBlock, (h.keeps m hm).2⟩ }

/-- A step whose outcome on the renamed machine is its outcome, renamed. -/
theorem ofOutcome {P : α → Prop} {g : α → α}
    (hkeeps : Keeping c (fun _ => True) N n r x P)
    (hnext : ∀ m : Machine, m.IsReady N base → m.next ≤ (x.outcome c m).2.next)
    (hx : ∀ m : Machine, m.IsReady N base →
      x'.outcome c (m.rename ρ) = ((x.outcome c m).1.map g, (x.outcome c m).2.rename ρ))
    (hQ : ∀ a, P a → Q a (g a)) : Shifted c N base ρ n r x x' Q where
  keeps m hm := by
    obtain ⟨hkept, hwithin, hP⟩ := hkeeps m hm
    exact ⟨hkept, hwithin, fun a ha => ⟨g a, hQ a (hP a ha)⟩⟩
  next_le := hnext
  twins m hm := by
    have hP := (hkeeps m hm.within).2.2
    rw [hx m hm]
    rcases hrun : x.outcome c m with ⟨e | a, m₁⟩ <;> rw [hrun] at hP
    · exact ⟨rfl, rfl⟩
    · exact ⟨hQ a (hP a rfl), rfl⟩

/-- A step that gives the same on the renamed machine, where it leaves the same, renamed. -/
theorem ofSame (hkeeps : Keeping c (fun _ => True) N n r x fun _ => True)
    (hnext : ∀ m : Machine, m.IsReady N base → m.next ≤ (x.outcome c m).2.next)
    (hx : ∀ m : Machine, x'.outcome c (m.rename ρ) =
      ((x.outcome c m).1, (x.outcome c m).2.rename ρ)) :
    Shifted c N base ρ n r x x' ((sides N ρ).Same ()) :=
  ofOutcome (g := id) hkeeps hnext (fun m _ => by rw [hx, Except.map_id]; rfl) fun _ _ => rfl

/-- What `ofSame` asks for is what it gives. -/
theorem outcome_eq (h : Shifted c N base ρ n r x x' ((sides N ρ).Same ())) {m : Machine}
    (hm : m.IsReady N base) :
    x'.outcome c (m.rename ρ) = ((x.outcome c m).1, (x.outcome c m).2.rename ρ) := by
  rw [(h.twins m hm).eq_map (g := id), Except.map_id]
  rfl

/-- A step that gives paired values. -/
theorem ofPaired {x x' : Eval Value}
    (hkeeps : Keeping c (fun _ => True) N n r x (·.Within (fun _ => True) N))
    (hnext : ∀ m : Machine, m.IsReady N base → m.next ≤ (x.outcome c m).2.next)
    (hx : ∀ m : Machine, m.IsReady N base → x'.outcome c (m.rename ρ) =
      ((x.outcome c m).1.map (Value.rename ρ), (x.outcome c m).2.rename ρ)) :
    Shifted c N base ρ n r x x' ((sides N ρ).Paired ()) :=
  ofOutcome hkeeps hnext hx fun _ hv => ⟨hv, rfl⟩

/-! ### What is read and counted -/

theorem tick : Shifted c N base ρ n r Eval.tick Eval.tick ((sides N ρ).Same ()) := by
  refine ofSame Keeping.tick (fun m _ => ?_) fun m => ?_
  · exact Nat.le_of_eq (by rw [Eval.outcome_tick])
  · rw [Eval.outcome_tick, Eval.outcome_tick]
    rfl

theorem charge (bytes : Nat) :
    Shifted c N base ρ n r (Eval.charge bytes) (Eval.charge bytes) ((sides N ρ).Same ()) := by
  refine ofSame (Keeping.charge bytes) (fun m _ => ?_) fun m => ?_
  · rw [Eval.outcome_charge]
    split <;> exact Nat.le_refl m.next
  · have hallocated : (m.rename ρ).allocated = m.allocated := rfl
    rw [Eval.outcome_charge, Eval.outcome_charge, hallocated]
    split <;> rfl

/-- A step that only reads what a renaming leaves alone. -/
theorem reads (hx : ∀ m : Machine, (x.outcome c m).2 = m)
    (hsame : ∀ m : Machine, (x.outcome c (m.rename ρ)).1 = (x.outcome c m).1) :
    Shifted c N base ρ n r x x ((sides N ρ).Same ()) := by
  refine ofSame (Keeping.counter fun m => ?_) (fun m _ => ?_) fun m => ?_
  · rw [hx]
    exact ⟨rfl, rfl, rfl, rfl, rfl⟩
  · exact Nat.le_of_eq (by rw [hx])
  · rw [hx m]
    exact Prod.ext (hsame m) (hx _)

theorem limits : Shifted c N base ρ n r Eval.limits Eval.limits ((sides N ρ).Same ()) :=
  reads (fun _ => rfl) fun _ => rfl

theorem random : Shifted c N base ρ n r Native.random Native.random ((sides N ρ).Same ()) := by
  obtain ⟨x, next, h⟩ := Eval.exists_outcome_random
  refine ofSame Keeping.random (fun m _ => ?_) fun m => ?_
  · exact Nat.le_of_eq (by rw [h])
  · rw [h, h]
    rfl

theorem isLocal (name : String) :
    Shifted c N base ρ n r (Eval.isLocal name) (Eval.isLocal name) ((sides N ρ).Same ()) := by
  refine reads (fun _ => rfl) fun m => ?_
  show Except.ok (findBinding? name (m.current.frames.map (mapMembers (Binding.rename ρ)))).isSome =
    Except.ok (findBinding? name m.current.frames).isSome
  rw [findBinding?_rename, Option.isSome_map]

theorem isDeclared (name : String) :
    Shifted c N base ρ n r (Eval.isDeclared name) (Eval.isDeclared name) ((sides N ρ).Same ()) := by
  have houtcome : ∀ m : Machine, (Eval.isDeclared name).outcome c m =
      (.ok (m.current.frames.head?.any fun frame => (frame.lookup name).isSome), m) := by
    intro m
    unfold Eval.isDeclared
    rw [Eval.outcome_bind, Eval.outcome_frames]
    cases m.current.frames <;> rfl
  refine reads (fun m => by rw [houtcome]) fun m => ?_
  rw [houtcome, houtcome]
  cases hframes : m.current.frames <;> simp [Machine.rename, Activation.rename, hframes]

theorem read : Shifted c N base ρ n r MonadReader.read MonadReader.read ((sides N ρ).Same ()) :=
  reads (fun _ => rfl) fun _ => rfl

/-! ### Names -/

section Scope
variable (hρ : IsShiftFrom base ρ) (hc : c.Invariant ρ N)
include hρ hc

theorem lookup? (name : String) :
    Shifted c N base ρ n r (Eval.lookup? name) (Eval.lookup? name)
      ((sides N ρ).PairedAnswer ()) := by
  have hkeeps := Keeping.lookup? (n := n) (r := r) hc.within hc.builtin name
  refine ofOutcome (g := Option.map (Value.rename ρ)) hkeeps (fun m _ => ?_) (fun m hm => ?_)
    fun v hv => ⟨hv, rfl⟩
  · rw [Eval.outcome_lookup?]
    repeat' split
    all_goals first | exact Nat.le_refl m.next | exact Nat.le_succ m.next
  · rw [Eval.outcome_lookup?, Eval.outcome_lookup?]
    simp only [Machine.rename, Activation.rename]
    rw [findBinding?_rename, lookup_mapMembers, lookup_mapMembers]
    cases findBinding? name m.current.frames with
    | some b => rfl
    | none =>
      dsimp only [Option.map_none]
      cases m.current.captured.lookup name with
      | some v => rfl
      | none =>
        dsimp only [Option.map_none]
        rcases m.current.siblings.lookup name with _ | v | ⟨f, captured⟩
        · dsimp only [Option.map_none, Except.map]
          rw [hc.scope]
        · simp [Except.map]
        · simp [Except.map, hρ.succ m.next hm.next]

end Scope

/-! ### New values -/

section New
variable (hρ : IsShiftFrom base ρ)
include hρ

theorem plainArray {items : Array Value} (h : ∀ v ∈ items, v.Within (fun _ => True) N) :
    Shifted c N base ρ n r (Eval.plainArray items) (Eval.plainArray (items.map (Value.rename ρ)))
      ((sides N ρ).Paired ()) := by
  refine ofPaired ?_ (fun m _ => Nat.le_succ m.next) fun m hm => ?_
  · exact Keeping.bind Keeping.fresh fun _ _ => Keeping.result _ (Value.within_array.mpr h)
  · simp [Eval.plainArray, Machine.rename, Except.map, hρ.succ m.next hm.next]

theorem plainObject {members : List (String × Value)} (h : (sides N ρ).FitsMembers () members) :
    Shifted c N base ρ n r (Eval.plainObject members)
      (Eval.plainObject (mapMembers (Value.rename ρ) members)) ((sides N ρ).Paired ()) := by
  have hwithin : ∀ p ∈ members, p.2.Within (fun _ => True) N := fun p hp => (h p hp).2
  refine ofPaired ?_ (fun m _ => Nat.le_succ m.next) fun m hm => ?_
  · exact Keeping.bind Keeping.fresh fun _ _ => Keeping.result _ (Value.within_object.mpr hwithin)
  · simp [Eval.plainObject, Machine.rename, Except.map, hρ.succ m.next hm.next]

/-- An array of values that are the same on both sides. -/
theorem plainItems {items : Array Value} (h : ∀ v ∈ items, v.isPlain) :
    Shifted c N base ρ n r (Eval.plainArray items) (Eval.plainArray items)
      ((sides N ρ).Paired ()) := by
  have hsame : items.map (Value.rename ρ) = items := by
    apply Array.toList_inj.mp
    rw [Array.toList_map]
    exact Value.map_rename_plain fun v hv => h v (Array.mem_toList_iff.mp hv)
  have hnew := plainArray (c := c) (N := N) (n := n) (r := r) hρ fun v hv => Value.within_plain (h v hv)
  rwa [hsame] at hnew

/-- An object whose values are the same on both sides. -/
theorem plainMembers {members : List (String × Value)} (h : ∀ p ∈ members, p.2.isPlain) :
    Shifted c N base ρ n r (Eval.plainObject members) (Eval.plainObject members)
      ((sides N ρ).Paired ()) := by
  have hsame : mapMembers (Value.rename ρ) members = members := by
    refine (List.map_congr_left fun p hp => ?_).trans (List.map_id _)
    exact Prod.ext rfl (Value.rename_plain (h p hp))
  have hfits : (sides N ρ).FitsMembers () members := fun p hp => ⟨trivial, Value.within_plain (h p hp)⟩
  have hnew := plainObject (c := c) (n := n) (r := r) hρ hfits
  rwa [hsame] at hnew

/-- Renamed values are as tall as the values. -/
theorem checkHeights (limit level : Nat) (vs : List Value) :
    Shifted c N base ρ n r (Eval.ofExcept (Value.checkHeights limit level vs))
      (Eval.ofExcept (Value.checkHeights limit level (vs.map (Value.rename ρ))))
      ((sides N ρ).Same ()) := by
  rw [Value.checkHeights_rename hρ.injective]
  cases Value.checkHeights limit level vs with
  | ok u => exact result rfl
  | error e => exact fail e

theorem newArray (items : Array Value) (h : ∀ v ∈ items, v.Within (fun _ => True) N) :
    Shifted c N base ρ n r (Eval.newArray items) (Eval.newArray (items.map (Value.rename ρ)))
      ((sides N ρ).Paired ()) := by
  unfold Eval.newArray
  rw [Array.size_map, Array.toList_map]
  refine bind limits fun limits limits' hlimits => ?_
  obtain rfl : limits' = limits := hlimits
  have hnew : Shifted c N base ρ n r
      (do
        Eval.charge (items.size * Eval.slotBytes)
        Eval.ofExcept (Value.checkHeights limits'.valueDepth 1 items.toList)
        Eval.plainArray items)
      (do
        Eval.charge (items.size * Eval.slotBytes)
        Eval.ofExcept
          (Value.checkHeights limits'.valueDepth 1 (items.toList.map (Value.rename ρ)))
        Eval.plainArray (items.map (Value.rename ρ))) ((sides N ρ).Paired ()) :=
    bind (charge _) fun _ _ _ => bind (checkHeights hρ _ _ _) fun _ _ _ => plainArray hρ h
  split
  · exact bind (P := fun _ _ => False) (fail _) fun _ _ hf => hf.elim
  · exact hnew

theorem newObject {members : List (String × Value)} (h : (sides N ρ).FitsMembers () members) :
    Shifted c N base ρ n r (Eval.newObject members)
      (Eval.newObject (mapMembers (Value.rename ρ) members)) ((sides N ρ).Paired ()) := by
  unfold Eval.newObject
  rw [length_mapMembers, map_snd_mapMembers]
  refine bind (charge _) fun _ _ _ => bind limits fun limits limits' hlimits => ?_
  obtain rfl : limits' = limits := hlimits
  exact bind (checkHeights hρ _ _ _) fun _ _ _ => plainObject hρ h

theorem newClosure (f : FunctionDef) :
    Shifted c N base ρ n r (Eval.newClosure f) (Eval.newClosure f) ((sides N ρ).Paired ()) := by
  refine ofPaired (Keeping.newClosure trivial) (fun m _ => ?_) fun m hm => ?_
  · rw [Eval.outcome_newClosure]
    split
    · exact Nat.le_succ m.next
    · exact Nat.le_refl m.next
  · rw [Eval.outcome_newClosure, Eval.outcome_newClosure]
    have hcurrent : (m.rename ρ).current = m.current.rename ρ := rfl
    rw [hcurrent, Eval.snapshot_rename, map_snd_mapMembers,
      Value.checkHeights_rename hρ.injective]
    cases Value.checkHeights c.limits.valueDepth 1 ((Eval.snapshot m.current).map (·.2)) with
    | ok u => simp [Machine.rename, Activation.rename, Except.map, hρ.succ m.next hm.next]
    | error e => rfl

/-- The pairs of keys and values are made one after the other. -/
theorem entries {members : List (String × Value)} (h : (sides N ρ).FitsMembers () members) :
    Shifted c N base ρ n r
      (do Eval.newList (← members.mapM fun (key, v) => Eval.plainArray #[.string key, v]))
      (do Eval.newList (← (mapMembers (Value.rename ρ) members).mapM fun (key, v) =>
        Eval.plainArray #[.string key, v])) ((sides N ρ).Paired ()) := by
  have hpairs : Shifted c N base ρ n r
      (members.mapM fun (key, v) => Eval.plainArray #[.string key, v])
      ((mapMembers (Value.rename ρ) members).mapM fun (key, v) =>
        Eval.plainArray #[.string key, v]) ((sides N ρ).PairedAll ()) := by
    induction members with
    | nil => exact result ⟨List.forall_mem_nil _, rfl⟩
    | cons p rest ih =>
      obtain ⟨hp, hrest⟩ := List.forall_mem_cons.mp h
      have hitems : ∀ v ∈ #[Value.string p.1, p.2], v.Within (fun _ => True) N := by
        have hp : p.2.Within (fun _ => True) N := hp.2
        simpa using hp
      have hpair : Shifted c N base ρ n r (Eval.plainArray #[.string p.1, p.2])
          (Eval.plainArray #[.string p.1, p.2.rename ρ]) ((sides N ρ).Paired ()) := by
        have hpair := plainArray (c := c) (n := n) (r := r) hρ hitems
        rwa [List.map_toArray] at hpair
      rw [mapMembers_cons, List.mapM_cons, List.mapM_cons]
      refine bind hpair fun v _ ⟨hv, hv'⟩ => bind (ih hrest) fun vs _ ⟨hvs, hvs'⟩ => ?_
      rw [hv', hvs']
      exact result ⟨List.forall_mem_cons.mpr ⟨hv, hvs⟩, rfl⟩
  refine bind hpairs fun vs _ ⟨hvs, hvs'⟩ => ?_
  have hlist := newArray (c := c) (n := n) (r := r) hρ vs.toArray
    fun v hv => hvs v (List.mem_toArray.mp hv)
  rw [hvs']
  rwa [List.map_toArray] at hlist

theorem parseJson (s : String) :
    Shifted c N base ρ n r (Native.parseJson s) (Native.parseJson s) ((sides N ρ).Paired ()) := by
  refine ofPaired (Keeping.parseJson s) (fun m hm => ?_) fun m hm => ?_
  all_goals simp only [Eval.outcome_parseJson]
  all_goals cases Json.parse s with
    | error e => first | exact Nat.le_refl _ | rfl
    | ok json => ?_
  all_goals obtain ⟨hle, hjson⟩ := Value.ofJson_rename hρ hm.next json
  · exact hle
  · have hnext : (m.rename ρ).next = ρ m.next := rfl
    dsimp only
    rw [hnext, hjson]
    rfl

end New

theorem fetch (url : String) :
    Shifted c N base ρ n r (Native.fetch url) (Native.fetch url) ((sides N ρ).Paired ()) := by
  refine ofPaired (Keeping.fetch url) (fun m _ => ?_) fun m hm => ?_
  · rw [Eval.outcome_fetch]
    split <;> exact Nat.le_refl m.next
  · rw [Eval.outcome_fetch, Eval.outcome_fetch]
    cases c.host.fetch with
    | none => rfl
    | some answer =>
      have hticks : (m.rename ρ).ticks = m.ticks := rfl
      dsimp only
      rw [hticks]
      cases Eval.poll c.budget m.ticks with
      | error e => rfl
      | ok u => cases answer url <;> simp [Except.bind, Except.map, Machine.rename]


/-- The host answers what it answers to the arguments, renamed. -/
theorem runHost (hc : c.Invariant ρ N) {id : Identity} {name : String} {arity : Nat}
    {args : List Value} (hf : N (.host id name arity)) (hargs : (sides N ρ).FitsAll () args) :
    Shifted c N base ρ n r (Native.runHost name args)
      (Native.runHost name (args.map (Value.rename ρ))) ((sides N ρ).Paired ()) := by
  refine ofPaired (Keeping.runHost hc.within hf hargs) (fun m _ => ?_) fun m hm => ?_
  · rw [Eval.outcome_runHost]
    split <;> exact Nat.le_refl m.next
  · rw [Eval.outcome_runHost, Eval.outcome_runHost, hc.natives id name arity args hf]
    cases c.host.natives name args <;> rfl

/-! ### Places -/

section Places
variable (hρ : IsShiftFrom base ρ) (hc : c.Invariant ρ N)
include hρ hc

theorem checkWritable (target : Target) :
    Shifted c N base ρ n r (Eval.checkWritable target) (Eval.checkWritable target)
      ((sides N ρ).Same ()) := by
  unfold Eval.checkWritable
  have hframes : Shifted c N base ρ n r Eval.frames Eval.frames fun frames frames' =>
      frames' = frames.map (mapMembers (Binding.rename ρ)) :=
    ofOutcome (P := fun _ => True) (Keeping.counter fun _ => ⟨rfl, rfl, rfl, rfl, rfl⟩)
      (fun m _ => Nat.le_refl m.next) (fun _ _ => rfl) fun _ _ => rfl
  refine bind hframes fun frames frames' hframes => ?_
  rw [hframes, findBinding?_rename]
  cases findBinding? target.root frames with
  | some b =>
    dsimp only [Option.map_some, Binding.rename]
    split
    · exact fail _
    · exact result rfl
  | none =>
    dsimp only [Option.map_none]
    refine bind (lookup? hρ hc target.root) fun v _ ⟨_, hv'⟩ => ?_
    rw [hv']
    cases v <;> exact fail _

theorem onPlace (target : Target) {step step' : SlotStep α} {P : α → Prop} {g : α → α}
    (hkeeps : step.Keeps (fun _ => True) N P) (hstep : step.Mirrors ρ g step')
    (hQ : ∀ a, P a → Q a (g a)) :
    Shifted c N base ρ n .places (Eval.onPlace target step) (Eval.onPlace target step') Q := by
  have hplace := Keeping.onPlace (n := n) hc.within hc.builtin target
    hkeeps
  refine ofOutcome hplace (fun m hm => ?_) (fun m hm => ?_) hQ
  all_goals
    have hcheck := checkWritable (n := n) (r := .places) hρ hc target
    have hnext := hcheck.next_le m hm
    have houtcome := hcheck.outcome_eq hm
  · rw [Eval.outcome_onPlace]
    rcases hrun : (Eval.checkWritable target).outcome c m with ⟨e | u, m₁⟩
    · rw [hrun] at hnext
      exact hnext
    · exact Nat.le_add_right _ _
  · rw [Eval.outcome_onPlace, Eval.outcome_onPlace, houtcome]
    rcases (Eval.checkWritable target).outcome c m with ⟨e | u, m₁⟩
    · rfl
    · have hpath := onPath_rename hρ hstep target.keys hm.next
      have hbinding := onBinding_rename hpath target.root m.current.frames
      have hframes : (m.rename ρ).current.frames =
        m.current.frames.map (mapMembers (Binding.rename ρ)) := rfl
      have hnext : (m.rename ρ).next = ρ m.next := rfl
      dsimp only
      rw [hframes, hnext, hbinding]
      rcases onBinding target.root (onPath step m.next target.keys) m.current.frames
        with ⟨_ | r, frames⟩ <;>
        simp [Machine.rename, Activation.rename, Except.map, hρ.add hm.next]

/-- A value that is put into a place is the same on both sides. -/
theorem assign (target : Target) {v : Value} (hv : v.Within (fun _ => True) N) :
    Shifted c N base ρ n .places (Eval.assign target v) (Eval.assign target (v.rename ρ))
      ((sides N ρ).Same ()) := by
  unfold Eval.assign
  refine bind limits fun limits limits' hlimits => ?_
  obtain rfl : limits' = limits := hlimits
  dsimp only
  have hheights : Value.checkHeights limits'.valueDepth target.keys.length [v.rename ρ] =
      Value.checkHeights limits'.valueDepth target.keys.length [v] :=
    Value.checkHeights_rename hρ.injective _ _ [v]
  rw [hheights]
  refine onPlace hρ hc target (P := fun _ => True) (g := id) (fun u _ => ⟨?_, ?_⟩)
    (fun u => ?_) fun _ _ => rfl
  · split
    · exact hv
    · split
      · exact hv
      · simp
  · simp
  · split
    · rfl
    · cases Value.checkHeights limits'.valueDepth target.keys.length [v] <;> rfl

theorem changeInPlace (op : Method.InPlace) {args : List Value} (h : (sides N ρ).FitsAll () args)
    {target target' : Eval Target}
    (htarget : Shifted c N base ρ n .places target target' ((sides N ρ).SameTarget ())) :
    Shifted c N base ρ n .places (Eval.changeInPlace op args target)
      (Eval.changeInPlace op (args.map (Value.rename ρ)) target') ((sides N ρ).Paired ()) := by
  unfold Eval.changeInPlace
  rw [List.length_map]
  refine bind (charge _) fun _ _ _ => bind limits fun limits limits' hlimits => ?_
  obtain rfl : limits' = limits := hlimits
  refine bind htarget fun place place' hplace => ?_
  obtain rfl : place' = place := hplace.2
  have hfresh : Shifted c N base ρ n .places Eval.fresh Eval.fresh fun id id' => id' = ρ id :=
    ofOutcome (P := fun _ => True) Keeping.fresh (fun m _ => Nat.le_succ m.next)
      (fun m hm => by simp [Machine.rename, Except.map, hρ.succ m.next hm.next]) fun _ _ => rfl
  refine bind hfresh fun id id' hid => ?_
  rw [hid, Value.checkHeights_rename hρ.injective]
  refine onPlace hρ hc place' (P := (·.Within (fun _ => True) N)) (fun v hv => ?_)
    (fun v => ?_) fun _ hv => ⟨hv, rfl⟩
  · cases Value.checkHeights limits'.valueDepth (place'.keys.length + 1) args with
    | error e => simp
    | ok u => exact StepLogic.admits_onSlot (L := within hc) op h id _ hv
  · cases Value.checkHeights limits'.valueDepth (place'.keys.length + 1) args with
    | error e => rfl
    | ok u => exact onSlot_rename op args id limits'.arrayLength v

end Places

/-! ### Names and values that are kept -/

theorem declare (name : String) {v : Value} (constant : Bool) (hv : v.Within (fun _ => True) N) :
    Shifted c N base ρ n .block (Eval.declare name v constant)
      (Eval.declare name (v.rename ρ) constant) ((sides N ρ).Same ()) := by
  refine ofSame (Keeping.declare name constant hv) (fun m _ => Nat.le_refl m.next) fun m => ?_
  have hframe : ∀ frame, Json.insertMember name (Binding.rename ρ ⟨v, constant⟩)
      (mapMembers (Binding.rename ρ) frame) =
        mapMembers (Binding.rename ρ) (Json.insertMember name ⟨v, constant⟩ frame) :=
    fun frame => insertMember_mapMembers name _ frame
  have hframes := Eval.onInnermost_rename hframe m.current.frames
  simp only [Eval.declare, Eval.outcome_modify, Machine.rename, Activation.rename]
  rw [← hframes]
  rfl

theorem complete {v : Value} (hv : v.Within (fun _ => True) N) :
    Shifted c N base ρ n .block (Eval.complete v) (Eval.complete (v.rename ρ))
      ((sides N ρ).Same ()) := by
  refine ofSame (Keeping.complete hv) (fun m _ => ?_) fun m => ?_
  · simp only [Eval.complete, Eval.outcome_modify]
    split <;> exact Nat.le_refl m.next
  · simp only [Eval.complete, Eval.outcome_modify, Machine.rename, List.isEmpty_map]
    split <;> rfl

theorem takeCompletion : Shifted c N base ρ n .program Eval.takeCompletion Eval.takeCompletion
    ((sides N ρ).Paired ()) :=
  ofPaired Keeping.takeCompletion (fun m _ => Nat.le_refl m.next) fun _ _ => rfl

theorem noteExport (s : Stmt) :
    Shifted c N base ρ n r (Eval.noteExport s) (Eval.noteExport s) ((sides N ρ).Same ()) :=
  ofSame (Keeping.counter fun _ => ⟨rfl, rfl, rfl, rfl, rfl⟩) (fun m _ => Nat.le_refl m.next)
    fun _ => rfl

theorem setDefault {v : Value} (hv : v.Within (fun _ => True) N) :
    Shifted c N base ρ n .block (Eval.setDefault v) (Eval.setDefault (v.rename ρ))
      ((sides N ρ).Same ()) :=
  ofSame (Keeping.setDefault hv) (fun m _ => Nat.le_refl m.next) fun _ => rfl

/-! ### Blocks, loops and calls -/

/-- A step between two changes of the machine that do the same to a renamed machine. -/
theorem between {before before' after : Machine → Machine} {r' : Reach} {n' : Nat}
    (hkeeps : Keeping c (fun _ => True) N n' r' (Eval.between before after x)
      fun a => ∃ a', Q a a')
    (hbefore : ∀ m : Machine, m.IsReady N base → (before m).IsReady N base)
    (hsame : ∀ m : Machine, (before m).next = m.next ∧ (after m).next = m.next)
    (hbefore' : ∀ m, before' (m.rename ρ) = (before m).rename ρ)
    (hafter' : ∀ m, after (m.rename ρ) = (after m).rename ρ)
    (h : Shifted c N base ρ n r x x' Q) :
    Shifted c N base ρ n' r' (Eval.between before after x) (Eval.between before' after x') Q where
  keeps := hkeeps
  next_le m hm := by
    rw [Eval.outcome_between, (hsame _).2, ← (hsame m).1]
    exact h.next_le _ (hbefore m hm)
  twins m hm := by
    obtain ⟨hresult, hmachine⟩ := h.twins _ (hbefore m hm)
    rw [Eval.outcome_between, Eval.outcome_between, hbefore']
    exact ⟨hresult, by rw [hmachine, hafter']⟩

theorem withFrame (h : Shifted c N base ρ n .block x x' Q) :
    Shifted c N base ρ n .block (Eval.withFrame x) (Eval.withFrame x') Q := by
  refine between (Keeping.withFrame h.keeps) (fun m hm => ⟨hm.within.openFrame, hm.next⟩)
    (fun _ => ⟨rfl, rfl⟩) (fun _ => rfl) (fun m => ?_) h
  simp [Machine.closeFrame, Machine.rename, Activation.rename]

theorem withActivation (hc : c.Invariant ρ N) {id : Identity} {f : FunctionDef}
    {captured : List (String × Value)} {siblings : Siblings} {args : List Value}
    (hf : (Value.closure id f captured siblings).Within (fun _ => True) N)
    (hargs : (sides N ρ).FitsAll () args)
    (h : Shifted c N base ρ n .block x x' Q) :
    Shifted c N base ρ (n + 1) .call
      (Eval.withActivation
        (Eval.activationOf (.closure id f captured siblings) f captured siblings args) x)
      (Eval.withActivation
        (Eval.activationOf ((Value.closure id f captured siblings).rename ρ) f
          (mapMembers (Value.rename ρ) captured)
          (mapMembers (ModuleBinding.rename ρ) siblings)
          (args.map (Value.rename ρ))) x') Q := by
  have ha := StepLogic.within_activationOf (L := within hc) hf hargs
  refine between (Keeping.withActivation ha h.keeps)
    (fun m hm => ⟨hm.within.enter ha, hm.next⟩) (fun m => ⟨rfl, ?_⟩) (fun m => ?_) (fun m => ?_) h
  · unfold Machine.leave
    split <;> rfl
  · rw [Eval.activationOf_rename]
    simp [Machine.enter, Machine.rename]
  · cases hcallers : m.callers <;> simp [Machine.leave, Machine.rename, hcallers]

theorem repeatTurns {go go' : Eval Bool} {turn turn' : Eval (Option Flow)}
    (hgo : Shifted c N base ρ n .block go go' ((sides N ρ).Same ()))
    (hturn : Shifted c N base ρ n .block turn turn' ((sides N ρ).PairedEnd ())) (turns : Nat) :
    Shifted c N base ρ n .block (Eval.repeatTurns go turn turns) (Eval.repeatTurns go' turn' turns)
      ((sides N ρ).PairedFlow ()) := by
  induction turns with
  | zero =>
    refine bind read fun c c' hc => ?_
    obtain rfl : c' = c := hc
    exact fail _
  | succ turns ih =>
    unfold Eval.repeatTurns
    refine bind hgo fun goes goes' hgoes => ?_
    obtain rfl : goes' = goes := hgoes
    split
    · unfold Eval.oneTurn
      refine bind tick fun _ _ _ => bind hturn fun flow flow' h => ?_
      obtain ⟨hflow, hflow'⟩ := h
      rw [hflow']
      cases flow with
      | some flow => exact result ⟨hflow flow rfl, rfl⟩
      | none => exact ih
    · exact result ⟨trivial, rfl⟩

theorem loop {go go' : Eval Bool} {turn turn' : Eval (Option Flow)}
    (hgo : Shifted c N base ρ n .block go go' ((sides N ρ).Same ()))
    (hturn : Shifted c N base ρ n .block turn turn' ((sides N ρ).PairedEnd ())) :
    Shifted c N base ρ n .block (Eval.loop go turn) (Eval.loop go' turn')
      ((sides N ρ).PairedFlow ()) := by
  unfold Eval.loop
  refine bind read fun c c' hc => ?_
  obtain rfl : c' = c := hc
  exact repeatTurns hgo hturn _

end Shifted

/-- **That steps do the same with identities from elsewhere on is a logic of pairs.** -/
def PairLogic.shifted (c : Context) (N : Native → Prop) (base : Identity)
    (ρ : Identity → Identity) (hρ : IsShiftFrom base ρ) (hc : c.Invariant ρ N) : PairLogic where
  toSides := Shifted.sides N ρ
  definitions _ := True
  Holds _ n r x x' Q := Shifted c N base ρ n r x x' (Q ())
  injective := hρ.injective
  globals := hρ.globals
  inner _ _ _ _ := trivial
  writes := FunctionDef.writesAmong_true
  mono _ h := h
  plain := Value.within_plain
  builtin b := (Value.within_native.mpr (hc.builtin b) :
    Value.Within (fun _ => True) N (.native (.builtin b)))
  modules := Globals.within_modules hc.builtin
  items := fun {_ id _} (h : Value.Within (fun _ => True) N (.array id _)) =>
    Value.within_array.mp h
  members := fun {_ id _} (h : Value.Within (fun _ => True) N (.object id _)) =>
    fun p hp => ⟨trivial, Value.within_object.mp h p hp⟩
  definition _ := trivial
  result := Shifted.result
  bind hx hf := Shifted.bind hx fun a a' ha => hf () a a' trivial ha
  fail := Shifted.fail
  ofCall := Shifted.ofCall
  ofPlaces := Shifted.ofPlaces
  ofBlock := Shifted.ofBlock
  tick := Shifted.tick
  charge := Shifted.charge
  limits := Shifted.limits
  now := Shifted.reads (fun _ => rfl) fun _ => rfl
  random := Shifted.random
  isHelper _ := Shifted.reads (fun _ => rfl) fun _ => rfl
  isLocal := Shifted.isLocal
  isDeclared := Shifted.isDeclared
  lookup? := Shifted.lookup? hρ hc
  newArray := Shifted.newArray hρ
  newObject := Shifted.newObject hρ
  newClosure f _ := Shifted.newClosure hρ f
  plainArray _ h := Shifted.plainItems hρ h.isPlain
  plainObject _ h := Shifted.plainMembers hρ fun p hp => (h p hp).2
  entries := Shifted.entries hρ
  parseJson := Shifted.parseJson hρ
  fetch := Shifted.fetch
  runHost := fun {_ _ _ _ _ _} (hf : Value.Within (fun _ => True) N _) hargs =>
    Shifted.runHost hc (Value.within_native.mp hf) hargs
  assign target _ hv := Shifted.assign hρ hc target hv
  changeInPlace op h htarget :=
    Shifted.changeInPlace hρ hc op h (htarget ())
  declare name constant hv := Shifted.declare name constant hv
  complete := Shifted.complete
  takeCompletion := Shifted.takeCompletion
  noteExport := Shifted.noteExport
  setDefault := Shifted.setDefault
  withFrame := Shifted.withFrame
  loop hgo hturn := Shifted.loop (hgo ()) (hturn ())
  withActivation := Shifted.withActivation hc

/-! ## Programs and modules -/

namespace Shifted
variable {c : Context} {N : Native → Prop} {base : Identity} {ρ : Identity → Identity}
  (hρ : IsShiftFrom base ρ) (hc : c.Invariant ρ N)
  (body : List Stmt)
include hρ hc

theorem program : Shifted c N base ρ (c.limits.callDepth - 1) .program (Eval.program body)
    (Eval.program body) ((sides N ρ).Paired ()) := by
  have hlimits : Shifted c N base ρ (c.limits.callDepth - 1) .program Eval.limits Eval.limits
      fun limits limits' => limits = c.limits ∧ limits' = limits :=
    ofOutcome (g := id) (fun m hm => ⟨Kept.refl, hm, fun _ h => (Except.ok.inj h).symm⟩)
      (fun m _ => Nat.le_refl m.next) (fun _ _ => rfl) fun _ h => ⟨h, rfl⟩
  refine bind hlimits fun limits limits' ⟨hlimits, hlimits'⟩ => ?_
  rw [hlimits', hlimits]
  have hcall := PairLogic.callVia
    (PairLogic.enter (L := .shifted c N base ρ hρ hc) (c.limits.callDepth - 1))
  exact PairLogic.programWith hcall () fun _ _ => trivial

/-- What a module puts out is the same with other identities. -/
theorem module : Shifted c N base ρ (c.limits.callDepth - 1) .program (Eval.module body)
    (Eval.module body) fun out out' => out' = out.rename ρ := by
  unfold Eval.module
  refine bind (plainMembers hρ (List.forall_mem_nil _)) fun exports _ ⟨hexports, hexports'⟩ => ?_
  rw [hexports']
  have hmembers : (sides N ρ).FitsMembers () [("exports", exports)] :=
    List.forall_mem_singleton.mpr ⟨trivial, hexports⟩
  refine bind (plainObject hρ hmembers) fun v _ ⟨hv, hv'⟩ => ?_
  rw [hv']
  refine bind (ofBlock (declare "module" false hv)) fun _ _ _ => ?_
  refine bind (ofBlock (declare "exports" false hexports)) fun _ _ _ => ?_
  refine bind (program hρ hc body) fun _ _ _ => ?_
  have hget : Shifted c N base ρ (c.limits.callDepth - 1) .program (MonadState.get : Eval Machine)
      MonadState.get fun m m' => m' = m.rename ρ := 
    ⟨fun m hm => ⟨Kept.refl, hm, fun m' _ => ⟨_, rfl⟩⟩, fun m _ => Nat.le_refl m.next,
      fun _ _ => ⟨rfl, rfl⟩⟩
  refine bind hget fun m m' hm' => ?_
  rw [hm']
  exact result (Eval.collect_rename m)

end Shifted

/-- **A module that is run with identities from elsewhere on puts out the same**, but for the
identities. -/
theorem runModule_shift {c : Context} {ρ : Identity → Identity} (hρ : IsShift ρ)
    (hscope : c.scope = {}) {next : Identity} (hnext : Globals.firstIdentity ≤ next)
    (body : List Stmt) :
    next ≤ (runModule c next body).2 ∧ runModule c (ρ next) body =
      ((runModule c next body).1.map (ModuleOutput.rename ρ), ρ (runModule c next body).2) := by
  have hready : Machine.IsReady Native.IsBuiltin Globals.firstIdentity { next } := by
    refine ⟨⟨⟨?_, ?_, ?_⟩, ?_, Value.within_undefined, nofun⟩, hnext⟩ <;> simp
  have hmodule := Shifted.module hρ.shiftsFrom (Context.invariant_of_scope hρ hscope) body
  have hstart : Machine.rename ρ { next } = { next := ρ next } := rfl
  have houtcome := (hmodule.twins _ hready).eq_map
  rw [hstart] at houtcome
  unfold runModule
  rw [Eval.runFrom_eq, Eval.runFrom_eq, houtcome]
  exact ⟨hmodule.next_le _ hready, rfl⟩

end Stencil.Script
