import Stencil.Proofs.Script.Nesting

/-! # How deep values are nested

The limit on the depth of values is checked where containers and functions are made and where
members are written, each time only for what is put in.  That this is enough is what the logic of
ledgers shows: whatever a script can observe is no taller than the limit, or than the tallest value
that came whole from outside (`Eval.nesting_bounded`).  Where a taller value would come about, the
step fails.
-/
namespace Stencil.Script

section Values
variable {c : Context} {start w : Ledger}

theorem Activation.Fits.values {a : Activation} (h : a.Fits w) : ∀ v ∈ a.values, w.Fits v := by
  refine Activation.forall_values h.frames h.captured (fun _ _ hb => ?_) fun _ _ _ hb p hp => ?_
  · exact ⟨(h.siblings _ hb).known, (h.siblings _ hb).bounded⟩
  · exact ⟨(h.siblings _ hb).known p hp, (h.siblings _ hb).bounded.2 p hp⟩

theorem Machine.Fits.values {m : Machine} (h : m.Fits c start w) : ∀ v ∈ m.values, w.Fits v :=
  Machine.forall_values h.current.values (fun a ha => (h.callers a ha).values) h.completion
    h.defaultExport

/-- A new machine holds nothing. -/
theorem Machine.fits_new {next : Identity} (hfree : ∀ id, next ≤ id → start.heightOf id = none) :
    Machine.Fits c start (start.raise c.limits.valueDepth) { next } where
  later := start.le_raise _
  unused := hfree
  bound := by
    simp only [Ledger.raise, Value.itemsHeight]
    omega
  current := ⟨List.forall_mem_singleton.mpr (List.forall_mem_nil _), List.forall_mem_nil _,
    List.forall_mem_nil _⟩
  callers := List.forall_mem_nil _
  completion := Ledger.fits_of_identity? rfl
  defaultExport := fun _ hv => nomatch hv

end Values

/-! ## What is refused -/

theorem Value.checkHeights_eq_error {heightOf : Identity → Option Nat} {limit level : Nat}
    {vs : List Value} (h : ∀ v ∈ vs, v.Known heightOf)
    (hfits : ¬ ∀ v ∈ vs, v.FitsBelow limit level) :
    checkHeights limit level vs = .error (tooDeep limit) := by
  rcases checkHeights_cases limit level h with ⟨-, hall⟩ | ⟨herror, -⟩
  · exact absurd hall hfits
  · exact herror

/-- Content of a container that would be taller than the limit. -/
theorem checkHeights_fails {heightOf : Identity → Option Nat} {limit : Nat} (hlimit : 1 ≤ limit)
    {vs : List Value} (h : ∀ v ∈ vs, v.Known heightOf)
    (htall : limit < Value.itemsHeight vs + 1) :
    Value.checkHeights limit 1 vs = .error (Value.tooDeep limit) := by
  refine Value.checkHeights_eq_error h fun hall => ?_
  have := (Value.forall_fitsBelow hlimit).mp hall
  omega

/-- A step that fails on every value fails at the end of every path. -/
theorem onPath_fails {α : Type} {step : SlotStep α} (h : ∀ v, ∃ e, (step v).1 = .error e)
    (keys : List String) (id : Identity) (v : Value) :
    ∃ e, (onPath step id keys v).1 = .error e := by
  induction keys generalizing id v with
  | nil => exact h v
  | cons key keys ih =>
    cases v with
    | object old members =>
      obtain ⟨u, -, hr, -⟩ := onMember_actsOn (onPath step (id + 1) keys) key members
      exact (ih (id + 1) u).imp fun e he => hr.trans he
    | array old items =>
      unfold onPath
      split
      · exact ⟨_, rfl⟩
      · split
        · exact ⟨_, rfl⟩
        · rename_i i _ _
          obtain ⟨u, -, hr, -⟩ := onItem_actsOn (onPath step (id + 1) keys) i items
          exact (ih (id + 1) u).imp fun e he => hr.trans he
    | _ =>
      unfold onPath
      split <;> exact ⟨_, rfl⟩

namespace Eval
variable {c : Context} {m : Machine} {heightOf : Identity → Option Nat}

theorem onPlace_fails {α : Type} {step : SlotStep α} (h : ∀ v, ∃ e, (step v).1 = .error e)
    (target : Target) : ∃ e, ((onPlace target step).outcome c m).1 = .error e := by
  unfold onPlace
  rw [outcome_bind]
  rcases (checkWritable target).outcome c m with ⟨e | _, m₁⟩
  · exact ⟨e, rfl⟩
  · dsimp only
    rw [outcome_bind, outcome_modifyGet]
    dsimp only
    rcases onBinding_cases target.root (onPath step m₁.next target.keys) m₁.current.frames with
      hnone | ⟨frame, hframe, q, hq, hr, -⟩
    · rw [hnone]
      exact ⟨_, rfl⟩
    · rw [hr]
      dsimp only
      rw [outcome_ofExcept]
      exact onPath_fails h target.keys m₁.next q.2.value

/-- An array that would be taller than the limit is not made. -/
theorem newArray_fails {items : Array Value} (h : ∀ v ∈ items, v.Known heightOf)
    (hD : 1 ≤ c.limits.valueDepth)
    (htall : c.limits.valueDepth < (Value.array m.next items).height) :
    ∃ e, ((newArray items).outcome c m).1 = .error e := by
  rw [outcome_newArray]
  split
  · exact ⟨_, rfl⟩
  · split
    · exact ⟨_, rfl⟩
    · have hknown : ∀ v ∈ items.toList, v.Known heightOf :=
        fun v hv => h v (Array.mem_toList_iff.mp hv)
      rw [checkHeights_fails hD hknown (by rwa [Value.height_array] at htall)]
      exact ⟨_, rfl⟩

/-- An object that would be taller than the limit is not made. -/
theorem newObject_fails {members : List (String × Value)}
    (h : ∀ p ∈ members, p.2.Known heightOf) (hD : 1 ≤ c.limits.valueDepth)
    (htall : c.limits.valueDepth < (Value.object m.next members).height) :
    ∃ e, ((newObject members).outcome c m).1 = .error e := by
  rw [outcome_newObject]
  split
  · exact ⟨_, rfl⟩
  · rw [Value.height_object, Value.membersHeight_eq] at htall
    rw [checkHeights_fails hD (List.forall_mem_map.mpr h) htall]
    exact ⟨_, rfl⟩

/-- A function that would be taller than the limit is not made. -/
theorem newClosure_fails {f : FunctionDef} (h : ∀ p ∈ snapshot m.current, p.2.Known heightOf)
    (hD : 1 ≤ c.limits.valueDepth)
    (htall : c.limits.valueDepth <
      (Value.closure m.next f (snapshot m.current) m.current.siblings).height) :
    ∃ e, ((newClosure f).outcome c m).1 = .error e := by
  rw [Value.height_closure, Value.membersHeight_eq] at htall
  rw [outcome_newClosure, checkHeights_fails hD (List.forall_mem_map.mpr h) htall]
  exact ⟨_, rfl⟩

/-- A member is not written with a value that would reach below the limit. -/
theorem assign_fails {target : Target} {v : Value} (h : v.Known heightOf) (hkeys : target.keys ≠ [])
    (hv : 0 < v.height) (htall : c.limits.valueDepth < target.keys.length + v.height) :
    ∃ e, ((assign target v).outcome c m).1 = .error e := by
  unfold assign
  rw [outcome_bind, outcome_limits]
  refine onPlace_fails (fun u => ?_) target
  rw [if_neg (by simpa using hkeys)]
  have hfits : ¬ ∀ u ∈ [v], u.FitsBelow c.limits.valueDepth target.keys.length := by
    rw [List.forall_mem_singleton, Value.FitsBelow]
    omega
  rw [Value.checkHeights_eq_error (List.forall_mem_singleton.mpr h) hfits]
  exact ⟨_, rfl⟩

/-- An array is not changed in place by arguments that would reach below the limit. -/
theorem changeInPlace_fails {op : Method.InPlace} {args : List Value} {target : Target}
    (h : ∀ a ∈ args, a.Known heightOf) {a : Value} (ha : a ∈ args) (hpos : 0 < a.height)
    (htall : c.limits.valueDepth < target.keys.length + 1 + a.height) :
    ∃ e, ((changeInPlace op args (pure target)).outcome c m).1 = .error e := by
  unfold changeInPlace
  rw [outcome_bind]
  rcases (charge (args.length * slotBytes)).outcome c m with ⟨e | _, m₁⟩
  · exact ⟨e, rfl⟩
  · dsimp only
    rw [outcome_bind, outcome_limits]
    dsimp only
    rw [outcome_bind, outcome_pure]
    dsimp only
    rw [outcome_bind, outcome_fresh]
    refine onPlace_fails (fun u => ?_) target
    have hfits : ¬ ∀ a ∈ args, a.FitsBelow c.limits.valueDepth (target.keys.length + 1) := by
      intro hall
      have := hall a ha
      rw [Value.FitsBelow] at this
      omega
    rw [Value.checkHeights_eq_error h hfits]
    exact ⟨_, rfl⟩

/-! ## What is bounded -/

/-- **How deep values are nested**, if the limit is at least one.

Let `start` be a ledger of the values that come from outside at the start, the global objects among
them, with `start.bound` as the greatest height.  Whatever is run, be it a call, an expression, a
statement, a program or a module, by whoever calls it, leaves a machine all of whose values are
within the greatest among the limit, that height, and the heights of the values that came from
outside since; so is its result.  The object that a module is given has the height two.  What would
be taller than the limit is not made, and a value that would reach below the limit is not
written. -/
theorem nesting_bounded (c : Context) (start : Ledger) (hc : c.Fits start)
    (hD : 1 ≤ c.limits.valueDepth) :
    let D := c.limits.valueDepth
    let Calls := fun call : Call => ∀ f args w, w.Fits f → (∀ v ∈ args, w.Fits v) →
      Nesting c start w (call f args) Ledger.Fits
    (∀ depth, Calls (callVia (enter depth)) ∧ Calls (callGiven (enter depth))) ∧
    (∀ call, Calls call →
      (∀ w e, Nesting c start w (expr call e) Ledger.Fits) ∧
      (∀ w asBody s, Nesting c start w (stmt call asBody s) Ledger.sides.FitsFlow) ∧
      ∀ w body, Nesting c start w (programWith call body) Ledger.Fits) ∧
    (∀ next body, (∀ id, next ≤ id → start.heightOf id = none) →
      let ran := (program body).outcome c { next }
      let bound := max D (max start.bound (Value.itemsHeight ran.2.received))
      (∀ v ∈ ran.2.values, v.Bounded bound) ∧ ∀ v, ran.1 = .ok v → v.Bounded bound) ∧
    (∀ next body, (∀ id, next ≤ id → start.heightOf id = none) →
      let ran := (module body).outcome c { next }
      let bound := max D (max (max start.bound 2) (Value.itemsHeight ran.2.received))
      (∀ v ∈ ran.2.values, v.Bounded bound) ∧
        ∀ out, ran.1 = .ok out → ∀ p ∈ out.bindings ++ out.exports, p.2.Bounded bound) ∧
    ∀ w m, m.Fits c start w →
      (∀ items, (∀ v ∈ items, w.Fits v) → D < (Value.array m.next items).height →
        ∃ e, ((newArray items).outcome c m).1 = .error e) ∧
      (∀ members, (∀ p ∈ members, w.Fits p.2) → D < (Value.object m.next members).height →
        ∃ e, ((newObject members).outcome c m).1 = .error e) ∧
      (∀ f, D < (Value.closure m.next f (snapshot m.current) m.current.siblings).height →
        ∃ e, ((newClosure f).outcome c m).1 = .error e) ∧
      (∀ target v, w.Fits v → target.keys ≠ [] → 0 < v.height →
        D < target.keys.length + v.height →
        ∃ e, ((assign target v).outcome c m).1 = .error e) ∧
      ∀ op args target, (∀ a ∈ args, w.Fits a) →
        (∃ a ∈ args, 0 < a.height ∧ D < target.keys.length + 1 + a.height) →
        ∃ e, ((changeInPlace op args (pure target)).outcome c m).1 = .error e := by
  intro D Calls
  let L := PairLogic.nesting c start hc hD
  have hcalls : ∀ {call : Call} {n : Nat}, Calls call ↔ L.Calls n call call :=
    ⟨fun h w f args hf hargs => Nesting.paired (h f args w hf hargs),
      fun h f args w hf hargs => Nesting.ofPaired (h w f args hf hargs)⟩
  refine ⟨fun depth => ?_, fun call hcall => ?_, ?_, ?_, ?_⟩
  · have henter := PairLogic.enter (L := L) depth
    exact ⟨hcalls.mpr (PairLogic.callVia henter), hcalls.mpr (PairLogic.callGiven henter)⟩
  · have hcall' : L.Calls 0 call call := hcalls.mp hcall
    refine ⟨fun w e => ?_, fun w asBody s => ?_, fun w body => ?_⟩
    · exact Nesting.ofPaired (PairLogic.expr hcall' w e fun _ _ => trivial)
    · exact Nesting.weaken (PairLogic.stmt hcall' w asBody s fun _ _ => trivial)
        fun _ _ _ ⟨_, hflow, _⟩ => hflow
    · exact Nesting.ofPaired (PairLogic.programWith hcall' w fun _ _ => trivial)
  · intro next body hfree
    obtain ⟨w, -, hm, hv⟩ := Nesting.program hc hD body _ (Machine.fits_new hfree)
    dsimp only [D]
    rw [← hm.bound]
    exact ⟨fun v hv => (hm.values v hv).bounded, fun v h => (hv v h).bounded⟩
  · intro next body hfree
    have hc' : c.Fits (start.raise 2) := hc.mono (start.le_raise 2)
    have htwo : 2 ≤ ((start.raise 2).raise c.limits.valueDepth).bound :=
      Nat.le_trans (Nat.le_max_right _ _) (Nat.le_max_left _ _)
    have hfree' : ∀ id, next ≤ id → (start.raise 2).heightOf id = none := hfree
    obtain ⟨w, -, hm, hv⟩ := Nesting.module hc' hD body htwo _ (Machine.fits_new hfree')
    dsimp only [D]
    rw [show max start.bound 2 = (start.raise 2).bound from rfl, ← hm.bound]
    refine ⟨fun v hv => (hm.values v hv).bounded, fun out hout => ?_⟩
    obtain ⟨hbindings, hexports⟩ := hv out hout
    exact List.forall_mem_append.mpr
      ⟨fun p hp => (hbindings p hp).bounded, fun p hp => (hexports p hp).bounded⟩
  · intro w m hm
    refine ⟨fun items h => newArray_fails (fun v hv => (h v hv).known) hD,
      fun members h => newObject_fails (fun p hp => (h p hp).known) hD,
      fun f => newClosure_fails (fun p hp => (Nesting.fits_snapshot hm.current p hp).known) hD,
      fun target v h => assign_fails h.known,
      fun op args target h ⟨a, ha, hpos, htall⟩ =>
        changeInPlace_fails (fun a ha => (h a ha).known) ha hpos htall⟩

/-- **Identities tell the heights of all values that a machine holds** when it has run a program,
and of its result, if they do so of the values that come from outside. -/
theorem tellHeights_program (c : Context) (start : Ledger) (hc : c.Fits start)
    (hD : 1 ≤ c.limits.valueDepth) (next : Identity)
    (hfree : ∀ id, next ≤ id → start.heightOf id = none) (body : List Stmt) :
    let ran := (program body).outcome c { next }
    Value.TellHeights (ran.1.toOption.toList ++ ran.2.values) := by
  intro ran
  obtain ⟨w, -, hm, hv⟩ := Nesting.program hc hD body _ (Machine.fits_new hfree)
  refine Value.tellHeights_iff_known.mpr ⟨w.heightOf, List.forall_mem_append.mpr ⟨fun v hran => ?_, ?_⟩⟩
  · cases hresult : ran.1 with
    | error e =>
      rw [hresult] at hran
      cases hran
    | ok u =>
      rw [hresult] at hran
      obtain rfl : v = u := List.mem_singleton.mp hran
      exact (hv v hresult).known
  · exact fun v hmem => (hm.values v hmem).known

/-- An array in an array. -/
def nestedArray : Value :=
  .array 6 #[.array 7 #[]]

/-- A ledger of an array in an array. -/
def nestedLedger : Ledger where
  heightOf id :=
    if id < 6 then some 1 else if id = 6 then some 2 else if id = 7 then some 1 else none
  bound := 2
  globals _ hid := if_pos hid
  positive := by decide

theorem fits_nestedArray : nestedLedger.Fits nestedArray := by
  refine Ledger.fits_array.mpr ⟨rfl, by decide, fun v hv => ?_⟩
  obtain rfl : v = .array 7 #[] := by simpa using hv
  exact Ledger.fits_array.mpr ⟨rfl, by decide, by simp⟩

/-- A program may show a value from outside that is taller than the limit, but it may not put it
into an array. -/
theorem nesting_bounded_of_nestedArray :
    let c : Context := { scope := { vars := [("v", nestedArray)] },
                         limits := { valueDepth := 1 }, budget := { limit := 5000 } }
    let ran := (program [.expr (.name "v")]).outcome c { next := 8 }
    (ran.1 = .ok nestedArray ∧ nestedArray.height = 2 ∧ ∀ v ∈ ran.2.values, v.Bounded 2) ∧
      ∃ e, ((newArray #[nestedArray]).outcome c { next := 8 }).1 = .error e := by
  intro c ran
  have hc : c.Fits nestedLedger :=
    { helpers := List.forall_mem_nil _
      vars := List.forall_mem_singleton.mpr fits_nestedArray
      capabilities := List.forall_mem_nil _
      natives := fun _ _ _ _ v _ hv => Except.ok.inj hv ▸ (Ledger.fits_of_identity? rfl).takes }
  have hfree : ∀ id, 8 ≤ id → nestedLedger.heightOf id = none := by
    intro (id : Nat) (hid : 8 ≤ id)
    have hlt : ¬ id < 6 := by omega
    have hsix : id ≠ 6 := by omega
    have hseven : id ≠ 7 := by omega
    simp only [nestedLedger, if_neg hlt, if_neg hsix, if_neg hseven]
  obtain ⟨-, -, hprogram, -, hrefused⟩ := nesting_bounded c nestedLedger hc (by decide)
  obtain ⟨hvalues, -⟩ := hprogram 8 [.expr (.name "v")] hfree
  refine ⟨⟨rfl, rfl, hvalues⟩, ?_⟩
  have hitems : ∀ v ∈ #[nestedArray], (nestedLedger.raise 1).Fits v := by
    intro v hv
    obtain rfl : v = nestedArray := by simpa using hv
    exact fits_nestedArray.mono (nestedLedger.le_raise 1)
  exact (hrefused _ { next := 8 } (Machine.fits_new hfree)).1 #[nestedArray] hitems (by decide)

end Eval
end Stencil.Script
