import Stencil.Proofs.Script.Learning
import Stencil.Proofs.Script.Ledger
import Stencil.Proofs.Script.PairLogic

/-! # Evaluations and ledgers

`Nesting c start w x Q` says of a step that from a machine that fits the ledger `w` it gets to one
that fits a later ledger, whether it returns or fails, and that its results are as `Q` says.

For the steps that make containers and functions this is so because the content is measured before,
and for the writing of members because of how far below its binding the member stands: a container
on the way is made anew, and it is no taller than before unless the value that was put in fits that
far below the limit (`SlotStep.leaves_onPath`).  Values that come whole from outside raise the
bound.  All this makes a logic of evaluations (`PairLogic.nesting`).
-/
namespace Stencil.Script

/-! ## The logic -/

/-- A value without content has no height. -/
theorem Value.height_plain {v : Value} (h : v.isPlain) : v.height = 0 := by
  cases v <;> first | rfl | cases h

/-- The sides of the logic: ledgers are what is known of values, and identities stay as they are. -/
def Ledger.sides : Sides where
  World := Ledger
  Le := Ledger.Le
  refl := Ledger.Le.refl
  trans := Ledger.Le.trans
  rename := id
  Fits := Ledger.Fits

/-- From a machine that fits the ledger the step gets to one that fits a later ledger, and its
results are as `Q` says of that ledger. -/
def Nesting (c : Context) (start : Ledger) {α : Type} (w : Ledger) (x : Eval α)
    (Q : Ledger → α → Prop) : Prop :=
  ∀ m, m.Fits c start w → ∃ w', w.Le w' ∧ (x.outcome c m).2.Fits c start w' ∧
    ∀ a, (x.outcome c m).1 = .ok a → Q w' a

/-- A ledger is about a machine if the machine fits it. -/
def Ledger.tracking (c : Context) (start : Ledger) : Tracking where
  toSides := Ledger.sides
  Tracks w m := m.Fits c start w
  same hsame hnext hreceived hm := hm.grow (.refl _) rfl hsame hreceived (hnext ▸ hm.unused)

namespace Nesting
variable {c : Context} {start w : Ledger} {α β : Type} {x : Eval α} {P Q : Ledger → α → Prop}

theorem learns : Nesting c start w x Q ↔ Learns (Ledger.tracking c start) c w x Q :=
  Iff.rfl

theorem result {a : α} (h : Q w a) : Nesting c start w (pure a) Q :=
  learns.mpr (Learns.result h)

theorem fail (e : ScriptError) : Nesting c start w (throw e : Eval α) Q :=
  learns.mpr (Learns.fail e)

theorem bind {R : Ledger → β → Prop} {f : α → Eval β} (hx : Nesting c start w x P)
    (hf : ∀ w' a, w.Le w' → P w' a → Nesting c start w' (f a) R) :
    Nesting c start w (x >>= f) R :=
  learns.mpr (Learns.bind (learns.mp hx) hf)

theorem weaken (h : Nesting c start w x P) (hPQ : ∀ w' a, w.Le w' → P w' a → Q w' a) :
    Nesting c start w x Q :=
  learns.mpr (Learns.weaken (learns.mp h) hPQ)

/-- On a machine that fits, the bound is no less than the limit. -/
theorem assume (h : c.limits.valueDepth ≤ w.bound → Nesting c start w x Q) :
    Nesting c start w x Q :=
  fun m hm => h hm.limit_le m hm

/-- A step that touches neither values nor identities. -/
theorem counter (hx : ∀ m : Machine, m.Same (x.outcome c m).2 ∧
    (x.outcome c m).2.next = m.next ∧ (x.outcome c m).2.received = m.received) :
    Nesting c start w x fun _ _ => True :=
  learns.mpr (Learns.counter hx)

theorem get : Nesting c start w (MonadState.get : Eval Machine) fun w' m => m.Fits c start w' :=
  learns.mpr Learns.get

theorem read : Nesting c start w (MonadReader.read : Eval Context) fun _ c' => c' = c :=
  learns.mpr Learns.read

theorem limits : Nesting c start w Eval.limits fun _ limits => limits = c.limits :=
  learns.mpr Learns.limits

theorem tick : Nesting c start w Eval.tick fun _ _ => True :=
  learns.mpr Learns.tick

theorem charge (bytes : Nat) : Nesting c start w (Eval.charge bytes) fun _ _ => True :=
  learns.mpr (Learns.charge bytes)

theorem ofExcept (y : Except ScriptError α) :
    Nesting c start w (Eval.ofExcept y) fun _ a => y = .ok a :=
  learns.mpr (Learns.ofExcept y)

/-- A check in front of a step. -/
theorem guard {p : Prop} [Decidable p] {e : ScriptError} (h : ¬ p → Nesting c start w x Q) :
    Nesting c start w (if p then do let _ : Unit ← throw e; x else x) Q :=
  learns.mpr (Learns.guard h)

/-- The second side may be taken to be the same. -/
theorem same (h : Nesting c start w x P) :
    Nesting c start w x fun w' a => ∃ a', Ledger.sides.Same w' a a' :=
  learns.mpr (Learns.same (learns.mp h))

theorem paired {y : Eval Value} (h : Nesting c start w y Ledger.Fits) :
    Nesting c start w y fun w' v => ∃ v', Ledger.sides.Paired w' v v' :=
  learns.mpr (Learns.paired (learns.mp h))

/-! ### New values -/

/-- A value is made under a new identity, which is noted with a height. -/
theorem fresh (make : Identity → α) (n : Nat)
    (h : ∀ w' id, w.Le w' → w'.bound = w.bound → w'.heightOf id = some n → Q w' (make id)) :
    Nesting c start w (do return make (← Eval.fresh)) Q := by
  intro m hm
  have hid : w.heightOf m.next = none := hm.unused m.next (Nat.le_refl _)
  refine ⟨w.note m.next n hid, Ledger.le_note, ?_, ?_⟩
  · refine hm.grow Ledger.le_note rfl ⟨rfl, rfl, rfl, rfl, rfl⟩ rfl fun id hlt => ?_
    rw [Ledger.heightOf_note_of_ne (Nat.ne_of_gt hlt)]
    exact hm.unused id (Nat.le_of_succ_le hlt)
  · rintro a ⟨⟩
    exact h _ _ Ledger.le_note rfl Ledger.heightOf_note_self

/-- Values pass a check only if they fit below the limit. -/
theorem checked (level : Nat) {vs : List Value} (h : ∀ v ∈ vs, v.Known w.heightOf) :
    Nesting c start w (Eval.ofExcept (Value.checkHeights c.limits.valueDepth level vs))
      fun _ _ => ∀ v ∈ vs, v.FitsBelow c.limits.valueDepth level := by
  rcases Value.checkHeights_cases c.limits.valueDepth level h with ⟨hok, hfits⟩ | ⟨herror, -⟩
  · rw [hok]
    exact result hfits
  · rw [herror]
    exact fail _


theorem plainArray {items : Array Value} (h : ∀ v ∈ items, w.Fits v)
    (hheight : Value.itemsHeight items.toList + 1 ≤ w.bound) :
    Nesting c start w (Eval.plainArray items) Ledger.Fits := by
  unfold Eval.plainArray
  refine fresh (fun id => Value.array id items) (Value.itemsHeight items.toList + 1)
    fun w' id hle hbound hid => ?_
  exact Ledger.fits_array.mpr ⟨hid, hbound ▸ hheight, fun v hv => (h v hv).mono hle⟩

theorem plainObject {members : List (String × Value)} (h : ∀ p ∈ members, w.Fits p.2)
    (hheight : Value.membersHeight members + 1 ≤ w.bound) :
    Nesting c start w (Eval.plainObject members) fun w' v =>
      w'.Fits v ∧ v.height = Value.membersHeight members + 1 := by
  unfold Eval.plainObject
  refine fresh (fun id => Value.object id members) (Value.membersHeight members + 1)
    fun w' id hle hbound hid => ⟨?_, Value.height_object id members⟩
  exact Ledger.fits_object.mpr ⟨hid, hbound ▸ hheight, fun p hp => (h p hp).mono hle⟩

/-- An array of values without content has the least height of containers. -/
theorem plainScalars {items : Array Value} (h : ∀ v ∈ items, v.isPlain) :
    Nesting c start w (Eval.plainArray items) Ledger.Fits := by
  have hheight : Value.itemsHeight items.toList = 0 :=
    Nat.le_zero.mp (Value.itemsHeight_le.mpr fun v hv =>
      Nat.le_of_eq (Value.height_plain (h v (Array.mem_toList_iff.mp hv))))
  refine plainArray (fun v hv => Ledger.fits_plain (h v hv)) ?_
  rw [hheight]
  exact w.positive

theorem plainMembers {members : List (String × Value)} (h : ∀ p ∈ members, p.2.isPlain) :
    Nesting c start w (Eval.plainObject members) Ledger.Fits := by
  have hheight : Value.membersHeight members = 0 :=
    Nat.le_zero.mp (Value.membersHeight_le.mpr fun p hp =>
      Nat.le_of_eq (Value.height_plain (h p hp)))
  refine weaken (plainObject (fun p hp => Ledger.fits_plain (h p hp)) ?_) fun _ _ _ hv => hv.1
  rw [hheight]
  exact w.positive

theorem newArray (hD : 1 ≤ c.limits.valueDepth) {items : Array Value}
    (h : ∀ v ∈ items, w.Takes v) : Nesting c start w (Eval.newArray items) Ledger.Fits := by
  unfold Eval.newArray
  refine bind limits fun w₁ _ hle₁ hlimits => ?_
  rw [hlimits]
  refine guard fun _ => ?_
  refine bind (charge _) fun w₂ _ hle₂ _ => ?_
  have hitems : ∀ v ∈ items.toList, w₂.Takes v := fun v hv =>
    (h v (Array.mem_toList_iff.mp hv)).mono (hle₁.trans hle₂)
  refine bind (checked 1 fun v hv => (hitems v hv).known) fun w₃ _ hle₃ hfits => ?_
  refine assume fun hlimit => ?_
  have hheight := (Value.forall_fitsBelow hD).mp hfits
  refine plainArray (fun v hv => ?_) (by omega)
  have hv' := Array.mem_toList_iff.mpr hv
  have hle : v.height ≤ w₃.bound := by
    have := Value.itemsHeight_le.mp (Nat.le_refl _) v hv'
    omega
  exact ((hitems v hv').mono hle₃).fits hle

/-- The pairs of keys and values that are put into one array are measured with it. -/
theorem entries (hD : 1 ≤ c.limits.valueDepth) {members : List (String × Value)}
    (h : ∀ p ∈ members, w.Fits p.2) :
    Nesting c start w
      (do Eval.newList (← members.mapM fun (key, v) => Eval.plainArray #[.string key, v]))
      Ledger.Fits := by
  have hpairs : ∀ (members : List (String × Value)) (w : Ledger), (∀ p ∈ members, w.Fits p.2) →
      Nesting c start w (members.mapM fun (key, v) => Eval.plainArray #[.string key, v])
        fun w' pairs => ∀ v ∈ pairs, w'.Takes v := by
    intro members
    induction members with
    | nil =>
      intro w _
      rw [List.mapM_nil]
      exact result (List.forall_mem_nil _)
    | cons p rest ih =>
      intro w h
      obtain ⟨hp, hrest⟩ := List.forall_mem_cons.mp h
      rw [List.mapM_cons]
      refine bind (P := Ledger.Takes) ?_ fun w₁ pair hle₁ hpair => ?_
      · refine fresh (fun id => Value.array id #[.string p.1, p.2])
          (Value.itemsHeight [.string p.1, p.2] + 1) fun w₁ id hle _ hid => ?_
        have hcontainer : (Value.array id #[.string p.1, p.2]).IsContainer id [.string p.1, p.2] :=
          ⟨rfl, rfl⟩
        refine Ledger.takes_container hcontainer hid ?_
        refine List.forall_mem_cons.mpr ⟨(Ledger.fits_of_identity? rfl).takes, ?_⟩
        exact List.forall_mem_singleton.mpr (hp.mono hle).takes
      · refine bind (ih w₁ fun q hq => (hrest q hq).mono hle₁) fun w₂ pairs hle₂ hpairs => ?_
        exact result (List.forall_mem_cons.mpr ⟨hpair.mono hle₂, hpairs⟩)
  refine bind (hpairs members w h) fun w₁ pairs _ hpairs => ?_
  exact newArray hD fun v hv => hpairs v (List.mem_toArray.mp hv)

theorem newObject (hD : 1 ≤ c.limits.valueDepth) {members : List (String × Value)}
    (h : ∀ p ∈ members, w.Fits p.2) : Nesting c start w (Eval.newObject members) Ledger.Fits := by
  unfold Eval.newObject
  refine bind (charge _) fun w₁ _ hle₁ _ => bind limits fun w₂ _ hle₂ hlimits => ?_
  rw [hlimits]
  have hmembers : ∀ p ∈ members, w₂.Fits p.2 := fun p hp => (h p hp).mono (hle₁.trans hle₂)
  refine bind (checked 1 (List.forall_mem_map.mpr fun p hp => (hmembers p hp).known))
    fun w₃ _ hle₃ hfits => assume fun hlimit => ?_
  have hheight := (Value.forall_fitsBelow hD).mp hfits
  rw [← Value.membersHeight_eq] at hheight
  exact weaken (plainObject (fun p hp => (hmembers p hp).mono hle₃) (by omega)) fun _ _ _ hv => hv.1

theorem fits_snapshot {a : Activation} (h : a.Fits w) : ∀ p ∈ Eval.snapshot a, w.Fits p.2 := by
  intro p hp
  rcases Eval.mem_snapshot hp with ⟨frame, hframe, q, hq, hpq⟩ | hp
  · exact hpq ▸ h.frames frame hframe q hq
  · exact h.captured p hp

theorem newClosure (hD : 1 ≤ c.limits.valueDepth) (f : FunctionDef) :
    Nesting c start w (Eval.newClosure f) Ledger.Fits := by
  unfold Eval.newClosure
  refine bind get fun w₁ m _ hm => bind limits fun w₂ _ hle₂ hlimits => ?_
  rw [hlimits]
  have ha := hm.current.mono hle₂
  refine bind (checked 1 (List.forall_mem_map.mpr fun p hp => (fits_snapshot ha p hp).known))
    fun w₃ _ hle₃ hfits => assume fun hlimit => ?_
  have hheight := (Value.forall_fitsBelow hD).mp hfits
  rw [← Value.membersHeight_eq] at hheight
  refine fresh (fun id => Value.closure id f (Eval.snapshot m.current) m.current.siblings)
    (Value.membersHeight (Eval.snapshot m.current) + 1) fun w₄ id hle₄ hbound hid => ?_
  have ha' := ha.mono (hle₃.trans hle₄)
  exact Ledger.fits_closure.mpr ⟨⟨hid, by omega⟩, fits_snapshot ha', ha'.siblings⟩

/-! ### Names -/

theorem lookupSibling? (name : String) :
    Nesting c start w (Eval.lookupSibling? name) Ledger.sides.FitsAnswer := by
  unfold Eval.lookupSibling?
  refine bind get fun w₁ m _ hm => ?_
  have hfound : ∀ b, m.current.siblings.lookup name = some b → w₁.FitsBinding b := fun b hb =>
    hm.current.siblings (name, b) (mem_of_lookup hb)
  dsimp only
  split
  · exact result fun v hv => nomatch hv
  · rename_i v hv
    have hfits := hfound _ hv
    exact result fun u hu => Option.some.inj hu ▸ ⟨hfits.known, hfits.bounded⟩
  · rename_i f captured hf
    have hfits := hfound _ hf
    refine fresh (fun id => some (Value.closure id f captured m.current.siblings))
      (Value.membersHeight captured + 1) fun w₂ id hle hbound hid => ?_
    have hcaptured : ∀ p ∈ captured, w₂.Fits p.2 := fun p hp =>
      Ledger.Fits.mono ⟨hfits.known p hp, hfits.bounded.2 p hp⟩ hle
    intro v hv
    rw [← Option.some.inj hv]
    exact Ledger.fits_closure.mpr
      ⟨⟨hid, hbound ▸ hfits.bounded.1⟩, hcaptured, (hm.current.mono hle).siblings⟩

/-- What a read-only name stands for fits. -/
theorem fits_scope (hc : c.Fits start) {name : String} {v : Value}
    (hv : c.scope.lookup? name = some v) : start.Fits v := by
  simp only [Scope.lookup?, Option.orElse_eq_orElse, Option.orElse_eq_or, Option.or_eq_some_iff]
    at hv
  rcases hv with hv | ⟨-, hv | ⟨-, hv | ⟨-, hv⟩⟩⟩
  · exact hc.helpers _ (mem_of_lookup hv)
  · exact hc.vars _ (mem_of_lookup hv)
  · exact hc.capabilities _ (mem_of_lookup hv)
  · exact Ledger.fits_table _ (mem_of_lookup hv)

/-- On a machine that fits, the ledger is no earlier than the one of the start. -/
theorem later (h : start.Le w → Nesting c start w x Q) : Nesting c start w x Q :=
  fun m hm => h hm.later m hm

theorem lookup? (hc : c.Fits start) (name : String) :
    Nesting c start w (Eval.lookup? name) Ledger.sides.FitsAnswer := by
  unfold Eval.lookup?
  refine bind get fun w₁ m _ hm => ?_
  dsimp only
  split
  · rename_i b hb
    exact result fun u hu => Option.some.inj hu ▸ hm.current.findBinding? hb
  · split
    · rename_i v hv
      exact result fun u hu => Option.some.inj hu ▸ hm.current.captured _ (mem_of_lookup hv)
    · refine bind (lookupSibling? name) fun w₂ found _ hfound => ?_
      split
      · exact result hfound
      · refine bind read fun w₃ c' _ hc' => later fun hlater => ?_
        exact result fun u hu => (fits_scope hc (hc' ▸ hu)).mono hlater

/-! ### Values from outside -/

theorem parseJson (s : String) : Nesting c start w (Native.parseJson s) Ledger.Fits := by
  unfold Native.parseJson
  cases Json.parse s with
  | error e => exact fail _
  | ok json =>
    intro m hm
    obtain ⟨hle, w', hwrites, htakes⟩ := Ledger.takes_ofJson m.next hm.unused json
    refine ⟨w'.raise (Value.ofJson m.next json).1.height, hwrites.le.trans (w'.le_raise _), ?_, ?_⟩
    · exact hm.receive hwrites.le hwrites.bound ⟨rfl, rfl, rfl, rfl, rfl⟩ rfl
        (hwrites.free hle hm.unused)
    · rintro v ⟨⟩
      exact htakes

theorem runHost (hc : c.Fits start) {name : String} {args : List Value}
    (h : ∀ v ∈ args, w.Fits v) : Nesting c start w (Native.runHost name args) Ledger.Fits := by
  intro m hm
  rw [Eval.outcome_runHost]
  cases hanswer : c.host.natives name args with
  | error message => exact ⟨w, .refl w, hm, fun _ ha => nomatch ha⟩
  | ok v =>
    refine ⟨w.raise v.height, w.le_raise _, ?_, ?_⟩
    · exact hm.receive (.refl w) rfl ⟨rfl, rfl, rfl, rfl, rfl⟩ rfl hm.unused
    · rintro u ⟨⟩
      exact hc.natives w hm.later name args v h hanswer

theorem fetch (url : String) : Nesting c start w (Native.fetch url) Ledger.Fits := by
  intro m hm
  rw [Eval.outcome_fetch]
  cases c.host.fetch with
  | none => exact ⟨w, .refl w, hm, fun _ ha => nomatch ha⟩
  | some answer =>
    refine ⟨w, .refl w, ?_, fun v hv => ?_⟩
    · exact hm.grow (.refl w) rfl ⟨rfl, rfl, rfl, rfl, rfl⟩ rfl hm.unused
    · dsimp only at hv
      cases hpoll : Eval.poll c.budget m.ticks with
      | error e =>
        rw [hpoll] at hv
        cases hv
      | ok u =>
        simp only [hpoll, Except.bind] at hv
        split at hv <;> cases hv
        exact Ledger.fits_of_identity? rfl

/-! ### What is changed -/

theorem declare (name : String) {v : Value} (constant : Bool) (hv : w.Fits v) :
    Nesting c start w (Eval.declare name v constant) fun _ _ => True := by
  intro m hm
  refine ⟨w, .refl w, { hm with current := ?_ }, fun _ _ => trivial⟩
  refine ⟨fun frame hframe p hp => ?_, hm.current.captured, hm.current.siblings⟩
  simp only [Eval.declare, Eval.outcome_modify] at hframe
  cases h : m.current.frames with
  | nil => simp [h, Eval.onInnermost] at hframe
  | cons inner outer =>
    obtain ⟨hinner, houter⟩ := List.forall_mem_cons.mp (h ▸ hm.current.frames)
    simp only [h, Eval.onInnermost] at hframe
    rcases List.mem_cons.mp hframe with rfl | hframe
    · rcases mem_insertMember hp with rfl | hp
      · exact hv
      · exact hinner p hp
    · exact houter frame hframe p hp

theorem complete {v : Value} (hv : w.Fits v) :
    Nesting c start w (Eval.complete v) fun _ _ => True := by
  intro m hm
  refine ⟨w, .refl w, ?_, fun _ _ => trivial⟩
  simp only [Eval.complete, Eval.outcome_modify]
  split
  · exact { hm with completion := hv }
  · exact hm

theorem setDefault {v : Value} (hv : w.Fits v) :
    Nesting c start w (Eval.setDefault v) fun _ _ => True := fun _ hm =>
  ⟨w, .refl w, { hm with defaultExport := fun _ hu => Option.some.inj hu ▸ hv },
    fun _ _ => trivial⟩

theorem takeCompletion : Nesting c start w Eval.takeCompletion Ledger.Fits := fun _ hm =>
  ⟨w, .refl w, { hm with completion := Ledger.fits_of_identity? rfl },
    fun _ hv => Except.ok.inj hv ▸ hm.completion⟩

theorem checkWritable (hc : c.Fits start) (target : Target) :
    Nesting c start w (Eval.checkWritable target) fun _ _ => True := by
  unfold Eval.checkWritable
  refine bind (counter fun _ => ⟨⟨rfl, rfl, rfl, rfl, rfl⟩, rfl, rfl⟩) fun w₁ frames _ _ => ?_
  split
  · split
    · exact fail _
    · exact result trivial
  · refine bind (lookup? hc target.root) fun w₂ v _ _ => ?_
    split <;> exact fail _

end Nesting

/-! ## Places -/

/-- What a step has left of a value that stands `level` containers below its binding: the ledger has
been written on under identities of a set, the value that is left fits, and it is no taller than the
old one unless its binding stays within the bound. -/
structure SlotStep.Leaves {α : Type} (w w' : Ledger) (used : Identity → Prop) (level : Nat)
    (v : Value) (P : Ledger → α → Prop) (r : Except ScriptError α × Value) : Prop where
  writes : Ledger.Writes used w w'
  fits : w'.Fits r.2
  height : r.2.height ≤ v.height ∨ level + r.2.height ≤ w.bound
  answer : ∀ a, r.1 = .ok a → P w' a

namespace SlotStep
variable {α : Type} {w w' : Ledger} {used : Identity → Prop} {level : Nat} {v : Value}
  {P : Ledger → α → Prop} {step : SlotStep α}

theorem leaves_error {e : ScriptError} (hv : w.Fits v) :
    Leaves w w used level v P (.error e, v) :=
  ⟨.refl w, hv, .inl (Nat.le_refl _), fun _ h => nomatch h⟩

/-- A new container in the place of a value of some height. -/
theorem leaves_made (hP : ∀ w w' a, w.Le w' → P w a → P w' a) (hv : w.Fits v)
    (hpos : 0 < v.height) (hwrites : Ledger.Writes used w w') {id : Identity}
    (hid : w'.heightOf id = none) {content : List Value} {made : Value}
    (hmade : made.IsContainer id content)
    (hcontent : ∀ x ∈ content,
      w'.Fits x ∧ (x.height < v.height ∨ level + 1 + x.height ≤ w.bound))
    {r : Except ScriptError α} (hr : ∀ a, r = .ok a → P w' a) :
    ∃ w'', Leaves w w'' (fun k => used k ∨ k = id) level v P (r, made) := by
  have hheight : made.height ≤ v.height ∨ level + made.height ≤ w.bound := by
    have hmax : Value.itemsHeight content ≤ max (v.height - 1) (w.bound - (level + 1)) := by
      refine Value.itemsHeight_le.mpr fun x hx => ?_
      have := (hcontent x hx).2
      omega
    rw [hmade.height]
    omega
  have hbound : made.height ≤ w.bound := by
    have := hv.height_le
    omega
  refine ⟨w'.note id made.height hid, ?_, ?_, hheight,
    fun a ha => hP _ _ a Ledger.le_note (hr a ha)⟩
  · exact .trans (hwrites.weaken fun _ => .inl) (Ledger.writes_note.weaken fun _ => .inr)
  · refine (Ledger.fits_container hmade).mpr ⟨Ledger.heightOf_note_self, ?_, fun x hx => ?_⟩
    · exact hwrites.bound ▸ hbound
    · exact (hcontent x hx).1.mono Ledger.le_note

/-- **A step at the end of a path**: the containers on the way are made anew. -/
theorem leaves_onPath (hP : ∀ w w' a, w.Le w' → P w a → P w' a) (keys : List String)
    {id : Identity} (hfree : ∀ k, id ≤ k → w.heightOf k = none ∧ ¬ used k)
    (hstep : ∀ v, w.Fits v → ∃ w', Leaves w w' used (level + keys.length) v P (step v))
    (hv : w.Fits v) :
    ∃ w', Leaves w w' (fun k => used k ∨ Ledger.Between id (id + keys.length) k) level v P
      (onPath step id keys v) := by
  induction keys generalizing id level v with
  | nil =>
    obtain ⟨w', h⟩ := hstep v hv
    exact ⟨w', { h with writes := h.writes.weaken fun _ => .inl }⟩
  | cons key keys ih =>
    have hinner : ∀ u, w.Fits u → ∃ w', Leaves w w'
        (fun k => used k ∨ Ledger.Between (id + 1) (id + 1 + keys.length) k) (level + 1) u P
        (onPath step (id + 1) keys u) := fun u hu =>
      ih (fun k hk => hfree k (Nat.le_of_succ_le hk)) (fun u hu => by
        have := hstep u hu
        rwa [List.length_cons, ← Nat.add_assoc, Nat.add_right_comm] at this) hu
    have hcontainer : ∀ {old : Identity} {content content' : List Value} {made : Value}
        {r : Except ScriptError α}, v.IsContainer old content → made.IsContainer id content' →
        (onPath step (id + 1) keys).ActsOn content content' r →
        ∃ w', Leaves w w' (fun k => used k ∨ Ledger.Between id (id + (key :: keys).length) k) level
          v P (r, made) := by
      intro old content content' made r hold hmade ⟨u, hu, hr, hcontent⟩
      obtain ⟨-, -, hfits⟩ := (Ledger.fits_container hold).mp hv
      have hlt : ∀ x ∈ content, x.height < v.height := fun x hx => by
        rw [hold.height]
        exact Nat.lt_succ_of_le (Value.itemsHeight_le.mp (Nat.le_refl _) x hx)
      have hpos : 0 < v.height := hold.height ▸ Nat.succ_pos _
      have hu' : w.Fits u ∧ u.height < v.height := by
        rcases hu with hu | rfl
        · exact ⟨hfits u hu, hlt u hu⟩
        · exact ⟨Ledger.fits_of_identity? rfl, hpos⟩
      obtain ⟨w₁, h⟩ := hinner u hu'.1
      have hid : w₁.heightOf id = none := by
        obtain ⟨hid, hused⟩ := hfree id (Nat.le_refl _)
        exact h.writes.unused hid fun hk => hk.elim hused fun hk => Nat.lt_irrefl _ hk.1
      have hcontent' : ∀ x ∈ content',
          w₁.Fits x ∧ (x.height < v.height ∨ level + 1 + x.height ≤ w.bound) := by
        intro x hx
        rcases hcontent x hx with hx | rfl | rfl
        · exact ⟨(hfits x hx).mono h.writes.le, .inl (hlt x hx)⟩
        · exact ⟨Ledger.fits_of_identity? rfl, .inl hpos⟩
        · exact ⟨h.fits, h.height.imp (fun hle => Nat.lt_of_le_of_lt hle hu'.2) fun hle => hle⟩
      have hanswer : ∀ a, r = .ok a → P w₁ a := fun a ha => h.answer a (hr.symm.trans ha)
      obtain ⟨w₂, h'⟩ := leaves_made hP hv hpos h.writes hid hmade hcontent' hanswer
      refine ⟨w₂, { h' with writes := h'.writes.weaken fun k hk => ?_ }⟩
      rcases hk with (hk | hk) | rfl
      · exact .inl hk
      · refine .inr ⟨Nat.le_of_succ_le hk.1, ?_⟩
        rw [List.length_cons, ← Nat.add_assoc, Nat.add_right_comm]
        exact hk.2
      · exact .inr ⟨Nat.le_refl _, Nat.lt_add_of_pos_right (Nat.succ_pos _)⟩
    cases v with
    | object old members =>
      exact hcontainer ⟨rfl, rfl⟩ ⟨rfl, rfl⟩ (onMember_actsOn _ key members)
    | array old items =>
      unfold onPath
      split
      · exact ⟨w, leaves_error hv⟩
      · split
        · exact ⟨w, leaves_error hv⟩
        · rename_i i _ _
          exact hcontainer ⟨rfl, rfl⟩ ⟨rfl, rfl⟩ (onItem_actsOn _ i items)
    | _ =>
      unfold onPath
      split <;> exact ⟨w, leaves_error hv⟩

end SlotStep

namespace Nesting
variable {c : Context} {start w : Ledger} {α β : Type} {x : Eval α} {P Q : Ledger → α → Prop}

/-- A step on the value in a place, on a machine that fits. -/
theorem fits_onPlace (hc : c.Fits start) (hP : ∀ w w' a, w.Le w' → P w a → P w' a)
    {target : Target} {step : SlotStep α} {used : Identity → Prop} {m : Machine}
    (hm : m.Fits c start w) (hused : ∀ k, m.next ≤ k → ¬ used k)
    (hstep : ∀ v, w.Fits v →
      ∃ w', SlotStep.Leaves w w' used target.keys.length v P (step v)) :
    ∃ w', w.Le w' ∧ ((Eval.onPlace target step).outcome c m).2.Fits c start w' ∧
      ∀ a, ((Eval.onPlace target step).outcome c m).1 = .ok a → P w' a := by
  obtain ⟨w₁, hle₁, hm₁, -⟩ := checkWritable hc target m hm
  unfold Eval.onPlace
  rw [Eval.outcome_bind]
  rcases hcheck : (Eval.checkWritable target).outcome c m with ⟨_ | _, m₁⟩
  · rw [hcheck] at hm₁
    exact ⟨w₁, hle₁, hm₁, fun _ ha => nomatch ha⟩
  · obtain rfl := Eval.outcome_checkWritable_ok _ _ hcheck
    dsimp only
    rw [Eval.outcome_bind, Eval.outcome_modifyGet]
    dsimp only
    rcases onBinding_cases target.root (onPath step m₁.next target.keys) m₁.current.frames with
      hnone | ⟨frame, hframe, q, hq, hr, hframes⟩
    · rw [hnone]
      refine ⟨w, .refl w, ?_, fun _ ha => nomatch ha⟩
      exact hm.grow (.refl w) rfl ⟨rfl, rfl, rfl, rfl, rfl⟩ rfl fun k hk =>
        hm.unused k (Nat.le_trans (Nat.le_add_right _ _) hk)
    · have hfits := hm.current.frames frame hframe q hq
      obtain ⟨w', h⟩ : ∃ w', SlotStep.Leaves w w' _ 0 q.2.value P
          (onPath step m₁.next target.keys q.2.value) :=
        SlotStep.leaves_onPath hP target.keys (fun k hk => ⟨hm.unused k hk, hused k hk⟩)
          (by simpa using hstep) hfits
      rcases honto : onBinding target.root (onPath step m₁.next target.keys) m₁.current.frames
        with ⟨r, frames⟩
      rw [honto] at hr hframes
      cases hr
      dsimp only
      rw [Eval.outcome_ofExcept]
      refine ⟨w', h.writes.le, ?_, h.answer⟩
      have hgrow : Machine.Fits c start w' { m₁ with next := m₁.next + target.keys.length } :=
        hm.grow h.writes.le h.writes.bound ⟨rfl, rfl, rfl, rfl, rfl⟩ rfl fun k hk => by
          have hle := Nat.le_trans (Nat.le_add_right _ _) hk
          exact h.writes.unused (hm.unused k hle) fun hk' =>
            hk'.elim (hused k hle) fun hk' => Nat.not_le_of_lt hk'.2 hk
      refine { hgrow with current := { hgrow.current with frames := ?_ } }
      intro frame' hframe' p hp
      rcases hframes frame' hframe' p hp with ⟨frame₁, h₁, hp⟩ | hp
      · exact hgrow.current.frames frame₁ h₁ p hp
      · exact hp ▸ h.fits

theorem assign (hc : c.Fits start) (target : Target) {v : Value} (hv : w.Fits v) :
    Nesting c start w (Eval.assign target v) fun _ _ => True := by
  unfold Eval.assign
  refine bind limits fun w₁ _ hle hlimits m hm => ?_
  rw [hlimits]
  have hv₁ := hv.mono hle
  have hnone : ∀ k, m.next ≤ k → ¬ (fun _ : Identity => False) k := fun _ _ => id
  refine fits_onPlace hc (fun _ _ _ _ _ => trivial) hm hnone fun u _ => ⟨w₁, ?_⟩
  split
  · rename_i hlevel
    refine ⟨.refl w₁, hv₁, .inr ?_, fun _ _ => trivial⟩
    rw [hlevel, Nat.zero_add]
    exact hv₁.height_le
  · rcases Value.checkHeights_cases c.limits.valueDepth target.keys.length
      (List.forall_mem_singleton.mpr hv₁.known) with ⟨hok, hfits⟩ | ⟨herror, -⟩
    · rw [hok]
      refine ⟨.refl w₁, hv₁, ?_, fun _ _ => trivial⟩
      rcases List.forall_mem_singleton.mp hfits with h | h
      · exact .inl (Nat.le_trans (Nat.le_of_eq h) (Nat.zero_le _))
      · exact .inr (Nat.le_trans h hm.limit_le)
    · rw [herror]
      exact ⟨.refl w₁, Ledger.fits_of_identity? rfl, .inl (Nat.zero_le _), fun _ h => nomatch h⟩

/-- A method that changes an array in place, with arguments that fit below the array. -/
theorem leaves_onSlot {level limit : Nat} {v : Value} {args : List Value} (op : Method.InPlace)
    (hv : w.Fits v) (hargs : ∀ a ∈ args, w.Fits a)
    (hfits : ∀ a ∈ args, a.FitsBelow limit (level + 1)) (hlimit : limit ≤ w.bound)
    {id : Identity} (hid : w.heightOf id = none) (maxLength : Nat) :
    ∃ w', SlotStep.Leaves w w' (· = id) level v Ledger.Fits (op.onSlot args id maxLength v) := by
  have hnothing : ∀ e, SlotStep.Leaves w w (· = id) level v Ledger.Fits (.error e, .undefined) :=
    fun e => ⟨.refl w, Ledger.fits_of_identity? rfl, .inl (Nat.zero_le _), fun _ h => nomatch h⟩
  unfold Method.InPlace.onSlot
  split
  case h_2 => exact ⟨w, hnothing _⟩
  rename_i old items
  obtain ⟨-, -, hitems⟩ := Ledger.fits_array.mp hv
  obtain ⟨hanswer, hafter⟩ := op.apply_cases args items
  dsimp only
  split
  · exact ⟨w, hnothing _⟩
  have hanswer' : w.Fits (op.apply args items).1 := by
    rcases hanswer with ⟨n, h⟩ | h | h
    · exact h ▸ Ledger.fits_of_identity? rfl
    · exact h ▸ Ledger.fits_of_identity? rfl
    · exact hitems _ h
  have hcontent : ∀ x ∈ (op.apply args items).2.toList, w.Fits x ∧
      (x.height < (Value.array old items).height ∨ level + 1 + x.height ≤ w.bound) := by
    intro x hx
    rw [Value.height_array]
    rcases hafter x (Array.mem_toList_iff.mp hx) with hx | hx
    · refine ⟨hitems x hx, .inl (Nat.lt_succ_of_le ?_)⟩
      exact Value.itemsHeight_le.mp (Nat.le_refl _) x (Array.mem_toList_iff.mpr hx)
    · refine ⟨hargs x hx, (hfits x hx).imp (fun h => ?_) fun h => Nat.le_trans h hlimit⟩
      rw [h]
      exact Nat.succ_pos _
  have hmade : (Value.array id (op.apply args items).2).IsContainer id
      (op.apply args items).2.toList := ⟨rfl, rfl⟩
  obtain ⟨w', h⟩ : ∃ w', SlotStep.Leaves w w' (fun k => False ∨ k = id) level
      (.array old items) Ledger.Fits
      (.ok (op.apply args items).1, .array id (op.apply args items).2) :=
    SlotStep.leaves_made (fun _ _ _ hle h => h.mono hle) hv (Nat.succ_pos _) (.refl w) hid
      hmade hcontent fun a ha => Except.ok.inj ha ▸ hanswer'
  exact ⟨w', { h with writes := h.writes.weaken fun k hk => hk.resolve_left False.elim }⟩

theorem changeInPlace (hc : c.Fits start) (op : Method.InPlace) {args : List Value}
    (hargs : ∀ a ∈ args, w.Fits a) {target : Eval Target}
    (htarget : ∀ w, Nesting c start w target fun _ _ => True) :
    Nesting c start w (Eval.changeInPlace op args target) Ledger.Fits := by
  unfold Eval.changeInPlace
  refine bind (charge _) fun w₁ _ hle₁ _ => bind limits fun w₂ _ hle₂ hlimits => ?_
  rw [hlimits]
  refine bind (htarget w₂) fun w₃ place hle₃ _ m hm => ?_
  have hargs₃ : ∀ a ∈ args, w₃.Fits a := fun a ha =>
    (hargs a ha).mono (hle₁.trans (hle₂.trans hle₃))
  have hfresh : Machine.Fits c start w₃ { m with next := m.next + 1 } :=
    hm.grow (.refl w₃) rfl ⟨rfl, rfl, rfl, rfl, rfl⟩ rfl fun k hk =>
      hm.unused k (Nat.le_of_succ_le hk)
  rw [Eval.outcome_bind, Eval.outcome_fresh]
  have hnext : ∀ k, m.next + 1 ≤ k → ¬ k = m.next := fun k hk h => Nat.lt_irrefl _ (h ▸ hk)
  refine fits_onPlace hc (fun _ _ _ hle h => h.mono hle) hfresh hnext fun v hv => ?_
  rcases Value.checkHeights_cases c.limits.valueDepth (place.keys.length + 1)
    (fun a ha => (hargs₃ a ha).known) with ⟨hok, hfits⟩ | ⟨herror, -⟩
  · rw [hok]
    exact leaves_onSlot op hv hargs₃ hfits hm.limit_le (hm.unused _ (Nat.le_refl _)) _
  · rw [herror]
    exact ⟨w₃, .refl w₃, Ledger.fits_of_identity? rfl, .inl (Nat.zero_le _), fun _ h => nomatch h⟩

/-! ### Blocks, loops and calls -/

theorem withFrame (h : Nesting c start w x Q) : Nesting c start w (Eval.withFrame x) Q := by
  intro m hm
  have hopen : m.openFrame.Fits c start w := { hm with
    current := { hm.current with
      frames := List.forall_mem_cons.mpr ⟨List.forall_mem_nil _, hm.current.frames⟩ } }
  obtain ⟨w', hle, hm', hQ⟩ := h m.openFrame hopen
  rw [Eval.withFrame, Eval.outcome_between]
  refine ⟨w', hle, { hm' with current := { hm'.current with frames := ?_ } }, hQ⟩
  exact fun frame hframe => hm'.current.frames frame (List.mem_of_mem_tail hframe)

theorem withActivation {a : Activation} (ha : a.Fits w) (h : Nesting c start w x Q) :
    Nesting c start w (Eval.withActivation a x) Q := by
  intro m hm
  have henter : (m.enter a).Fits c start w :=
    { hm with current := ha, callers := List.forall_mem_cons.mpr ⟨hm.current, hm.callers⟩ }
  obtain ⟨w', hle, hm', hQ⟩ := h (m.enter a) henter
  rw [Eval.withActivation, Eval.outcome_between]
  refine ⟨w', hle, ?_, hQ⟩
  unfold Machine.leave
  split
  · rename_i caller callers hcallers
    obtain ⟨hcaller, hcallers'⟩ := List.forall_mem_cons.mp (hcallers ▸ hm'.callers)
    exact { hm' with current := hcaller, callers := hcallers' }
  · exact hm'

theorem loop {go : Eval Bool} {turn : Eval (Option Flow)}
    (hgo : ∀ w, Nesting c start w go fun _ _ => True)
    (hturn : ∀ w, Nesting c start w turn fun w' flow => ∀ f ∈ flow, Ledger.sides.FitsFlow w' f) :
    Nesting c start w (Eval.loop go turn) fun w' flow =>
      ∃ flow', Ledger.sides.PairedFlow w' flow flow' :=
  learns.mpr (Learns.loop hgo hturn)

/-- The activation of a function that fits, called with arguments that fit. -/
theorem fits_activationOf {id : Identity} {f : FunctionDef} {captured : List (String × Value)}
    {siblings : Siblings} {args : List Value} (hself : w.Fits (.closure id f captured siblings))
    (hargs : ∀ v ∈ args, w.Fits v) :
    (Eval.activationOf (.closure id f captured siblings) f captured siblings args).Fits w := by
  obtain ⟨-, hcaptured, hsiblings⟩ := Ledger.fits_closure.mp hself
  refine ⟨fun frame hframe p hp => ?_, hcaptured, hsiblings⟩
  rcases Eval.mem_activationOf hframe hp with h | ⟨i, h⟩
  · exact h ▸ hself
  · rw [h, Value.argument, List.getD_eq_getElem?_getD]
    cases hi : args[i]? with
    | none => exact Ledger.fits_of_identity? rfl
    | some v => exact hargs v (List.mem_of_getElem? hi)

end Nesting

/-- **That values stay within the bound is a logic of pairs** that says nothing about the second
side. -/
def PairLogic.nesting (c : Context) (start : Ledger) (hc : c.Fits start)
    (hD : 1 ≤ c.limits.valueDepth) : PairLogic where
  toSides := Ledger.sides
  definitions _ := True
  Holds w _ _ x _ Q := Nesting c start w x fun w' a => ∃ a', Q w' a a'
  injective := Function.injective_id
  globals _ _ := rfl
  inner _ _ _ _ := trivial
  writes := FunctionDef.writesAmong_true
  mono hle h := h.mono hle
  plain := Ledger.fits_plain
  builtin _ := Ledger.fits_of_identity? rfl
  modules := Ledger.fits_modules
  items h := (Ledger.fits_array.mp h).2.2
  members h p hp := ⟨trivial, (Ledger.fits_object.mp h).2.2 p hp⟩
  definition _ := trivial
  result h := Nesting.result ⟨_, h⟩
  bind h hf := Nesting.bind h fun w' a hle ⟨a', ha⟩ => hf w' a a' hle ha
  fail e := Nesting.fail e
  ofCall h := h
  ofPlaces h := h
  ofBlock h := h
  tick := Nesting.same Nesting.tick
  charge bytes := Nesting.same (Nesting.charge bytes)
  limits := Nesting.same Nesting.limits
  now := Nesting.same (Nesting.counter fun _ => ⟨⟨rfl, rfl, rfl, rfl, rfl⟩, rfl, rfl⟩)
  random := Nesting.same (Nesting.learns.mpr Learns.random)
  isHelper _ := Nesting.same (Nesting.counter fun _ => ⟨⟨rfl, rfl, rfl, rfl, rfl⟩, rfl, rfl⟩)
  isLocal _ := Nesting.same (Nesting.counter fun _ => ⟨⟨rfl, rfl, rfl, rfl, rfl⟩, rfl, rfl⟩)
  isDeclared name := Nesting.same (Nesting.learns.mpr (Learns.isDeclared name))
  lookup? name := Nesting.weaken (Nesting.lookup? hc name) fun _ _ _ h => ⟨_, h, rfl⟩
  newArray _ h := Nesting.paired (Nesting.newArray hD fun v hv => (h v hv).takes)
  newObject h := Nesting.paired (Nesting.newObject hD fun p hp => (h p hp).2)
  newClosure f _ := Nesting.paired (Nesting.newClosure hD f)
  plainArray _ h := Nesting.paired (Nesting.plainScalars h.isPlain)
  plainObject _ h := Nesting.paired (Nesting.plainMembers fun p hp => (h p hp).2)
  entries h := Nesting.paired (Nesting.entries hD fun p hp => (h p hp).2)
  parseJson s := Nesting.paired (Nesting.parseJson s)
  fetch url := Nesting.paired (Nesting.fetch url)
  runHost _ h := Nesting.paired (Nesting.runHost hc h)
  assign target _ hv := Nesting.same (Nesting.assign hc target hv)
  changeInPlace op h htarget := Nesting.paired (Nesting.changeInPlace hc op h fun w =>
    Nesting.weaken (htarget w) fun _ _ _ _ => trivial)
  declare name constant hv := Nesting.same (Nesting.declare name constant hv)
  complete hv := Nesting.same (Nesting.complete hv)
  takeCompletion := Nesting.paired Nesting.takeCompletion
  noteExport _ := Nesting.same (Nesting.counter fun _ => ⟨⟨rfl, rfl, rfl, rfl, rfl⟩, rfl, rfl⟩)
  setDefault hv := Nesting.same (Nesting.setDefault hv)
  withFrame := Nesting.withFrame
  loop hgo hturn := Nesting.loop (fun w => Nesting.weaken (hgo w) fun _ _ _ _ => trivial)
    fun w => Nesting.weaken (hturn w) fun _ _ _ ⟨_, hend, _⟩ => hend
  withActivation hf hargs hx := Nesting.withActivation (Nesting.fits_activationOf hf hargs) hx

/-! ## Programs and modules -/

namespace Nesting
variable {c : Context} {start w : Ledger} {P : Value → Prop}

theorem ofPaired {y : Eval Value}
    (h : Nesting c start w y fun w' v => ∃ v', Ledger.sides.Paired w' v v') :
    Nesting c start w y Ledger.Fits :=
  learns.mpr (Learns.ofPaired (learns.mp h))

section
variable (hc : c.Fits start) (hD : 1 ≤ c.limits.valueDepth)
include hc hD

theorem program (body : List Stmt) : Nesting c start w (Eval.program body) Ledger.Fits := by
  refine bind limits fun w₁ limits _ hlimits => ?_
  have hcall := PairLogic.callVia
    (PairLogic.enter (L := .nesting c start hc hD) (limits.callDepth - 1))
  exact ofPaired (PairLogic.programWith hcall w₁ fun _ _ => trivial)

/-- What a module is given has the height two. -/
theorem module (body : List Stmt) (hw : 2 ≤ w.bound) :
    Nesting c start w (Eval.module body) fun w' out =>
      (∀ p ∈ out.bindings, w'.Fits p.2) ∧ ∀ p ∈ out.exports, w'.Fits p.2 := by
  unfold Eval.module
  have hempty : Value.membersHeight [] + 1 ≤ w.bound := Nat.le_of_succ_le hw
  refine bind (plainObject (List.forall_mem_nil _) hempty) fun w₁ exports hle₁ hexports => ?_
  have hmembers : Value.membersHeight [("exports", exports)] + 1 ≤ w₁.bound := by
    have hbound := hle₁.bound
    have hheight : exports.height = 1 := hexports.2
    simp only [Value.membersHeight, hheight]
    omega
  refine bind (plainObject (List.forall_mem_singleton.mpr hexports.1) hmembers)
    fun w₂ v hle₂ hv => ?_
  refine bind (declare "module" false hv.1) fun w₃ _ hle₃ _ => ?_
  refine bind (declare "exports" false (hexports.1.mono (hle₂.trans hle₃))) fun w₄ _ _ _ => ?_
  refine bind (program hc hD body) fun w₅ _ _ _ => bind get fun w₆ m _ hm => ?_
  exact result (Eval.forall_collect (fun id members h => (Ledger.fits_object.mp h).2.2)
    hm.current.frames hm.defaultExport)

end
end Nesting
end Stencil.Script
