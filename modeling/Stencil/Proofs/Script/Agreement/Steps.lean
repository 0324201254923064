import Stencil.Proofs.Script.Agreement.Machine

/-! # What runs alike

What steps read from machines that agree, make of values that agree and leave in places that agree
corresponds.
-/
namespace Stencil.Script

theorem Eval.isUnbound_of_poll {b : Budget} {ticks : Nat} {e : ScriptError}
    (h : Eval.poll b ticks = .error e) : e.isUnbound = false := by
  unfold Eval.poll at h
  split at h
  · cases h
    rfl
  · split at h <;> cases h
    rfl

/-- Of the same answer twice both agree, if it is not the error that a name is not bound. -/
theorem Answers.same {α : Type} {Q : α → α → Prop} {r : Except ScriptError α}
    (hQ : ∀ a, r = .ok a → Q a a) (hr : ∀ e, r = .error e → e.isUnbound = false) :
    Answers Q r r := by
  cases r with
  | ok a => exact .ok (hQ a rfl)
  | error e => exact .error e (hr e rfl)

namespace RunAlike
variable {c : Context} {bound : String → Prop} {base : Identity} {A : String → Prop}
  {w : Twinning base}

/-! ### What is read and counted -/

theorem tick : RunAlike c bound A w Eval.tick Eval.tick Same := by
  refine counts (Eval.outcome_tick c) (Eval.outcome_tick c) (fun m m' hm => ?_) fun m m' hm => ?_
  · exact .of { hm with ticks := congrArg (· + 1) hm.ticks } rfl rfl rfl
  · rw [hm.ticks]
    refine .same (fun _ _ => rfl) fun e he => ?_
    split at he
    · exact Eval.isUnbound_of_poll he
    · cases he

theorem charge (bytes : Nat) : RunAlike c bound A w (Eval.charge bytes) (Eval.charge bytes) Same := by
  intro m m' hm _
  rw [Eval.outcome_charge, Eval.outcome_charge, hm.allocated]
  split
  · exact .ofError rfl
  · exact .ok ⟨w, .refl w, rfl, .of { hm with allocated := rfl } rfl rfl rfl⟩

theorem limits : RunAlike c bound A w Eval.limits Eval.limits Same :=
  reads fun _ _ _ _ => ⟨_, _, rfl, rfl, rfl⟩

theorem bindLimits {α : Type} {Q : Twinning base → α → α → Prop} {f f' : Limits → Eval α}
    (h : RunAlike c bound A w (f c.limits) (f' c.limits) Q) :
    RunAlike c bound A w (Eval.limits >>= f) (Eval.limits >>= f') Q := by
  intro m m' hm hbinds
  rw [Eval.outcome_bind, Eval.outcome_bind, Eval.outcome_limits, Eval.outcome_limits]
  exact h m m' hm hbinds

theorem now : RunAlike c bound A w Eval.now Eval.now Same :=
  reads fun _ _ _ _ => ⟨_, _, rfl, rfl, rfl⟩

theorem isHelper (name : String) :
    RunAlike c bound A w (Eval.isHelper name) (Eval.isHelper name) Same :=
  reads fun _ _ _ _ => ⟨_, _, rfl, rfl, rfl⟩

theorem random : RunAlike c bound A w Native.random Native.random Same := by
  obtain ⟨x, next, h⟩ := Eval.exists_outcome_random
  refine counts (h c) (h c) (fun m m' hm => ?_) fun m m' hm => ?_
  · exact .of { hm with seed := congrArg next hm.seed } rfl rfl rfl
  · rw [hm.seed]
    exact .ok rfl

theorem isLocal (name : String) :
    RunAlike c bound A w (Eval.isLocal name) (Eval.isLocal name) Same :=
  reads fun _ _ hm _ => ⟨_, _, rfl, rfl,
    isSome_eq_of_rel (findBinding?_agrees hm.current.frames name)⟩

theorem isDeclared (name : String) :
    RunAlike c bound A w (Eval.isDeclared name) (Eval.isDeclared name) Same := by
  have houtcome : ∀ m : Machine, (Eval.isDeclared name).outcome c m =
      (.ok (m.current.frames.head?.any fun frame => (frame.lookup name).isSome), m) := by
    intro m
    unfold Eval.isDeclared
    rw [Eval.outcome_bind, Eval.outcome_frames]
    cases m.current.frames <;> rfl
  refine reads fun m m' hm _ => ⟨_, _, houtcome m, houtcome m', ?_⟩
  have hframes := hm.current.frames
  generalize m.current.frames = frames at hframes
  generalize m'.current.frames = frames' at hframes
  cases hframes with
  | nil => rfl
  | cons hframe _ => exact isSome_eq_of_rel (hframe name)

theorem fetch (url : String) :
    RunAlike c bound A w (Native.fetch url) (Native.fetch url)
      fun w v v' => v.Agrees bound w.joined v' := by
  intro m m' hm _
  rw [Eval.outcome_fetch, Eval.outcome_fetch]
  cases c.host.fetch with
  | none => exact .ofError rfl
  | some answer =>
    dsimp only
    rw [hm.ticks]
    cases hpoll : Eval.poll c.budget m.ticks with
    | error e => exact .ofError (Eval.isUnbound_of_poll hpoll)
    | ok u =>
      dsimp only [Except.bind]
      cases answer url with
      | body text => exact .ok ⟨w, .refl w, .plain rfl, .of { hm with ticks := rfl } rfl rfl rfl⟩
      | failure | pending => exact .ofError rfl

/-! ### Values that are made -/

/-- The values agree. -/
def Agree (bound : String → Prop) (w : Twinning base) (v v' : Value) : Prop :=
  v.Agrees bound w.joined v'

/-- Both sides give out the same identity. -/
theorem fresh : RunAlike c bound A w Eval.fresh Eval.fresh fun w id id' => w.joined id id' := by
  intro m m' hm _
  rw [Eval.outcome_fresh, Eval.outcome_fresh, hm.next, hm.next']
  have hle := w.le_grow 1
  exact .ok ⟨w.grow 1, hle, w.joined_grow (i := 0) Nat.one_pos,
    .of (hm.later hle (hm.current.mono hle)) rfl rfl rfl⟩

theorem checkHeights (level : Nat) (vs vs' : List Value) :
    RunAlike c bound A w (Eval.ofExcept (Value.checkHeights c.limits.valueDepth level vs))
      (Eval.ofExcept (Value.checkHeights c.limits.valueDepth level vs')) Same := by
  intro m m' hm _
  rw [Eval.outcome_ofExcept, Eval.outcome_ofExcept]
  rcases Value.checkHeights_eq c.limits.valueDepth level vs with h | h <;> rw [h]
  · rcases Value.checkHeights_eq c.limits.valueDepth level vs' with h' | h' <;> rw [h']
    · exact .ok ⟨w, .refl w, rfl, .refl hm⟩
    · exact .deep' _
  · exact .deep _

theorem plainArray {items items' : Array Value}
    (h : List.Forall₂ (Value.Agrees bound w.joined) items.toList items'.toList) :
    RunAlike c bound A w (Eval.plainArray items) (Eval.plainArray items') (Agree bound) :=
  bind fresh fun _ _ _ hw hid => result (.ofItems hid (h.imp fun _ _ hv => hv.mono hw.joined))

theorem plainObject {members members' : List (String × Value)}
    (h : SameMembers (Value.Agrees bound w.joined) members members') :
    RunAlike c bound A w (Eval.plainObject members) (Eval.plainObject members') (Agree bound) :=
  bind fresh fun _ _ _ hw hid => result (.ofMembers hid (h.imp fun _ _ hp =>
    ⟨hp.1, hp.2.mono hw.joined⟩))

theorem newArray {items items' : Array Value}
    (h : List.Forall₂ (Value.Agrees bound w.joined) items.toList items'.toList) :
    RunAlike c bound A w (Eval.newArray items) (Eval.newArray items') (Agree bound) := by
  have hsize : items'.size = items.size := h.length_eq.symm
  unfold Eval.newArray
  refine bindLimits ?_
  rw [hsize]
  dsimp only
  split
  · exact bind (fail (Q := fun _ _ _ => False) _ rfl) fun _ _ _ _ hf => hf.elim
  · refine seq (charge _) fun w₁ _ hw₁ => seq (checkHeights 1 _ _) fun w₂ _ hw₂ => ?_
    exact plainArray (h.imp fun _ _ hv => hv.mono (hw₁.trans hw₂).joined)

theorem newList {items items' : List Value}
    (h : List.Forall₂ (Value.Agrees bound w.joined) items items') :
    RunAlike c bound A w (Eval.newList items) (Eval.newList items') (Agree bound) :=
  newArray h

theorem newObject {members members' : List (String × Value)}
    (h : SameMembers (Value.Agrees bound w.joined) members members') :
    RunAlike c bound A w (Eval.newObject members) (Eval.newObject members') (Agree bound) := by
  unfold Eval.newObject
  rw [h.length_eq]
  refine seq (charge _) fun w₁ _ hw₁ => bindLimits ?_
  refine seq (checkHeights 1 _ _) fun w₂ _ hw₂ => plainObject (h.imp fun _ _ hp => ⟨hp.1, ?_⟩)
  exact hp.2.mono (hw₁.trans hw₂).joined

/-- Pairs of keys and values, each an array of its own. -/
theorem pairs {members members' : List (String × Value)}
    (h : SameMembers (Value.Agrees bound w.joined) members members') :
    RunAlike c bound A w
      (members.mapM fun (key, v) => Eval.plainArray #[.string key, v])
      (members'.mapM fun (key, v) => Eval.plainArray #[.string key, v])
      fun w => List.Forall₂ (Value.Agrees bound w.joined) := by
  have hlater : ∀ w₁, w.Le w₁ → RunAlike c bound A w₁
      (members.mapM fun (key, v) => Eval.plainArray #[.string key, v])
      (members'.mapM fun (key, v) => Eval.plainArray #[.string key, v])
      fun w => List.Forall₂ (Value.Agrees bound w.joined) := by
    induction h with
    | nil =>
      intro w₁ _
      exact result .nil
    | @cons p p' rest rest' hp _ ih =>
      intro w₁ hw₁
      obtain ⟨key, v⟩ := p
      obtain ⟨key', v'⟩ := p'
      obtain ⟨rfl, hv⟩ : key' = key ∧ v.Agrees bound w.joined v' := hp
      rw [List.mapM_cons, List.mapM_cons]
      refine bind (plainArray ?_) fun w₂ u u' hw₂ hu => ?_
      · exact .cons (.plain rfl) (.cons (hv.mono hw₁.joined) .nil)
      refine bind (ih w₂ (hw₁.trans hw₂)) fun w₃ vs vs' hw₃ hvs => ?_
      exact result (.cons (hu.mono hw₃.joined) hvs)
  exact hlater w (.refl w)

theorem entries {members members' : List (String × Value)}
    (h : SameMembers (Value.Agrees bound w.joined) members members') :
    RunAlike c bound A w
      (do Eval.newList (← members.mapM fun (key, v) => Eval.plainArray #[.string key, v]))
      (do Eval.newList (← members'.mapM fun (key, v) => Eval.plainArray #[.string key, v]))
      (Agree bound) :=
  bind (pairs h) fun _ _ _ _ hvs => newList hvs

end RunAlike

/-! ### JSON -/

namespace Value
variable {bound : String → Prop} {I : Identity → Identity → Prop} {stop : Identity}

mutual

/-- Values of JSON texts give out identities one after the other. -/
theorem le_ofJson (next : Identity) : ∀ j : Json, next ≤ (ofJson next j).2
  | .null | .bool _ | .number _ | .string _ => Nat.le_refl next
  | .array items => Nat.le_of_succ_le (le_ofJsonItems (next + 1) #[] items)
  | .object members => Nat.le_of_succ_le (le_ofJsonMembers (next + 1) [] members)

theorem le_ofJsonItems (next : Identity) (done : Array Value) :
    ∀ items : List Json, next ≤ (ofJsonItems next done items).2
  | [] => Nat.le_refl next
  | j :: rest => Nat.le_trans (le_ofJson next j) (le_ofJsonItems _ _ rest)

theorem le_ofJsonMembers (next : Identity) (done : List (String × Value)) :
    ∀ members : List (String × Json), next ≤ (ofJsonMembers next done members).2
  | [] => Nat.le_refl next
  | (_, j) :: rest => Nat.le_trans (le_ofJson next j) (le_ofJsonMembers _ _ rest)

end

mutual

/-- The value of a JSON text agrees with itself if the identities that it gives out are joined. -/
theorem agrees_ofJson (next : Identity) : ∀ j : Json,
    (∀ id, next ≤ id → id < (ofJson next j).2 → I id id) →
      (ofJson next j).1.Agrees bound I (ofJson next j).1
  | .null, _ | .bool _, _ | .number _, _ | .string _, _ => .plain rfl
  | .array items, h => by
    have hlt : next < (ofJson next (.array items)).2 := le_ofJsonItems (next + 1) #[] items
    refine .ofItems (h next (Nat.le_refl next) hlt) (List.forall₂_same.mpr ?_)
    exact agrees_ofJsonItems (next + 1) (List.forall_mem_nil _) items fun id hid =>
      h id (Nat.le_of_succ_le hid)
  | .object members, h => by
    have hlt : next < (ofJson next (.object members)).2 := le_ofJsonMembers (next + 1) [] members
    refine .ofMembers (h next (Nat.le_refl next) hlt) (List.forall₂_same.mpr fun p hp => ⟨rfl, ?_⟩)
    exact agrees_ofJsonMembers (next + 1) (List.forall_mem_nil _) members
      (fun id hid => h id (Nat.le_of_succ_le hid)) p hp

theorem agrees_ofJsonItems (next : Identity) {done : Array Value}
    (hdone : ∀ v ∈ done.toList, v.Agrees bound I v) : ∀ items : List Json,
    (∀ id, next ≤ id → id < (ofJsonItems next done items).2 → I id id) →
      ∀ v ∈ (ofJsonItems next done items).1.toList, v.Agrees bound I v
  | [], _ => hdone
  | j :: rest, h => by
    unfold ofJsonItems at h ⊢
    dsimp only at h ⊢
    have hle := le_ofJsonItems (ofJson next j).2 (done.push (ofJson next j).1) rest
    have hj := agrees_ofJson next j fun id hid hlt => h id hid (Nat.lt_of_lt_of_le hlt hle)
    refine agrees_ofJsonItems _ (fun v hv => ?_) rest fun id hid =>
      h id (Nat.le_trans (le_ofJson next j) hid)
    rw [Array.toList_push, List.mem_append, List.mem_singleton] at hv
    rcases hv with hv | rfl
    · exact hdone v hv
    · exact hj

theorem agrees_ofJsonMembers (next : Identity) {done : List (String × Value)}
    (hdone : ∀ p ∈ done, p.2.Agrees bound I p.2) : ∀ members : List (String × Json),
    (∀ id, next ≤ id → id < (ofJsonMembers next done members).2 → I id id) →
      ∀ p ∈ (ofJsonMembers next done members).1, p.2.Agrees bound I p.2
  | [], _ => fun p hp => hdone p (List.mem_reverse.mp hp)
  | (key, j) :: rest, h => by
    unfold ofJsonMembers at h ⊢
    dsimp only at h ⊢
    have hle := le_ofJsonMembers (ofJson next j).2 ((key, (ofJson next j).1) :: done) rest
    have hj := agrees_ofJson next j fun id hid hlt => h id hid (Nat.lt_of_lt_of_le hlt hle)
    exact agrees_ofJsonMembers _ (List.forall_mem_cons.mpr ⟨hj, hdone⟩) rest fun id hid =>
      h id (Nat.le_trans (le_ofJson next j) hid)

end
end Value

namespace RunAlike
variable {c : Context} {bound : String → Prop} {base : Identity} {A : String → Prop}
  {w : Twinning base}

theorem parseJson (s : String) :
    RunAlike c bound A w (Native.parseJson s) (Native.parseJson s) (Agree bound) := by
  intro m m' hm _
  rw [Eval.outcome_parseJson, Eval.outcome_parseJson, hm.next, hm.next']
  cases Json.parse s with
  | error e => exact .ofError rfl
  | ok json =>
    obtain ⟨n, hn⟩ := Nat.exists_eq_add_of_le (Value.le_ofJson w.next json)
    have hle := w.le_grow n
    have hnext : (Value.ofJson w.next json).2 = (w.grow n).next := hn
    have hagree : (Value.ofJson w.next json).1.Agrees bound (w.grow n).joined
        (Value.ofJson w.next json).1 := by
      refine Value.agrees_ofJson w.next json fun id hid hlt => ?_
      obtain ⟨i, rfl⟩ := Nat.exists_eq_add_of_le hid
      rw [hn] at hlt
      exact w.joined_grow (Nat.lt_of_add_lt_add_left hlt)
    dsimp only
    rw [hnext]
    exact .ok ⟨w.grow n, hle, hagree,
      .of { hm.later hle (hm.current.mono hle) with next := rfl } rfl rfl rfl⟩

/-! ### Names -/

/-- The error that a name is not bound, which is not one of those that have to be. -/
theorem unbound {α : Type} {Q : Twinning base → α → α → Prop} {name : String}
    (h : ¬ bound name) :
    RunAlike c bound A w (throw (.unbound name)) (throw (.unbound name)) Q :=
  fun _ _ _ _ => .error _ fun _ hx he => h (ScriptError.unbound.inj he ▸ hx)

section Scope
variable {D : FunctionDef → Prop} (hc : c.IsUniform base D)
  (hD : ∀ f, D f → ∀ x ∈ f.names, ¬ bound x)
include hc hD

theorem outer? (name : String) :
    RunAlike c bound A w (Eval.outer? name) (Eval.outer? name)
      fun w => Option.Rel (Value.Agrees bound w.joined) := by
  intro m m' hm _
  have hsiblings := hm.current.siblings
  have hsame := hm.current.same
  rw [Eval.outcome_outer?, Eval.outcome_outer?, hsame, hm.next, hm.next']
  rcases hlookup : m.current.siblings.lookup name with _ | v | ⟨f, captured⟩
  · dsimp only
    cases hscope : c.scope.lookup? name with
    | none => exact .ok ⟨w, .refl w, .none, .refl hm⟩
    | some v =>
      have hv : v.Agrees bound w.joined v := (hc.scope name v hscope).agrees w.older hD
      exact .ok ⟨w, .refl w, .some hv, .refl hm⟩
  · exact .ok ⟨w, .refl w, .some (hsiblings name _ hlookup), .refl hm⟩
  · obtain ⟨hfinds, htaken⟩ := hsiblings name _ hlookup
    have hle := w.le_grow 1
    have hclosure : (Value.closure w.next f captured m.current.siblings).Agrees bound
        (w.grow 1).joined (.closure w.next f captured m.current.siblings) := by
      refine .ofClosure (w.joined_grow (i := 0) Nat.one_pos) (.refl f) hfinds (fun x _ => ?_)
        (hsiblings.mono hle.joined)
      cases hx : captured.lookup x with
      | none => exact .none
      | some v => exact .some ((htaken x v hx).mono hle.joined)
    exact .ok ⟨w.grow 1, hle, .some hclosure,
      .of (hm.later hle (hm.current.mono hle)) rfl rfl rfl⟩

/-- A name has a value on both sides or on neither; a name that has to be bound has one. -/
theorem lookup? (name : String) (hname : A name) :
    RunAlike c bound A w (Eval.lookup? name) (Eval.lookup? name)
      fun w v v' => Option.Rel (Value.Agrees bound w.joined) v v' ∧ (v = none → ¬ bound name) := by
  intro m m' hm hbinds
  have hlocal := hm.current.local? hname
  have hbound := hbinds name hname
  rw [Eval.outcome_lookup?_eq, Eval.outcome_lookup?_eq]
  generalize m.current.local? name = o at hlocal hbound
  generalize m'.current.local? name = o' at hlocal
  cases hlocal with
  | some hv => exact .ok ⟨w, .refl w, ⟨.some hv, nofun⟩, .refl hm⟩
  | none =>
    refine (outer? hc hD name m m' hm hbinds).imp fun v v' ⟨w', hw, hv, hleft⟩ => ?_
    exact ⟨w', hw, ⟨hv, fun _ h => nomatch hbound h⟩, hleft⟩

theorem lookup (name : String) (hname : A name) :
    RunAlike c bound A w (Eval.lookup name) (Eval.lookup name) (Agree bound) := by
  unfold Eval.lookup
  refine bind (lookup? hc hD name hname) ?_
  rintro w₁ _ _ - ⟨hv | _, hnone⟩
  · exact result hv
  · exact unbound (hnone rfl)

theorem checkWritable (target : Target) (hroot : A target.root) :
    RunAlike c bound A w (Eval.checkWritable target) (Eval.checkWritable target) Same := by
  have hframes : RunAlike c bound A w Eval.frames Eval.frames
      fun w => List.Forall₂ (Frame.Agrees bound w.joined) :=
    reads fun _ _ hm _ => ⟨_, _, rfl, rfl, hm.current.frames⟩
  unfold Eval.checkWritable
  refine bind hframes fun w₁ frames frames' _ h => ?_
  have hbinding := findBinding?_agrees h target.root
  generalize findBinding? target.root frames = o at hbinding
  generalize findBinding? target.root frames' = o' at hbinding
  cases hbinding with
  | some hb =>
    dsimp only
    rw [hb.1]
    split
    · exact fail _ rfl
    · exact result rfl
  | none =>
    refine bind (lookup? hc hD target.root hroot) ?_
    rintro w₂ _ _ - ⟨hv | _, hnone⟩
    · exact fail _ rfl
    · exact unbound (hnone rfl)

theorem onPlace {α : Type} {Q : Twinning base → α → α → Prop} (target : Target)
    (hroot : A target.root) {step step' : SlotStep α}
    (hstep : ∀ w', w.Le w' →
      SlotStep.Alike (Corresponds.comparison c.limits.valueDepth bound) (Value.Agrees bound w'.joined)
        (Q w') step step') :
    RunAlike c bound A w (Eval.onPlace target step) (Eval.onPlace target step') Q := by
  intro m m' hm hbinds
  have hcheck := checkWritable hc hD target hroot m m' hm hbinds
  have hbound : ∀ {m m₁ : Machine} {u : Unit},
      (Eval.checkWritable target).outcome c m = (.ok u, m₁) →
        (findBinding? target.root m.current.frames).isSome := by
    intro m m₁ u h
    unfold Eval.checkWritable at h
    rw [Eval.outcome_bind, Eval.outcome_frames] at h
    dsimp only at h
    split at h
    · rename_i b hb
      rw [hb]
      rfl
    · rw [Eval.outcome_bind] at h
      split at h
      · split at h <;> cases h
      · cases h
  rw [Eval.outcome_onPlace, Eval.outcome_onPlace]
  rcases hrun : (Eval.checkWritable target).outcome c m with ⟨r, m₁⟩
  rcases hrun' : (Eval.checkWritable target).outcome c m' with ⟨r', m₁'⟩
  rw [hrun, hrun'] at hcheck
  dsimp only at hcheck
  cases hcheck with
  | error e h => exact .error e h
  | deep => exact .deep _
  | deep' => exact .deep' _
  | ok h =>
    let k := target.keys.length
    have hle := w.le_grow k
    have hjoined : ∀ i < k, Encloses (Value.Agrees bound (w.grow k).joined) (w.next + i)
        (w.next + i) := fun _ hi => .agrees (w.joined_grow hi)
    have hpath := onPath_alike ((w.grow k).resemblance bound) (hstep (w.grow k) hle) target.keys
      w.next hjoined
    have hframes := hm.current.frames.imp fun _ _ hframe => hframe.mono hle.joined
    obtain ⟨r, r', hr, hr', hcorresponds⟩ :=
      onBinding_agree hpath target.root hframes (hbound hrun)
    dsimp only
    rw [hm.next, hm.next', hr, hr']
    refine hcorresponds.imp fun a a' ⟨ha, hplaces⟩ => ⟨w.grow k, hle, ha, ?_, ⟨rfl, ?_, rfl⟩, rfl⟩
    · exact hm.later hle { hm.current.mono hle with frames := hplaces }
    · exact grows_onBinding _ _ _

theorem assign {v v' : Value} (target : Target) (hroot : A target.root)
    (hv : v.Agrees bound w.joined v') :
    RunAlike c bound A w (Eval.assign target v) (Eval.assign target v') Same := by
  unfold Eval.assign
  refine bindLimits ?_
  refine onPlace hc hD target hroot fun w₁ hw₁ u u' _ => ?_
  have hv := hv.mono hw₁.joined
  split
  · exact .ok ⟨rfl, hv⟩
  · rcases Value.checkHeights_eq c.limits.valueDepth target.keys.length [v] with h | h <;> rw [h]
    · rcases Value.checkHeights_eq c.limits.valueDepth target.keys.length [v'] with h' | h' <;>
        rw [h']
      · exact .ok ⟨rfl, hv⟩
      · exact .deep' _
    · exact .deep _

theorem changeInPlace {args args' : List Value} {target target' : Eval Target}
    (op : Method.InPlace) (hargs : List.Forall₂ (Value.Agrees bound w.joined) args args')
    (htarget : ∀ w : Twinning base,
      RunAlike c bound A w target target' fun _ t t' => A t.root ∧ t' = t) :
    RunAlike c bound A w (Eval.changeInPlace op args target)
      (Eval.changeInPlace op args' target') (Agree bound) := by
  unfold Eval.changeInPlace
  rw [hargs.length_eq]
  refine seq (charge _) fun w₁ _ hw₁ => bindLimits ?_
  refine bind (htarget w₁) ?_
  rintro w₂ _ t hw₂ ⟨hroot, rfl⟩
  refine bind fresh fun w₃ id id' hw₃ hid => ?_
  refine onPlace hc hD t hroot fun w₄ hw₄ v v' hv => ?_
  have hle := ((hw₁.trans hw₂).trans hw₃).trans hw₄
  have hargs := hargs.imp fun _ _ h => h.mono hle.joined
  rcases Value.checkHeights_eq c.limits.valueDepth (t.keys.length + 1) args with h | h <;> rw [h]
  · rcases Value.checkHeights_eq c.limits.valueDepth (t.keys.length + 1) args' with h' | h' <;>
      rw [h']
    · exact op.onSlot_alike (w₄.resemblance bound) hargs (.agrees (hw₄.joined _ _ hid)) _ v v' hv
    · exact .deep' _
  · exact .deep _

end Scope

/-! ### Functions, and what is changed -/

/-- A function takes values with it that agree on the names that it mentions. -/
theorem newClosure {f f' : FunctionDef} (hf : f.Rearranged f') (hnames : ∀ x ∈ f.names, A x) :
    RunAlike c bound A w (Eval.newClosure f) (Eval.newClosure f') (Agree bound) := by
  intro m m' hm hbinds
  have hcaptured : ∀ x ∈ f.names, Option.Rel (Value.Agrees bound w.joined)
      ((Eval.snapshot m.current).lookup x) ((Eval.snapshot m'.current).lookup x) := by
    intro x hx
    rw [Eval.lookup_snapshot, Eval.lookup_snapshot]
    exact hm.current.local? (hnames x hx)
  have hfinds : ∀ x ∈ f.names, bound x → f.Finds (Eval.snapshot m.current) x := by
    intro x hx hbound
    refine .inl ?_
    rw [Eval.lookup_snapshot]
    exact hbinds x (hnames x hx) hbound
  have hsame := hm.current.same
  rw [Eval.outcome_newClosure, Eval.outcome_newClosure, hsame, hm.next, hm.next']
  generalize (Eval.snapshot m.current).map (·.2) = vs
  generalize (Eval.snapshot m'.current).map (·.2) = vs'
  rcases Value.checkHeights_eq c.limits.valueDepth 1 vs with h | h <;> rw [h]
  · rcases Value.checkHeights_eq c.limits.valueDepth 1 vs' with h' | h' <;> rw [h']
    · have hle := w.le_grow 1
      refine .ok ⟨w.grow 1, hle, ?_, .of (hm.later hle (hm.current.mono hle)) rfl rfl rfl⟩
      exact .ofClosure (w.joined_grow (i := 0) Nat.one_pos) hf hfinds
        (fun x hx => rel_imp (fun _ _ hv => hv.mono hle.joined) (hcaptured x hx))
        (hm.current.siblings.mono hle.joined)
    · exact .deep' _
  · exact .deep _

theorem declare {v v' : Value} (name : String) (constant : Bool)
    (hv : v.Agrees bound w.joined v') :
    RunAlike c bound A w (Eval.declare name v constant) (Eval.declare name v' constant) Same := by
  intro m m' hm _
  have hframes := hm.current.frames
  have hgrows := Frame.grows_onInnermost name ⟨v, constant⟩ m.current.frames
  refine .ok ⟨w, .refl w, rfl, { hm with current := { hm.current with frames := ?_ } },
    ⟨rfl, hgrows, rfl⟩, rfl⟩
  show List.Forall₂ _ (Eval.onInnermost (Json.insertMember name ⟨v, constant⟩) m.current.frames)
    (Eval.onInnermost (Json.insertMember name ⟨v', constant⟩) m'.current.frames)
  generalize m.current.frames = frames at hframes
  generalize m'.current.frames = frames' at hframes
  cases hframes with
  | nil => exact .nil
  | cons hframe houter => exact .cons (hframe.insertMember name ⟨rfl, hv⟩) houter

theorem complete {v v' : Value} (hv : v.Agrees bound w.joined v') :
    RunAlike c bound A w (Eval.complete v) (Eval.complete v') Same := by
  intro m m' hm _
  simp only [Eval.complete, Eval.outcome_modify, hm.waiting]
  split
  · exact .ok ⟨w, .refl w, rfl, .of { hm with completion := hv } rfl rfl rfl⟩
  · exact .ok ⟨w, .refl w, rfl, .refl hm⟩

theorem takeCompletion :
    RunAlike c bound A w Eval.takeCompletion Eval.takeCompletion (Agree bound) := fun _ _ hm _ =>
  .ok ⟨w, .refl w, hm.completion, .of { hm with completion := .plain rfl } rfl rfl rfl⟩

theorem noteExport (s s' : Stmt) :
    RunAlike c bound A w (Eval.noteExport s) (Eval.noteExport s') Same := fun _ _ hm _ =>
  .ok ⟨w, .refl w, rfl, .of { hm with } rfl rfl rfl⟩

theorem setDefault (v v' : Value) :
    RunAlike c bound A w (Eval.setDefault v) (Eval.setDefault v') Same := fun _ _ hm _ =>
  .ok ⟨w, .refl w, rfl, .of { hm with } rfl rfl rfl⟩

/-! ### Blocks, loops and calls -/

theorem withFrame {α : Type} {Q : Twinning base → α → α → Prop} {x x' : Eval α}
    (h : RunAlike c bound A w x x' Q) :
    RunAlike c bound A w (Eval.withFrame x) (Eval.withFrame x') Q := by
  intro m m' hm hbinds
  have hopen : m.openFrame.Agrees bound A w m'.openFrame :=
    { hm with current := { hm.current with frames := .cons (fun _ => .none) hm.current.frames } }
  have hrun := h m.openFrame m'.openFrame hopen hbinds
  rw [Eval.withFrame, Eval.withFrame, Eval.outcome_between, Eval.outcome_between]
  refine hrun.imp fun _ _ hleft => ?_
  obtain ⟨w', hw, ha, hagrees, hgrows, hcallers⟩ := hleft
  refine ⟨w', hw, ha, ?_, ?_, hcallers⟩
  · refine { hagrees with current := { hagrees.current with frames := ?_ } }
    have hframes := hagrees.current.frames
    show List.Forall₂ _ (x.outcome c m.openFrame).2.current.frames.tail
      (x'.outcome c m'.openFrame).2.current.frames.tail
    generalize (x.outcome c m.openFrame).2.current.frames = frames at hframes
    generalize (x'.outcome c m'.openFrame).2.current.frames = frames' at hframes
    cases hframes with
    | nil => exact .nil
    | cons _ houter => exact houter
  · refine ⟨hgrows.callers, ?_, hgrows.captured⟩
    have hframes : List.Forall₂ Frame.Grows ([] :: m.current.frames) _ := hgrows.frames
    show List.Forall₂ _ _ (x.outcome c m.openFrame).2.current.frames.tail
    generalize (x.outcome c m.openFrame).2.current.frames = frames at hframes
    cases hframes with
    | cons _ houter => exact houter

theorem repeatTurns {go go' : Eval Bool} {turn turn' : Eval (Option Flow)}
    {R : Twinning base → Flow → Flow → Prop}
    (hnormal : ∀ w : Twinning base, R w .normal .normal)
    (hgo : ∀ w : Twinning base, RunAlike c bound A w go go' Same)
    (hturn : ∀ w : Twinning base, RunAlike c bound A w turn turn' fun w => Option.Rel (R w))
    (turns : Nat) :
    RunAlike c bound A w (Eval.repeatTurns go turn turns) (Eval.repeatTurns go' turn' turns) R := by
  induction turns generalizing w with
  | zero =>
    have hread : RunAlike c bound A w (MonadReader.read : Eval Context) MonadReader.read Same :=
      reads fun _ _ _ _ => ⟨_, _, rfl, rfl, rfl⟩
    exact seq hread fun _ _ _ => fail _ rfl
  | succ turns ih =>
    unfold Eval.repeatTurns
    refine seq (hgo w) fun w₁ goes _ => ?_
    split
    · unfold Eval.oneTurn
      refine seq tick fun w₂ _ _ => bind (hturn w₂) ?_
      rintro w₃ _ _ - (hflow | _)
      · exact result hflow
      · exact ih
    · exact result (hnormal w₁)

theorem loop {go go' : Eval Bool} {turn turn' : Eval (Option Flow)}
    {R : Twinning base → Flow → Flow → Prop}
    (hnormal : ∀ w : Twinning base, R w .normal .normal)
    (hgo : ∀ w : Twinning base, RunAlike c bound A w go go' Same)
    (hturn : ∀ w : Twinning base, RunAlike c bound A w turn turn' fun w => Option.Rel (R w)) :
    RunAlike c bound A w (Eval.loop go turn) (Eval.loop go' turn') R := by
  intro m m' hm hbinds
  rw [Eval.outcome_loop, Eval.outcome_loop]
  exact repeatTurns hnormal hgo hturn _ m m' hm hbinds

/-- What a function of the host answers with is taken as it is. -/
theorem runHost {D : FunctionDef → Prop} (hc : c.IsUniform base D)
    (hD : ∀ f, D f → ∀ x ∈ f.names, ¬ bound x) {args args' : List Value} (name : String)
    (hargs : List.Forall₂ (Value.Agrees bound w.joined) args args') :
    RunAlike c bound A w (Native.runHost name args) (Native.runHost name args') (Agree bound) := by
  intro m m' hm _
  rw [Eval.outcome_runHost, Eval.outcome_runHost]
  rcases hc.natives _ (w.resemblance bound) (Value.Agrees.covers w.older hD) name args args' hargs
    with ⟨v, v', h, h', hv⟩ | ⟨message, h, h'⟩ <;> rw [h, h']
  · exact .ok ⟨w, .refl w, hv, .of { hm with } rfl rfl rfl⟩
  · exact .ofError rfl

/-- The activations in which functions that agree are run agree on what the functions mention. -/
theorem activationOf {id id' : Identity} {f f' : FunctionDef}
    {captured captured' : List (String × Value)} {siblings siblings' : Siblings}
    (h : (Value.closure id f captured siblings).Agrees bound w.joined
      (.closure id' f' captured' siblings')) {args args' : List Value}
    (hargs : List.Forall₂ (Value.Agrees bound w.joined) args args') :
    (Eval.activationOf (.closure id f captured siblings) f captured siblings args).Agrees bound
      (· ∈ f.names) w (Eval.activationOf (.closure id' f' captured' siblings') f' captured' siblings'
        args') := by
  obtain ⟨-, hf, -, hcaptured, hsame, hsiblings⟩ := h.closures
  have hparams : ∀ (params : List (String × Nat)) (frame frame' : Frame),
      frame.Agrees bound w.joined frame' → Frame.Agrees bound w.joined
        (params.foldl (fun frame param =>
          Json.insertMember param.1 ⟨Value.argument args param.2, false⟩ frame) frame)
        (params.foldl (fun frame param =>
          Json.insertMember param.1 ⟨Value.argument args' param.2, false⟩ frame) frame') := by
    intro params
    induction params with
    | nil => exact fun _ _ hframe => hframe
    | cons param params ih =>
      exact fun frame frame' hframe => ih _ _ (hframe.insertMember param.1
        ⟨rfl, (w.resemblance bound).argument hargs param.2⟩)
  unfold Eval.activationOf
  rw [hf.name, hf.params, hf.isArrow]
  refine ⟨.cons (hparams _ _ _ fun x => ?_) .nil, hcaptured, hsame, hsiblings⟩
  -- a function that has a name of its own finds itself under it
  rcases f.name with _ | name
  · exact .none
  · cases f.isArrow with
    | true => exact .none
    | false =>
      dsimp only
      rw [lookup_cons_ite, lookup_cons_ite]
      split
      · exact .some ⟨rfl, h⟩
      · exact .none

/-- A function finds the names that have to be bound in the activation in which it is run. -/
theorem isSome_activationOf {f : FunctionDef} {captured : List (String × Value)} {x : String}
    (h : f.Finds captured x) (self : Value) (siblings : Siblings) (args : List Value) :
    ((Eval.activationOf self f captured siblings args).local? x).isSome := by
  have hparams : ∀ (params : List (String × Nat)) (frame : Frame), (frame.lookup x).isSome →
      ((params.foldl (fun frame param =>
        Json.insertMember param.1 ⟨Value.argument args param.2, false⟩ frame) frame).lookup
          x).isSome := by
    intro params
    induction params with
    | nil => exact fun _ hx => hx
    | cons param params ih => exact fun frame hx => ih _ (Frame.grows_insertMember _ _ frame x hx)
  unfold Activation.local?
  rw [Option.isSome_or, Option.isSome_map, Bool.or_eq_true]
  rcases h with hx | ⟨hname, harrow⟩
  · exact .inr hx
  · refine .inl ?_
    unfold Eval.activationOf findBinding?
    rw [hname, harrow]
    dsimp only
    rw [List.findSome?_cons]
    have hown : (([(x, ⟨self, false⟩)] : Frame).lookup x).isSome := by
      rw [List.lookup_cons_self]
      rfl
    have hfound := hparams f.params.zipIdx _ hown
    split
    · rfl
    · rename_i hnone
      rw [hnone] at hfound
      cases hfound

theorem withActivation {id id' : Identity} {f f' : FunctionDef}
    {captured captured' : List (String × Value)} {siblings siblings' : Siblings}
    (hclosure : (Value.closure id f captured siblings).Agrees bound w.joined
      (.closure id' f' captured' siblings')) {args args' : List Value}
    (hargs : List.Forall₂ (Value.Agrees bound w.joined) args args') {α : Type}
    {Q : Twinning base → α → α → Prop} {x x' : Eval α}
    (h : RunAlike c bound (· ∈ f.names) w x x' Q) :
    RunAlike c bound A w
      (Eval.withActivation
        (Eval.activationOf (.closure id f captured siblings) f captured siblings args) x)
      (Eval.withActivation
        (Eval.activationOf (.closure id' f' captured' siblings') f' captured' siblings' args') x')
      Q := by
  intro m m' hm _
  have hactivation := activationOf hclosure hargs
  have hbinds : ∀ y, y ∈ f.names → bound y → ((Eval.activationOf (.closure id f captured siblings)
      f captured siblings args).local? y).isSome := fun y hy hbound =>
    isSome_activationOf (hclosure.closures.finds y hy hbound) _ siblings args
  generalize Eval.activationOf (.closure id f captured siblings) f captured siblings args = a
    at hactivation hbinds ⊢
  generalize Eval.activationOf (.closure id' f' captured' siblings') f' captured' siblings' args' = a'
    at hactivation ⊢
  have hrun := h (m.enter a) (m'.enter a')
    { hm with current := hactivation, waiting := rfl } hbinds
  rw [Eval.withActivation, Eval.withActivation, Eval.outcome_between, Eval.outcome_between]
  refine hrun.imp fun _ _ hleft => ?_
  obtain ⟨w', hw, hb, hagrees, hgrows, hcallers⟩ := hleft
  refine ⟨w', hw, hb, ?_⟩
  rw [Machine.leave_eq hgrows.callers, Machine.leave_eq hcallers]
  exact .of { hagrees with current := hm.current.mono hw, waiting := hm.waiting } rfl rfl rfl

end RunAlike
end Stencil.Script
