import Stencil.Proofs.Script.Agreement.Places
import Stencil.Proofs.Script.MatchLogic

/-! # Machines that agree

Two runs side by side give out identities at the same pace, but not to the same values: which
identity of one belongs to which of the other is what a **twinning** says (`Twinning`), and it learns
while the runs go on.  Machines **agree** under a twinning if they do on what is counted and on the
activation that is run (`Machine.Agrees`); what functions took with them need only agree on given
names.

Steps **run alike** if on machines that agree they have answers that correspond and leave machines
that agree again (`RunAlike`).
-/
namespace Stencil.Script

/-! ## Which identities belong together -/

/-- Which identities of two runs belong together: older ones to themselves, others one to one. -/
structure Twinning (base : Identity) where
  /-- The first identity that neither side has given out. -/
  next : Identity
  joined : Identity → Identity → Prop
  base_le : base ≤ next
  older : ∀ id < base, joined id id
  lt : ∀ {a a'}, joined a a' → a < next ∧ a' < next
  unique : ∀ {a a' b b'}, joined a a' → joined b b' → (a' = b' ↔ a = b)

namespace Twinning
variable {base : Identity}

/-- The second twinning has learned more. -/
structure Le (w w' : Twinning base) : Prop where
  next : w.next ≤ w'.next
  joined : ∀ a a', w.joined a a' → w'.joined a a'

theorem Le.refl (w : Twinning base) : w.Le w :=
  ⟨Nat.le_refl _, fun _ _ h => h⟩

theorem Le.trans {w₁ w₂ w₃ : Twinning base} (h : w₁.Le w₂) (h' : w₂.Le w₃) : w₁.Le w₃ :=
  ⟨Nat.le_trans h.next h'.next, fun a a' ha => h'.joined a a' (h.joined a a' ha)⟩

/-- Both sides give out `n` identities; the second side gives that with the number `place i` to what
belongs to the one with the number `i`. -/
def shuffle (w : Twinning base) (n : Nat) (place : Equiv.Perm Nat) (h : ∀ i < n, place i < n) :
    Twinning base where
  next := w.next + n
  joined a a' := w.joined a a' ∨ ∃ i < n, a = w.next + i ∧ a' = w.next + place i
  base_le := Nat.le_trans w.base_le (Nat.le_add_right _ _)
  older id hid := .inl (w.older id hid)
  lt := by
    rintro a a' (ha | ⟨i, hi, rfl, rfl⟩)
    · obtain ⟨hlt, hlt'⟩ := w.lt ha
      exact ⟨Nat.lt_add_right n hlt, Nat.lt_add_right n hlt'⟩
    · exact ⟨Nat.add_lt_add_left hi _, Nat.add_lt_add_left (h i hi) _⟩
  unique := by
    rintro a a' b b' (ha | ⟨i, hi, rfl, rfl⟩) (hb | ⟨j, hj, rfl, rfl⟩)
    · exact w.unique ha hb
    · obtain ⟨hlt, hlt'⟩ := w.lt ha
      have hne : a ≠ w.next + j := fun he => Nat.not_le.mpr hlt (he ▸ Nat.le_add_right _ _)
      have hne' : a' ≠ w.next + place j := fun he =>
        Nat.not_le.mpr hlt' (he ▸ Nat.le_add_right _ _)
      exact iff_of_false hne' hne
    · obtain ⟨hlt, hlt'⟩ := w.lt hb
      have hne : w.next + i ≠ b := fun he => Nat.not_le.mpr hlt (he ▸ Nat.le_add_right _ _)
      have hne' : w.next + place i ≠ b' := fun he =>
        Nat.not_le.mpr hlt' (he ▸ Nat.le_add_right _ _)
      exact iff_of_false hne' hne
    · rw [Nat.add_left_cancel_iff, Nat.add_left_cancel_iff, place.injective.eq_iff]

/-- Both sides give out `n` identities to values that belong together. -/
def grow (w : Twinning base) (n : Nat) : Twinning base :=
  w.shuffle n (Equiv.refl Nat) fun _ hi => hi

theorem le_shuffle (w : Twinning base) {n : Nat} {place : Equiv.Perm Nat}
    (h : ∀ i < n, place i < n) : w.Le (w.shuffle n place h) :=
  ⟨Nat.le_add_right _ _, fun _ _ => .inl⟩

theorem le_grow (w : Twinning base) (n : Nat) : w.Le (w.grow n) :=
  w.le_shuffle _

/-- Scripts cannot tell apart what agrees under a twinning. -/
theorem resemblance (w : Twinning base) (bound : String → Prop) :
    Resemblance (Value.Agrees bound w.joined) :=
  Value.Agrees.resemblance fun _ _ _ _ => w.unique

theorem joined_grow (w : Twinning base) {n i : Nat} (hi : i < n) :
    (w.grow n).joined (w.next + i) (w.next + i) :=
  .inr ⟨i, hi, rfl, rfl⟩

end Twinning

/-! ## Activations and machines -/

section Agrees
variable (bound : String → Prop) {base : Identity} (A : String → Prop) (w : Twinning base)

/-- The activations have blocks that agree, and took values with them that agree on the given
names. -/
structure Activation.Agrees (a a' : Activation) : Prop where
  frames : List.Forall₂ (Frame.Agrees bound w.joined) a.frames a'.frames
  captured : ∀ x, A x → Option.Rel (Value.Agrees bound w.joined) (a.captured.lookup x)
    (a'.captured.lookup x)
  same : a'.siblings = a.siblings
  siblings : a.siblings.Agree bound w.joined

/-- The machines agree on what is counted, on the activation that is run, and on the completion
value. -/
structure Machine.Agrees (m m' : Machine) : Prop where
  current : m.current.Agrees bound A w m'.current
  waiting : m'.callers.isEmpty = m.callers.isEmpty
  ticks : m'.ticks = m.ticks
  allocated : m'.allocated = m.allocated
  seed : m'.seed = m.seed
  next : m.next = w.next
  next' : m'.next = w.next
  completion : m.completion.Agrees bound w.joined m'.completion

/-- The given names that have to be bound are. -/
def Machine.Binds (m : Machine) : Prop :=
  ∀ x, A x → bound x → (m.current.local? x).isSome

end Agrees

/-- A later machine in the same activation, which binds whatever the first one does. -/
structure Machine.Grows (m m' : Machine) : Prop where
  callers : m'.callers = m.callers
  frames : List.Forall₂ Frame.Grows m.current.frames m'.current.frames
  captured : m'.current.captured = m.current.captured

section
variable {bound : String → Prop} {base : Identity} {A : String → Prop} {w w' : Twinning base}
  {m m' m₁ m₁' : Machine}

theorem Activation.Agrees.mono {a a' : Activation} (h : a.Agrees bound A w a') (hw : w.Le w') :
    a.Agrees bound A w' a' where
  frames := h.frames.imp fun _ _ hframe => hframe.mono hw.joined
  captured x hx := rel_imp (fun _ _ hv => hv.mono hw.joined) (h.captured x hx)
  same := h.same
  siblings := h.siblings.mono hw.joined

/-- Later, in activations that agree then, the machines agree again. -/
theorem Machine.Agrees.later (h : m.Agrees bound A w m') (hw : w.Le w') {a a' : Activation}
    (ha : a.Agrees bound A w' a') : ({ m with current := a, next := w'.next } : Machine).Agrees bound
      A w' { m' with current := a', next := w'.next } where
  current := ha
  waiting := h.waiting
  ticks := h.ticks
  allocated := h.allocated
  seed := h.seed
  next := rfl
  next' := rfl
  completion := h.completion.mono hw.joined

/-- The value that a name has locally is there on both sides, or on neither. -/
theorem Activation.Agrees.local? {a a' : Activation} (h : a.Agrees bound A w a') {x : String}
    (hx : A x) : Option.Rel (Value.Agrees bound w.joined) (a.local? x) (a'.local? x) := by
  have hfound := findBinding?_agrees h.frames x
  have hcaptured := h.captured x hx
  unfold Activation.local?
  generalize findBinding? x a.frames = o at hfound
  generalize findBinding? x a'.frames = o' at hfound
  cases hfound with
  | none => simpa using hcaptured
  | some hb => exact .some hb.2

theorem Machine.Grows.refl (m : Machine) : m.Grows m :=
  ⟨rfl, List.forall₂_same.mpr fun _ _ _ => id, rfl⟩

theorem Frame.Grows.forall₂_trans {frames frames' frames'' : List Frame}
    (h : List.Forall₂ Frame.Grows frames frames') (h' : List.Forall₂ Frame.Grows frames' frames'') :
    List.Forall₂ Frame.Grows frames frames'' := by
  induction h generalizing frames'' with
  | nil => exact h'
  | cons hframe _ ih =>
    obtain _ | ⟨hframe', hrest'⟩ := h'
    exact .cons (fun x hx => hframe' x (hframe x hx)) (ih hrest')

theorem Machine.Grows.trans {m'' : Machine} (h : m.Grows m') (h' : m'.Grows m'') : m.Grows m'' :=
  ⟨h'.callers.trans h.callers, Frame.Grows.forall₂_trans h.frames h'.frames,
    h'.captured.trans h.captured⟩

theorem Machine.Grows.binds (h : m.Grows m') (hm : m.Binds bound A) : m'.Binds bound A := by
  intro x hx hbound
  have hlocal := hm x hx hbound
  unfold Activation.local? at hlocal ⊢
  rw [Option.isSome_or, Option.isSome_map, Bool.or_eq_true] at hlocal ⊢
  rw [h.captured]
  exact hlocal.imp (isSome_findBinding?_of_grows h.frames) id

/-! ## Steps that run alike -/

/-- What steps leave: machines that agree, in the same activations. -/
structure Left (bound : String → Prop) (A : String → Prop) (w : Twinning base)
    (m m' m₁ m₁' : Machine) : Prop where
  agrees : m₁.Agrees bound A w m₁'
  grows : m.Grows m₁
  callers : m₁'.callers = m'.callers

theorem Left.refl (h : m.Agrees bound A w m') : Left bound A w m m' m m' :=
  ⟨h, .refl m, rfl⟩

/-- A step that leaves the activations as they are. -/
theorem Left.of (h : m₁.Agrees bound A w m₁') (hcurrent : m₁.current = m.current)
    (hcallers : m₁.callers = m.callers) (hcallers' : m₁'.callers = m'.callers) :
    Left bound A w m m' m₁ m₁' :=
  ⟨h, ⟨hcallers, hcurrent ▸ (Machine.Grows.refl m).frames, congrArg Activation.captured hcurrent⟩,
    hcallers'⟩

theorem Left.trans {m₂ m₂' : Machine} (h : Left bound A w m m' m₁ m₁')
    (h' : Left bound A w' m₁ m₁' m₂ m₂') : Left bound A w' m m' m₂ m₂' :=
  ⟨h'.agrees, h.grows.trans h'.grows, h'.callers.trans h.callers⟩

end

/-- On machines that agree the steps have answers that correspond and leave machines that agree. -/
def RunAlike (c : Context) (bound : String → Prop) {base : Identity} {α : Type} (A : String → Prop)
    (w : Twinning base) (x x' : Eval α) (Q : Twinning base → α → α → Prop) : Prop :=
  ∀ m m' : Machine, m.Agrees bound A w m' → m.Binds bound A →
    Corresponds c.limits.valueDepth bound
      (fun a a' => ∃ w', w.Le w' ∧ Q w' a a' ∧
        Left bound A w' m m' (x.outcome c m).2 (x'.outcome c m').2)
      (x.outcome c m).1 (x'.outcome c m').1

namespace RunAlike
variable {c : Context} {bound : String → Prop} {base : Identity} {α β : Type} {A : String → Prop}
  {w : Twinning base} {P Q : Twinning base → α → α → Prop} {x x' : Eval α}

/-- The answers are the same. -/
def Same (_ : Twinning base) (a a' : α) : Prop :=
  a' = a

/-! ### Composition -/

theorem result {a a' : α} (h : Q w a a') : RunAlike c bound A w (pure a) (pure a') Q :=
  fun _ _ hm _ => .ok ⟨w, .refl w, h, .refl hm⟩

theorem fail (e : ScriptError) (h : e.isUnbound = false) :
    RunAlike c bound A w (throw e) (throw e) Q :=
  fun _ _ _ _ => .ofError h

theorem bind {R : Twinning base → β → β → Prop} {f f' : α → Eval β}
    (hx : RunAlike c bound A w x x' P)
    (hf : ∀ w' a a', w.Le w' → P w' a a' → RunAlike c bound A w' (f a) (f' a') R) :
    RunAlike c bound A w (x >>= f) (x' >>= f') R := by
  intro m m' hm hbinds
  have hfirst := hx m m' hm hbinds
  rw [Eval.outcome_bind, Eval.outcome_bind]
  generalize x.outcome c m = run at hfirst ⊢
  generalize x'.outcome c m' = run' at hfirst ⊢
  obtain ⟨r, m₁⟩ := run
  obtain ⟨r', m₁'⟩ := run'
  dsimp only at hfirst ⊢
  cases hfirst with
  | ok h =>
    obtain ⟨w', hw, ha, hleft⟩ := h
    refine (hf w' _ _ hw ha m₁ m₁' hleft.agrees (hleft.grows.binds hbinds)).imp ?_
    rintro b b' ⟨w'', hw', hb, hleft'⟩
    exact ⟨w'', hw.trans hw', hb, hleft.trans hleft'⟩
  | error e h => exact .error e h
  | deep => exact .deep _
  | deep' => exact .deep' _

theorem weaken (h : RunAlike c bound A w x x' P)
    (hPQ : ∀ w' a a', w.Le w' → P w' a a' → Q w' a a') : RunAlike c bound A w x x' Q :=
  fun m m' hm hbinds => (h m m' hm hbinds).imp fun a a' ⟨w', hw, ha, hleft⟩ =>
    ⟨w', hw, hPQ w' a a' hw ha, hleft⟩

/-- A sequence whose first step gives the same on both sides. -/
theorem seq {R : Twinning base → β → β → Prop} {f f' : α → Eval β}
    (hx : RunAlike c bound A w x x' Same)
    (hf : ∀ w' a, w.Le w' → RunAlike c bound A w' (f a) (f' a) R) :
    RunAlike c bound A w (x >>= f) (x' >>= f') R :=
  bind hx fun w' a _ hw ha => ha ▸ hf w' a hw

/-- A step that reads the same on machines that agree, and changes nothing. -/
theorem reads (h : ∀ m m' : Machine, m.Agrees bound A w m' → m.Binds bound A →
    ∃ a a', x.outcome c m = (.ok a, m) ∧ x'.outcome c m' = (.ok a', m') ∧ Q w a a') :
    RunAlike c bound A w x x' Q := by
  intro m m' hm hbinds
  obtain ⟨a, a', hrun, hrun', ha⟩ := h m m' hm hbinds
  rw [hrun, hrun']
  exact .ok ⟨w, .refl w, ha, .refl hm⟩

/-- A step that changes the counters of both machines alike. -/
theorem counts {f : Machine → Machine} {r : Machine → Except ScriptError α}
    (hx : ∀ m, x.outcome c m = (r m, f m)) (hx' : ∀ m, x'.outcome c m = (r m, f m))
    (hf : ∀ m m' : Machine, m.Agrees bound A w m' → Left bound A w m m' (f m) (f m'))
    (hr : ∀ m m' : Machine, m.Agrees bound A w m' → Answers (Q w) (r m) (r m')) :
    RunAlike c bound A w x x' Q := by
  intro m m' hm _
  have hleft := hf m m' hm
  have hanswer := hr m m' hm
  rw [hx, hx']
  dsimp only
  generalize r m = s at hanswer ⊢
  generalize r m' = s' at hanswer ⊢
  cases hanswer with
  | ok h => exact .ok ⟨w, .refl w, h, hleft⟩
  | error e h => exact .ofError h

end RunAlike
end Stencil.Script
