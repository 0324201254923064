import Stencil.Proofs.Script.Activations
import Stencil.Proofs.Script.Height

/-! # Ledgers of heights

A **ledger** notes the heights of containers under their identities, and a bound.  A value fits a
ledger if everything that occurs in it is noted there and no taller than the bound
(`Ledger.Fits`); a machine fits it if all its values do, if no identity that is still to be given
out is noted, and if the bound is the greatest among the limit of the evaluation, the bound at the
start and the heights of the values that came whole from outside since (`Machine.Fits`).

Evaluations write ledgers on: what has been noted stays (`Ledger.Le`), new containers are added
under new identities (`Ledger.note`), and values from outside raise the bound (`Ledger.raise`).
-/
namespace Stencil.Script

/-- The heights of containers by their identities, among them those of the global objects, and a
bound. -/
structure Ledger where
  heightOf : Identity → Option Nat
  bound : Nat
  globals : ∀ id < Globals.firstIdentity, heightOf id = some 1
  positive : 1 ≤ bound

namespace Ledger

/-- What the first ledger notes is noted in the second one, and the bound is as high. -/
structure Le (w w' : Ledger) : Prop where
  noted : ∀ id n, w.heightOf id = some n → w'.heightOf id = some n
  bound : w.bound ≤ w'.bound

/-- Everything that occurs in the value is noted and within the bound. -/
structure Fits (w : Ledger) (v : Value) : Prop where
  known : v.Known w.heightOf
  bounded : v.Bounded w.bound

/-- What a name of a module stands for fits. -/
structure FitsBinding (w : Ledger) (b : ModuleBinding) : Prop where
  known : b.Known w.heightOf
  bounded : b.Bounded w.bound

/-- Raises the bound. -/
def raise (w : Ledger) (n : Nat) : Ledger :=
  { w with bound := max w.bound n, positive := Nat.le_trans w.positive (Nat.le_max_left _ _) }

/-- Notes a height under an identity that is not noted yet. -/
def note (w : Ledger) (id : Identity) (n : Nat) (hid : w.heightOf id = none) : Ledger :=
  { w with
    heightOf := fun k => if k = id then some n else w.heightOf k
    globals := fun k hk => by
      rw [if_neg, w.globals k hk]
      rintro rfl
      exact nomatch hid.symm.trans (w.globals _ hk) }

/-- The value fits as soon as the bound is raised to its height. -/
def Takes (w : Ledger) (v : Value) : Prop :=
  (w.raise v.height).Fits v

section
variable {w w' w'' : Ledger} {v : Value}

theorem Le.refl (w : Ledger) : w.Le w :=
  ⟨fun _ _ h => h, Nat.le_refl _⟩

theorem Le.trans (h : w.Le w') (h' : w'.Le w'') : w.Le w'' :=
  ⟨fun id n hn => h'.noted id n (h.noted id n hn), Nat.le_trans h.bound h'.bound⟩

theorem le_raise (w : Ledger) (n : Nat) : w.Le (w.raise n) :=
  ⟨fun _ _ h => h, Nat.le_max_left _ _⟩

theorem le_note {id : Identity} {n : Nat} {hid : w.heightOf id = none} : w.Le (w.note id n hid) :=
  { bound := Nat.le_refl _
    noted := fun k m h => by
      dsimp only [note]
      rw [if_neg, h]
      rintro rfl
      exact nomatch hid.symm.trans h }

@[simp]
theorem heightOf_note_self {id : Identity} {n : Nat} {hid : w.heightOf id = none} :
    (w.note id n hid).heightOf id = some n :=
  if_pos rfl

theorem heightOf_note_of_ne {id k : Identity} {n : Nat} {hid : w.heightOf id = none}
    (h : k ≠ id) : (w.note id n hid).heightOf k = w.heightOf k :=
  if_neg h

theorem Fits.mono (h : w.Fits v) (hle : w.Le w') : w'.Fits v :=
  ⟨h.known.mono hle.noted, h.bounded.mono hle.bound⟩

theorem FitsBinding.mono {b : ModuleBinding} (h : w.FitsBinding b) (hle : w.Le w') :
    w'.FitsBinding b := by
  cases b with
  | constant v =>
    have hv : w.Fits v := ⟨h.known, h.bounded⟩
    exact ⟨(hv.mono hle).known, (hv.mono hle).bounded⟩
  | function f captured =>
    exact ⟨fun p hp => (h.known p hp).mono hle.noted,
      Nat.le_trans h.bounded.1 hle.bound, fun p hp => (h.bounded.2 p hp).mono hle.bound⟩

theorem Fits.height_le (h : w.Fits v) : v.height ≤ w.bound :=
  h.bounded.height_le

theorem Fits.takes (h : w.Fits v) : w.Takes v :=
  h.mono (le_raise w _)

theorem Takes.fits (h : w.Takes v) (hheight : v.height ≤ w.bound) : w.Fits v :=
  ⟨h.known, h.bounded.mono (Nat.max_le.mpr ⟨Nat.le_refl _, hheight⟩)⟩

theorem Takes.mono (h : w.Takes v) (hle : w.Le w') : w'.Takes v :=
  Fits.mono h ⟨hle.noted, by
    have hbound := hle.bound
    simp only [raise]
    omega⟩

theorem fits_of_identity? (h : v.identity? = none) : w.Fits v :=
  ⟨Value.known_of_identity? h, Value.bounded_of_identity? h⟩

theorem fits_plain (h : v.isPlain) : w.Fits v :=
  fits_of_identity? (by cases v <;> first | rfl | cases h)

end

/-! ## Containers -/

end Ledger

/-- The value is an array or an object with this identity and this content. -/
def Value.IsContainer (id : Identity) (content : List Value) : Value → Prop
  | .array k items => k = id ∧ items.toList = content
  | .object k members => k = id ∧ members.map (·.2) = content
  | _ => False

theorem Value.IsContainer.height {id : Identity} {content : List Value} {v : Value}
    (h : v.IsContainer id content) : v.height = itemsHeight content + 1 := by
  cases v with
  | array k items => rw [height_array, h.2]
  | object k members => rw [height_object, membersHeight_eq, h.2]
  | _ => exact h.elim

namespace Ledger
variable {w w' : Ledger} {v : Value}

theorem fits_container {id : Identity} {content : List Value} (h : v.IsContainer id content) :
    w.Fits v ↔ w.heightOf id = some v.height ∧ v.height ≤ w.bound ∧ ∀ u ∈ content, w.Fits u := by
  cases v with
  | array k items =>
    obtain ⟨rfl, rfl⟩ := h
    constructor
    · intro hv
      obtain ⟨hid, hknown⟩ := Value.known_array.mp hv.known
      obtain ⟨hheight, hbounded⟩ := Value.bounded_array.mp hv.bounded
      refine ⟨hid, hheight, fun u hu => ?_⟩
      exact ⟨hknown u (Array.mem_toList_iff.mp hu), hbounded u (Array.mem_toList_iff.mp hu)⟩
    · rintro ⟨hid, hheight, hitems⟩
      exact ⟨Value.known_array.mpr
          ⟨hid, fun u hu => (hitems u (Array.mem_toList_iff.mpr hu)).known⟩,
        Value.bounded_array.mpr
          ⟨hheight, fun u hu => (hitems u (Array.mem_toList_iff.mpr hu)).bounded⟩⟩
  | object k members =>
    obtain ⟨rfl, rfl⟩ := h
    rw [List.forall_mem_map]
    constructor
    · intro hv
      obtain ⟨hid, hknown⟩ := Value.known_object.mp hv.known
      obtain ⟨hheight, hbounded⟩ := Value.bounded_object.mp hv.bounded
      exact ⟨hid, hheight, fun p hp => ⟨hknown p hp, hbounded p hp⟩⟩
    · rintro ⟨hid, hheight, hmembers⟩
      exact ⟨Value.known_object.mpr ⟨hid, fun p hp => (hmembers p hp).known⟩,
        Value.bounded_object.mpr ⟨hheight, fun p hp => (hmembers p hp).bounded⟩⟩
  | _ => exact h.elim

theorem fits_array {id : Identity} {items : Array Value} :
    w.Fits (.array id items) ↔ w.heightOf id = some (Value.array id items).height ∧
      (Value.array id items).height ≤ w.bound ∧ ∀ v ∈ items, w.Fits v := by
  have hcontainer : (Value.array id items).IsContainer id items.toList := ⟨rfl, rfl⟩
  rw [fits_container hcontainer]
  simp only [Array.mem_toList_iff]

theorem fits_object {id : Identity} {members : List (String × Value)} :
    w.Fits (.object id members) ↔ w.heightOf id = some (Value.object id members).height ∧
      (Value.object id members).height ≤ w.bound ∧ ∀ p ∈ members, w.Fits p.2 := by
  have hcontainer : (Value.object id members).IsContainer id (members.map (·.2)) := ⟨rfl, rfl⟩
  rw [fits_container hcontainer, List.forall_mem_map]

theorem fits_closure {id : Identity} {f : FunctionDef} {captured : List (String × Value)}
    {siblings : Siblings} :
    w.Fits (.closure id f captured siblings) ↔
      (w.heightOf id = some (Value.membersHeight captured + 1) ∧
        Value.membersHeight captured + 1 ≤ w.bound) ∧
      (∀ p ∈ captured, w.Fits p.2) ∧ ∀ p ∈ siblings, w.FitsBinding p.2 := by
  constructor
  · intro h
    obtain ⟨hid, hcaptured, hsiblings⟩ := Value.known_closure.mp h.known
    obtain ⟨hheight, hcaptured', hsiblings'⟩ := Value.bounded_closure.mp h.bounded
    exact ⟨⟨hid, hheight⟩, fun p hp => ⟨hcaptured p hp, hcaptured' p hp⟩,
      fun p hp => ⟨hsiblings p hp, hsiblings' p hp⟩⟩
  · rintro ⟨⟨hid, hheight⟩, hcaptured, hsiblings⟩
    exact ⟨Value.known_closure.mpr
        ⟨hid, fun p hp => (hcaptured p hp).known, fun p hp => (hsiblings p hp).known⟩,
      Value.bounded_closure.mpr
        ⟨hheight, fun p hp => (hcaptured p hp).bounded, fun p hp => (hsiblings p hp).bounded⟩⟩

/-- A global object, which holds neither containers nor functions of scripts. -/
theorem fits_global {id : Identity} (hid : id < Globals.firstIdentity)
    {members : List (String × Value)} (h : ∀ p ∈ members, p.2.identity? = none) :
    w.Fits (.object id members) := by
  have hmembers : Value.membersHeight members = 0 := by
    refine Nat.le_zero.mp (Value.membersHeight_le.mpr fun p hp => ?_)
    exact Nat.le_of_eq (Value.height_of_identity?_eq_none (h p hp))
  refine fits_object.mpr ⟨?_, ?_, fun p hp => fits_of_identity? (h p hp)⟩
  · rw [Value.height_object, hmembers, w.globals id hid]
  · rw [Value.height_object, hmembers]
    exact w.positive

theorem takes_container {id : Identity} {content : List Value} (h : v.IsContainer id content)
    (hid : w.heightOf id = some v.height) (hcontent : ∀ u ∈ content, w.Takes u) : w.Takes v := by
  refine (fits_container h).mpr ⟨hid, Nat.le_max_right _ _, fun u hu => ?_⟩
  refine Fits.mono (hcontent u hu) ⟨fun _ _ h => h, ?_⟩
  have hheight : u.height ≤ v.height := by
    rw [h.height]
    exact Nat.le_succ_of_le (Value.itemsHeight_le.mp (Nat.le_refl _) u hu)
  simp only [raise]
  omega

/-! ## Writing ledgers on -/

/-- The second ledger notes more under identities of a set, and has the same bound. -/
structure Writes (used : Identity → Prop) (w w' : Ledger) : Prop where
  le : w.Le w'
  bound : w'.bound = w.bound
  others : ∀ id, ¬ used id → w'.heightOf id = w.heightOf id

/-- The identities from `first` on, up to those from `after` on. -/
def Between (first after id : Identity) : Prop :=
  first ≤ id ∧ id < after

section Writes
variable {used used' : Identity → Prop} {w'' : Ledger}

theorem Writes.refl (w : Ledger) : Writes used w w :=
  ⟨.refl w, rfl, fun _ _ => rfl⟩

theorem Writes.trans (h : Writes used w w') (h' : Writes used w' w'') : Writes used w w'' :=
  ⟨h.le.trans h'.le, h'.bound.trans h.bound,
    fun id hid => (h'.others id hid).trans (h.others id hid)⟩

theorem Writes.weaken (h : Writes used w w') (hused : ∀ id, used id → used' id) :
    Writes used' w w' :=
  ⟨h.le, h.bound, fun id hid => h.others id fun hu => hid (hused id hu)⟩

theorem writes_note {id : Identity} {n : Nat} {hid : w.heightOf id = none} :
    Writes (· = id) w (w.note id n hid) :=
  ⟨le_note, rfl, fun _ hk => heightOf_note_of_ne hk⟩

/-- Identities that are neither noted nor used stay without a note. -/
theorem Writes.unused (h : Writes used w w') {id : Identity} (hid : w.heightOf id = none)
    (hused : ¬ used id) : w'.heightOf id = none :=
  (h.others id hused).trans hid

/-- Identities beyond those that were written stay without a note. -/
theorem Writes.free {first after : Identity} (h : Writes (Between first after) w w')
    (hle : first ≤ after) (hfree : ∀ id, first ≤ id → w.heightOf id = none) :
    ∀ id, after ≤ id → w'.heightOf id = none := fun id hid =>
  h.unused (hfree id (Nat.le_trans hle hid)) fun hbetween => Nat.not_le_of_lt hbetween.2 hid

theorem Writes.append {first after last : Identity} (h : Writes (Between first after) w w')
    (hle : first ≤ after) (hle' : after ≤ last) (h' : Writes (Between after last) w' w'') :
    Writes (Between first last) w w'' :=
  .trans (h.weaken fun _ hid => ⟨hid.1, Nat.lt_of_lt_of_le hid.2 hle'⟩)
    (h'.weaken fun _ hid => ⟨Nat.le_trans hle hid.1, hid.2⟩)

/-- A container with the identity in front of those that were written. -/
theorem takes_made {first after : Identity} (hfree : ∀ id, first ≤ id → w.heightOf id = none)
    (hle : first + 1 ≤ after) (h : Writes (Between (first + 1) after) w w')
    {v : Value} {content : List Value} (hv : v.IsContainer first content)
    (hcontent : ∀ u ∈ content, w'.Takes u) :
    first ≤ after ∧ ∃ w'', Writes (Between first after) w w'' ∧ w''.Takes v := by
  have hfirst : w'.heightOf first = none :=
    h.unused (hfree first (Nat.le_refl _)) fun hbetween => Nat.lt_irrefl _ hbetween.1
  refine ⟨Nat.le_of_succ_le hle, w'.note first v.height hfirst, ?_, ?_⟩
  · refine .trans (h.weaken fun _ hid => ⟨Nat.le_of_succ_le hid.1, hid.2⟩)
      (writes_note.weaken ?_)
    rintro _ rfl
    exact ⟨Nat.le_refl _, hle⟩
  · exact takes_container hv heightOf_note_self fun u hu => (hcontent u hu).mono le_note

end Writes

mutual

/-- **What JSON texts stand for** is made of new containers, so a ledger that has not noted their
identities can be written on by them. -/
theorem takes_ofJson (next : Identity) {w : Ledger}
    (hfree : ∀ id, next ≤ id → w.heightOf id = none) : ∀ j : Json, next ≤ (Value.ofJson next j).2 ∧
      ∃ w', Writes (Between next (Value.ofJson next j).2) w w' ∧ w'.Takes (Value.ofJson next j).1
  | .null => ⟨Nat.le_refl _, w, .refl w, (fits_of_identity? rfl).takes⟩
  | .bool _ => ⟨Nat.le_refl _, w, .refl w, (fits_of_identity? rfl).takes⟩
  | .number _ => ⟨Nat.le_refl _, w, .refl w, (fits_of_identity? rfl).takes⟩
  | .string _ => ⟨Nat.le_refl _, w, .refl w, (fits_of_identity? rfl).takes⟩
  | .array items => by
    obtain ⟨hle, w₁, hwrites, htakes⟩ := takes_ofJsonItems (next + 1)
      (fun id hid => hfree id (Nat.le_of_succ_le hid)) #[] (by simp) items
    unfold Value.ofJson
    exact takes_made hfree hle hwrites
      (v := .array next (Value.ofJsonItems (next + 1) #[] items).1) ⟨rfl, rfl⟩
      fun v hv => htakes v (Array.mem_toList_iff.mp hv)
  | .object members => by
    obtain ⟨hle, w₁, hwrites, htakes⟩ := takes_ofJsonMembers (next + 1)
      (fun id hid => hfree id (Nat.le_of_succ_le hid)) [] (by simp) members
    unfold Value.ofJson
    exact takes_made hfree hle hwrites
      (v := .object next (Value.ofJsonMembers (next + 1) [] members).1) ⟨rfl, rfl⟩
      (List.forall_mem_map.mpr htakes)

theorem takes_ofJsonItems (next : Identity) {w : Ledger}
    (hfree : ∀ id, next ≤ id → w.heightOf id = none) (done : Array Value)
    (hdone : ∀ v ∈ done, w.Takes v) : ∀ items : List Json,
      next ≤ (Value.ofJsonItems next done items).2 ∧
        ∃ w', Writes (Between next (Value.ofJsonItems next done items).2) w w' ∧
          ∀ v ∈ (Value.ofJsonItems next done items).1, w'.Takes v
  | [] => ⟨Nat.le_refl _, w, .refl w, hdone⟩
  | j :: rest => by
    obtain ⟨hle, w₁, hwrites, hv⟩ := takes_ofJson next hfree j
    unfold Value.ofJsonItems
    obtain ⟨hle', w₂, hwrites', hrest⟩ := takes_ofJsonItems (Value.ofJson next j).2
      (hwrites.free hle hfree) (done.push (Value.ofJson next j).1) (fun v hv' => by
        rcases Array.mem_push.mp hv' with hv' | rfl
        · exact (hdone v hv').mono hwrites.le
        · exact hv) rest
    exact ⟨Nat.le_trans hle hle', w₂, hwrites.append hle hle' hwrites', hrest⟩

theorem takes_ofJsonMembers (next : Identity) {w : Ledger}
    (hfree : ∀ id, next ≤ id → w.heightOf id = none) (done : List (String × Value))
    (hdone : ∀ p ∈ done, w.Takes p.2) : ∀ members : List (String × Json),
      next ≤ (Value.ofJsonMembers next done members).2 ∧
        ∃ w', Writes (Between next (Value.ofJsonMembers next done members).2) w w' ∧
          ∀ p ∈ (Value.ofJsonMembers next done members).1, w'.Takes p.2
  | [] => ⟨Nat.le_refl _, w, .refl w, fun p hp => hdone p (List.mem_reverse.mp hp)⟩
  | (key, j) :: rest => by
    obtain ⟨hle, w₁, hwrites, hv⟩ := takes_ofJson next hfree j
    unfold Value.ofJsonMembers
    obtain ⟨hle', w₂, hwrites', hrest⟩ := takes_ofJsonMembers (Value.ofJson next j).2
      (hwrites.free hle hfree) ((key, (Value.ofJson next j).1) :: done)
      (List.forall_mem_cons.mpr ⟨hv, fun p hp => (hdone p hp).mono hwrites.le⟩) rest
    exact ⟨Nat.le_trans hle hle', w₂, hwrites.append hle hle' hwrites', hrest⟩

end

/-! ## Global objects -/

theorem identity?_member (bs : List Builtin) :
    ∀ p ∈ bs.map Globals.member, p.2.identity? = none := by
  intro p hp
  obtain ⟨b, -, rfl⟩ := List.mem_map.mp hp
  rfl

theorem fits_math : w.Fits Globals.math := by
  refine fits_global (by decide) fun p hp => ?_
  rcases List.mem_append.mp hp with hp | hp
  · rcases List.mem_append.mp hp with hp | hp
    · simp only [Globals.mathConstants, List.mem_cons, List.not_mem_nil, or_false] at hp
      rcases hp with rfl | rfl | rfl | rfl | rfl <;> rfl
    · obtain ⟨f, -, rfl⟩ := List.mem_map.mp hp
      rfl
  · exact identity?_member _ p hp

theorem fits_modules : ∀ p ∈ Globals.modules, w.Fits p.2 := by
  simp only [Globals.modules, List.forall_mem_cons]
  exact ⟨fits_math, fits_global (by decide) (identity?_member _),
    fits_global (by decide) (identity?_member _), fits_global (by decide) (identity?_member _),
    List.forall_mem_nil _⟩

theorem fits_table : ∀ p ∈ Globals.table, w.Fits p.2 := by
  refine List.forall_mem_append.mpr
    ⟨?_, fun p hp => fits_of_identity? (identity?_member _ p hp)⟩
  simp only [List.forall_mem_cons]
  exact ⟨fits_math, fits_global (by decide) (identity?_member _),
    fits_global (by decide) (identity?_member _), fits_of_identity? rfl, fits_of_identity? rfl,
    fits_of_identity? rfl, fits_global (by decide) (identity?_member _),
    fits_global (by decide) (identity?_member _), List.forall_mem_nil _⟩

end Ledger

/-! ## Machines -/

/-- All values of an activation fit. -/
structure Activation.Fits (w : Ledger) (a : Activation) : Prop where
  frames : ∀ frame ∈ a.frames, ∀ p ∈ frame, w.Fits p.2.value
  captured : ∀ p ∈ a.captured, w.Fits p.2
  siblings : ∀ p ∈ a.siblings, w.FitsBinding p.2

/-- What an evaluation finds outside its machine: the values of the read-only names fit, and a
function of the host answers with a value of which everything is noted if everything in its
arguments is. -/
structure Context.Fits (start : Ledger) (c : Context) : Prop where
  helpers : ∀ p ∈ c.scope.helpers, start.Fits p.2
  vars : ∀ p ∈ c.scope.vars, start.Fits p.2
  capabilities : ∀ p ∈ c.scope.capabilities, start.Fits p.2
  natives : ∀ w, start.Le w → ∀ name args v, (∀ a ∈ args, w.Fits a) →
    c.host.natives name args = .ok v → w.Takes v

/-- All values of a machine fit, no identity that is still to be given out is noted, and the bound
is the greatest among the limit, the bound at the start and the heights of the values that came
whole from outside since. -/
structure Machine.Fits (c : Context) (start w : Ledger) (m : Machine) : Prop where
  later : start.Le w
  unused : ∀ id, m.next ≤ id → w.heightOf id = none
  bound : w.bound = max c.limits.valueDepth (max start.bound (Value.itemsHeight m.received))
  current : m.current.Fits w
  callers : ∀ a ∈ m.callers, a.Fits w
  completion : w.Fits m.completion
  defaultExport : ∀ v ∈ m.defaultExport, w.Fits v

section Machine
variable {c : Context} {start w w' : Ledger} {m m' : Machine}

theorem Activation.Fits.mono {a : Activation} (h : a.Fits w) (hle : w.Le w') : a.Fits w' where
  frames frame hframe p hp := (h.frames frame hframe p hp).mono hle
  captured p hp := (h.captured p hp).mono hle
  siblings p hp := (h.siblings p hp).mono hle

theorem Context.Fits.mono (h : c.Fits start) (hle : start.Le w) : c.Fits w where
  helpers p hp := (h.helpers p hp).mono hle
  vars p hp := (h.vars p hp).mono hle
  capabilities p hp := (h.capabilities p hp).mono hle
  natives w' hle' := h.natives w' (hle.trans hle')

theorem Machine.Fits.limit_le (h : m.Fits c start w) : c.limits.valueDepth ≤ w.bound := by
  rw [h.bound]
  exact Nat.le_max_left _ _

/-- The machine holds the same values, and the ledger may have been written on. -/
theorem Machine.Fits.grow (h : m.Fits c start w) (hle : w.Le w') (hbound : w'.bound = w.bound)
    (hsame : m.Same m') (hreceived : m'.received = m.received)
    (hunused : ∀ id, m'.next ≤ id → w'.heightOf id = none) : m'.Fits c start w' where
  later := h.later.trans hle
  unused := hunused
  bound := by rw [hbound, hreceived, h.bound]
  current := hsame.current ▸ h.current.mono hle
  callers := hsame.callers ▸ fun a ha => (h.callers a ha).mono hle
  completion := hsame.completion ▸ h.completion.mono hle
  defaultExport := hsame.defaultExport ▸ fun v hv => (h.defaultExport v hv).mono hle

/-- A value comes whole from outside. -/
theorem Machine.Fits.receive (h : m.Fits c start w) (hle : w.Le w') (hbound : w'.bound = w.bound)
    {v : Value} (hsame : m.Same m') (hreceived : m'.received = v :: m.received)
    (hunused : ∀ id, m'.next ≤ id → w'.heightOf id = none) :
    m'.Fits c start (w'.raise v.height) where
  later := h.later.trans (hle.trans (w'.le_raise _))
  unused := hunused
  bound := by
    have hm := h.bound
    simp only [Ledger.raise, hbound, hreceived, Value.itemsHeight]
    omega
  current := hsame.current ▸ h.current.mono (hle.trans (w'.le_raise _))
  callers := hsame.callers ▸ fun a ha => (h.callers a ha).mono (hle.trans (w'.le_raise _))
  completion := hsame.completion ▸ h.completion.mono (hle.trans (w'.le_raise _))
  defaultExport := hsame.defaultExport ▸ fun v hv =>
    (h.defaultExport v hv).mono (hle.trans (w'.le_raise _))

/-- What a binding in the frames holds fits. -/
theorem Activation.Fits.findBinding? {a : Activation} (h : a.Fits w) {name : String} {b : Binding}
    (hb : findBinding? name a.frames = some b) : w.Fits b.value := by
  obtain ⟨frame, hframe, hlookup⟩ := List.exists_of_findSome?_eq_some hb
  exact h.frames frame hframe (name, b) (mem_of_lookup hlookup)

end Machine

end Stencil.Script
