import Stencil.Proofs.Script.Renaming
import Stencil.Script.Run

/-! # Machines under a renaming

A **shift** renames identities so that those below a bound stay and those that are given out from it
on keep their order, one after the other (`IsShiftFrom`; in `IsShift` the bound lies behind the
global objects).  A machine is renamed by renaming its values and the next identity
(`Machine.rename`).  What steps read from a renamed machine, make of renamed values and leave in
renamed places is what they read, make and leave, renamed; so is what a module puts out.
-/
namespace Stencil.Script

/-- Identities of global objects stay, and identities given out one after the other stay one after
the other. -/
structure IsShift (ρ : Identity → Identity) : Prop where
  injective : Function.Injective ρ
  globals : ∀ id < Globals.firstIdentity, ρ id = id
  succ : ∀ id, Globals.firstIdentity ≤ id → ρ (id + 1) = ρ id + 1

/-- Identities below a bound stay, those of global objects among them, and identities given out one
after the other from the bound on stay one after the other. -/
structure IsShiftFrom (base : Identity) (ρ : Identity → Identity) : Prop where
  injective : Function.Injective ρ
  firstIdentity_le : Globals.firstIdentity ≤ base
  below : ∀ id < base, ρ id = id
  succ : ∀ id, base ≤ id → ρ (id + 1) = ρ id + 1

namespace IsShiftFrom
variable {base : Identity} {ρ : Identity → Identity}

theorem globals (h : IsShiftFrom base ρ) (id : Identity) (hid : id < Globals.firstIdentity) :
    ρ id = id :=
  h.below id (Nat.lt_of_lt_of_le hid h.firstIdentity_le)

theorem add (h : IsShiftFrom base ρ) {id : Identity} (hid : base ≤ id) (n : Nat) :
    ρ (id + n) = ρ id + n := by
  induction n with
  | zero => rfl
  | succ n ih => rw [← Nat.add_assoc, h.succ _ (Nat.le_trans hid (Nat.le_add_right _ _)), ih]; rfl

end IsShiftFrom

theorem IsShift.shiftsFrom {ρ : Identity → Identity} (h : IsShift ρ) :
    IsShiftFrom Globals.firstIdentity ρ :=
  ⟨h.injective, Nat.le_refl _, h.globals, h.succ⟩

/-- Moves the identities from a bound on by `k`. -/
def shiftFrom (base : Identity) (k : Nat) (id : Identity) : Identity :=
  if id < base then id else id + k

theorem shiftFrom_of_le {base : Identity} {k : Nat} {id : Identity} (h : base ≤ id) :
    shiftFrom base k id = id + k :=
  if_neg (Nat.not_lt_of_le h)

theorem isShiftFrom_shiftFrom {base : Identity} (hbase : Globals.firstIdentity ≤ base) (k : Nat) :
    IsShiftFrom base (shiftFrom base k) where
  injective := by
    have h : ∀ n i j : Nat,
        (if i < n then i else i + k) = (if j < n then j else j + k) → i = j := by
      intro n i j h
      split at h <;> split at h <;> omega
    exact h base
  firstIdentity_le := hbase
  below id hid := if_pos hid
  succ id hid := by
    rw [shiftFrom_of_le hid, shiftFrom_of_le (Nat.le_succ_of_le hid), Nat.add_right_comm]

/-- Moves the identities that are given out by `k`. -/
def shiftBy (k : Nat) (id : Identity) : Identity :=
  if id < Globals.firstIdentity then id else id + k

theorem shiftBy_of_le {k : Nat} {id : Identity} (h : Globals.firstIdentity ≤ id) :
    shiftBy k id = id + k :=
  if_neg (Nat.not_lt_of_le h)

theorem isShift_shiftBy (k : Nat) : IsShift (shiftBy k) :=
  have h := isShiftFrom_shiftFrom (Nat.le_refl Globals.firstIdentity) k
  ⟨h.injective, h.below, h.succ⟩

/-! ## Machines -/

section Rename
variable (ρ : Identity → Identity)

/-- A local name with its value renamed. -/
def Binding.rename (b : Binding) : Binding :=
  { b with value := b.value.rename ρ }

/-- An activation with its values renamed. -/
def Activation.rename (a : Activation) : Activation where
  frames := a.frames.map (mapMembers (Binding.rename ρ))
  captured := mapMembers (Value.rename ρ) a.captured
  siblings := mapMembers (ModuleBinding.rename ρ) a.siblings

/-- A machine with its values renamed, and the next identity. -/
def Machine.rename (m : Machine) : Machine :=
  { m with
    current := m.current.rename ρ
    callers := m.callers.map (Activation.rename ρ)
    next := ρ m.next
    completion := m.completion.rename ρ
    defaultExport := m.defaultExport.map (Value.rename ρ)
    received := m.received.map (Value.rename ρ) }

end Rename

variable {ρ : Identity → Identity}

theorem findBinding?_rename (name : String) (frames : List Frame) :
    findBinding? name (frames.map (mapMembers (Binding.rename ρ))) =
      (findBinding? name frames).map (Binding.rename ρ) := by
  induction frames with
  | nil => rfl
  | cons frame outer ih =>
    unfold findBinding? at ih ⊢
    rw [List.map_cons, List.findSome?_cons, List.findSome?_cons, lookup_mapMembers, ih]
    cases frame.lookup name <;> rfl

namespace Eval

theorem onInnermost_rename {change change' : Frame → Frame}
    (h : ∀ frame, change' (mapMembers (Binding.rename ρ) frame) =
      mapMembers (Binding.rename ρ) (change frame)) (frames : List Frame) :
    onInnermost change' (frames.map (mapMembers (Binding.rename ρ))) =
      (onInnermost change frames).map (mapMembers (Binding.rename ρ)) := by
  cases frames with
  | nil => rfl
  | cons frame outer => rw [List.map_cons, onInnermost, onInnermost, h, List.map_cons]

theorem snapshot_rename (a : Activation) :
    snapshot (a.rename ρ) = mapMembers (Value.rename ρ) (snapshot a) := by
  have hfold : ∀ (entries found : List (String × Value)),
      (mapMembers (Value.rename ρ) entries).foldl (fun found entry =>
        if (found.lookup entry.1).isSome then found else entry :: found)
          (mapMembers (Value.rename ρ) found) =
      mapMembers (Value.rename ρ) (entries.foldl (fun found entry =>
        if (found.lookup entry.1).isSome then found else entry :: found) found) := by
    intro entries
    induction entries with
    | nil => exact fun _ => rfl
    | cons entry rest ih =>
      intro found
      rw [mapMembers_cons, List.foldl_cons, List.foldl_cons]
      dsimp only
      rw [lookup_mapMembers, Option.isSome_map]
      split
      · exact ih found
      · exact ih (entry :: found)
  have hlocals : ((a.rename ρ).frames.flatMap fun frame => frame.map fun p => (p.1, p.2.value)) =
      mapMembers (Value.rename ρ)
        (a.frames.flatMap fun frame => frame.map fun p => (p.1, p.2.value)) := by
    rw [Activation.rename, List.flatMap_map, mapMembers, List.map_flatMap]
    congr 1
    funext frame
    rw [mapMembers, List.map_map, List.map_map]
    rfl
  unfold snapshot
  rw [hlocals]
  dsimp only [Activation.rename]
  rw [← mapMembers_append]
  exact hfold _ []

theorem activationOf_rename (self : Value) (f : FunctionDef) (captured : List (String × Value))
    (siblings : Siblings) (args : List Value) :
    activationOf (self.rename ρ) f (mapMembers (Value.rename ρ) captured)
        (mapMembers (ModuleBinding.rename ρ) siblings) (args.map (Value.rename ρ)) =
      (activationOf self f captured siblings args).rename ρ := by
  have hparams : ∀ (params : List (String × Nat)) (frame : Frame),
      params.foldl (fun frame param => Json.insertMember param.1
          ⟨Value.argument (args.map (Value.rename ρ)) param.2, false⟩ frame)
          (mapMembers (Binding.rename ρ) frame) =
        mapMembers (Binding.rename ρ) (params.foldl (fun frame param =>
          Json.insertMember param.1 ⟨Value.argument args param.2, false⟩ frame) frame) := by
    intro params
    induction params with
    | nil => exact fun _ => rfl
    | cons param params ih =>
      intro frame
      rw [List.foldl_cons, List.foldl_cons, ← ih, ← insertMember_mapMembers,
        Value.argument_rename]
      rfl
  have hframe (own : Frame) := congrArg (fun frame => (⟨[frame],
    mapMembers (Value.rename ρ) captured, mapMembers (ModuleBinding.rename ρ) siblings⟩ :
      Activation)) (hparams f.params.zipIdx own)
  unfold activationOf
  cases f.name with
  | none => exact hframe []
  | some name =>
    cases f.isArrow with
    | false => exact hframe [(name, ⟨self, false⟩)]
    | true => exact hframe []

end Eval
/-! ## Places -/

section Places
variable {α : Type} {g : α → α} {step step' : SlotStep α}

/-- The second step does to renamed values what the first does to values. -/
def SlotStep.Mirrors (ρ : Identity → Identity) (g : α → α) (step step' : SlotStep α) : Prop :=
  ∀ v, step' (v.rename ρ) = ((step v).1.map g, (step v).2.rename ρ)

theorem onMember_rename (h : step.Mirrors ρ g step') (key : String)
    (members : List (String × Value)) :
    onMember key step' (mapMembers (Value.rename ρ) members) =
      ((onMember key step members).1.map g,
        mapMembers (Value.rename ρ) (onMember key step members).2) := by
  induction members with
  | nil =>
    have hv := h .undefined
    rw [Value.rename_undefined] at hv
    rw [mapMembers_nil, onMember, onMember, hv]
    rfl
  | cons p rest ih =>
    rw [mapMembers_cons, onMember, onMember]
    split
    · rw [h]
      rfl
    · rw [ih]
      rfl

theorem onItem_rename (h : step.Mirrors ρ g step') (i : Nat) (items : Array Value) :
    onItem i step' (items.map (Value.rename ρ)) =
      ((onItem i step items).1.map g, (onItem i step items).2.map (Value.rename ρ)) := by
  have hfilled : items.map (Value.rename ρ) ++
      Array.replicate (i + 1 - (items.map (Value.rename ρ)).size) Value.undefined =
      (items ++ Array.replicate (i + 1 - items.size) Value.undefined).map (Value.rename ρ) := by
    rw [Array.map_append, Array.map_replicate, Array.size_map]
    rfl
  unfold onItem
  dsimp only
  rw [hfilled]
  generalize items ++ Array.replicate (i + 1 - items.size) Value.undefined = filled
  by_cases hi : i < filled.size
  · have hi' : i < (filled.map (Value.rename ρ)).size := by rwa [Array.size_map]
    rw [dif_pos hi, dif_pos hi', Array.getElem_map, h]
    simp
  · have hi' : ¬ i < (filled.map (Value.rename ρ)).size := by rwa [Array.size_map]
    rw [dif_neg hi, dif_neg hi']
    rfl

theorem onPath_rename {base : Identity} (hρ : IsShiftFrom base ρ) (h : step.Mirrors ρ g step')
    (keys : List String) {id : Identity} (hid : base ≤ id) :
    (onPath step id keys).Mirrors ρ g (onPath step' (ρ id) keys) := by
  induction keys generalizing id with
  | nil => exact h
  | cons key keys ih =>
    have hinner := ih (Nat.le_succ_of_le hid)
    rw [hρ.succ id hid] at hinner
    intro v
    cases v with
    | object old members =>
      rw [Value.rename_object, onPath, onPath, onMember_rename hinner]
      simp
    | array old items =>
      rw [Value.rename_array, onPath, onPath]
      split
      · simp [Except.map]
      · rw [Array.size_map]
        split
        · simp [Except.map]
        · rw [onItem_rename hinner]
          simp
    | closure k f captured siblings =>
      rw [Value.rename_closure]
      unfold onPath
      simp [Except.map, Value.isNullish, Value.describe, Value.typeOf]
    | undefined | null => rfl
    | bool | number | string | date | native => rfl

theorem inFrame_rename (h : step.Mirrors ρ g step') (name : String) (frame : Frame) :
    onBinding.inFrame name step' (mapMembers (Binding.rename ρ) frame) =
      ((onBinding.inFrame name step frame).1.map (Except.map g),
        mapMembers (Binding.rename ρ) (onBinding.inFrame name step frame).2) := by
  induction frame with
  | nil => rfl
  | cons p rest ih =>
    rw [mapMembers_cons, onBinding.inFrame, onBinding.inFrame]
    split
    · rw [Binding.rename, h]
      rfl
    · rw [ih]
      rfl

theorem onBinding_rename (h : step.Mirrors ρ g step') (name : String) (frames : List Frame) :
    onBinding name step' (frames.map (mapMembers (Binding.rename ρ))) =
      ((onBinding name step frames).1.map (Except.map g),
        (onBinding name step frames).2.map (mapMembers (Binding.rename ρ))) := by
  induction frames with
  | nil => rfl
  | cons frame outer ih =>
    rw [List.map_cons, onBinding, onBinding, inFrame_rename h]
    rcases onBinding.inFrame name step frame with ⟨_ | r, frame'⟩
    · dsimp only [Option.map_none]
      rw [ih]
      rfl
    · rfl

/-- A method that works in place mirrors itself. -/
theorem onSlot_rename (op : Method.InPlace) (args : List Value) (id : Identity) (maxLength : Nat) :
    SlotStep.Mirrors ρ (Value.rename ρ) (op.onSlot args id maxLength)
      (op.onSlot (args.map (Value.rename ρ)) (ρ id) maxLength) := by
  intro v
  cases v with
  | array old items =>
    rw [Value.rename_array, Method.InPlace.onSlot, Method.InPlace.onSlot, Method.apply_rename]
    dsimp only [Prod.map]
    rw [Array.size_map]
    split
    · rfl
    · simp [Except.map]
  | object | closure => simp [Method.InPlace.onSlot, Except.map]
  | undefined | null | bool | number | string | date | native => rfl

end Places

/-! ## Values of JSON texts -/

namespace Value
variable {base : Identity}

mutual

/-- What a JSON text stands for is made of identities given out one after the other. -/
theorem ofJson_rename (hρ : IsShiftFrom base ρ) {next : Identity} (hnext : base ≤ next) :
    ∀ j : Json, next ≤ (ofJson next j).2 ∧
      ofJson (ρ next) j = ((ofJson next j).1.rename ρ, ρ (ofJson next j).2)
  | .null | .bool _ | .number _ | .string _ => ⟨Nat.le_refl _, rfl⟩
  | .array items => by
    obtain ⟨hle, hitems⟩ := ofJsonItems_rename hρ (Nat.le_succ_of_le hnext) #[] items
    rw [hρ.succ next hnext, Array.map_empty] at hitems
    unfold ofJson
    refine ⟨Nat.le_of_succ_le hle, ?_⟩
    rw [hitems]
    simp
  | .object members => by
    obtain ⟨hle, hmembers⟩ := ofJsonMembers_rename hρ (Nat.le_succ_of_le hnext) [] members
    rw [hρ.succ next hnext, mapMembers_nil] at hmembers
    unfold ofJson
    refine ⟨Nat.le_of_succ_le hle, ?_⟩
    rw [hmembers]
    simp

theorem ofJsonItems_rename (hρ : IsShiftFrom base ρ) {next : Identity} (hnext : base ≤ next)
    (done : Array Value) : ∀ items : List Json,
      next ≤ (ofJsonItems next done items).2 ∧
        ofJsonItems (ρ next) (done.map (rename ρ)) items =
          ((ofJsonItems next done items).1.map (rename ρ), ρ (ofJsonItems next done items).2)
  | [] => ⟨Nat.le_refl _, rfl⟩
  | j :: rest => by
    obtain ⟨hle, hj⟩ := ofJson_rename hρ hnext j
    obtain ⟨hle', hrest⟩ := ofJsonItems_rename hρ (Nat.le_trans hnext hle)
      (done.push (ofJson next j).1) rest
    unfold ofJsonItems
    refine ⟨Nat.le_trans hle hle', ?_⟩
    rw [hj]
    dsimp only
    rw [← Array.map_push, hrest]

theorem ofJsonMembers_rename (hρ : IsShiftFrom base ρ) {next : Identity} (hnext : base ≤ next)
    (done : List (String × Value)) :
    ∀ members : List (String × Json),
      next ≤ (ofJsonMembers next done members).2 ∧
        ofJsonMembers (ρ next) (mapMembers (rename ρ) done) members =
          (mapMembers (rename ρ) (ofJsonMembers next done members).1,
            ρ (ofJsonMembers next done members).2)
  | [] => ⟨Nat.le_refl _, by simp [ofJsonMembers, mapMembers]⟩
  | (key, j) :: rest => by
    obtain ⟨hle, hj⟩ := ofJson_rename hρ hnext j
    obtain ⟨hle', hrest⟩ := ofJsonMembers_rename hρ (Nat.le_trans hnext hle)
      ((key, (ofJson next j).1) :: done) rest
    unfold ofJsonMembers
    refine ⟨Nat.le_trans hle hle', ?_⟩
    rw [hj]
    rw [mapMembers_cons] at hrest
    exact hrest

end
end Value

/-! ## What a module puts out -/

/-- What a module binds and exports, renamed. -/
def ModuleOutput.rename (ρ : Identity → Identity) (out : ModuleOutput) : ModuleOutput :=
  ⟨mapMembers (Value.rename ρ) out.bindings, mapMembers (Value.rename ρ) out.exports⟩

namespace Eval

theorem exportedMembers_rename (v : Option Value) :
    exportedMembers (v.map (Value.rename ρ)) = mapMembers (Value.rename ρ) (exportedMembers v) := by
  cases v with
  | none => rfl
  | some v => cases v <;> simp [exportedMembers, Value.members?]

theorem moduleExports_rename (v : Option Value) :
    moduleExports (v.map (Value.rename ρ)) = (moduleExports v).map (Value.rename ρ) := by
  cases v with
  | none => rfl
  | some v => cases v <;> simp [moduleExports]

theorem defaultName_rename (v : Value) : defaultName (v.rename ρ) = defaultName v := by
  cases v <;> simp [defaultName]

theorem collect_rename (m : Machine) : collect (m.rename ρ) = (collect m).rename ρ := by
  have hbound : (((m.rename ρ).current.frames.getLast?.getD []).map fun p => (p.1, p.2.value)) =
      mapMembers (Value.rename ρ)
        ((m.current.frames.getLast?.getD []).map fun p => (p.1, p.2.value)) := by
    simp only [Machine.rename, Activation.rename, List.getLast?_map]
    cases m.current.frames.getLast? with
    | none => rfl
    | some frame =>
      simp only [Option.map_some, Option.getD_some, mapMembers, List.map_map]
      rfl
  have hlisted : ∀ (names : List String) (bound : List (String × Value)),
      names.filterMap (fun name =>
        ((mapMembers (Value.rename ρ) bound).lookup name).map fun v => (name, v)) =
      mapMembers (Value.rename ρ)
        (names.filterMap fun name => (bound.lookup name).map fun v => (name, v)) := by
    intro names bound
    simp only [lookup_mapMembers, Option.map_map]
    rw [mapMembers, List.map_filterMap]
    congr 1
    funext name
    rw [Option.map_map]
    rfl
  have hdefault : ((m.rename ρ).defaultExport.map fun v => (defaultName v, v)).toList =
      mapMembers (Value.rename ρ)
        (m.defaultExport.map fun v => (defaultName v, v)).toList := by
    simp only [Machine.rename]
    cases m.defaultExport with
    | none => rfl
    | some v => simp [defaultName_rename]
  have hfilter : ∀ bound : List (String × Value),
      (mapMembers (Value.rename ρ) bound).filter
        (fun p => p.1 != "module" && p.1 != "exports") =
      mapMembers (Value.rename ρ)
        (bound.filter fun p => p.1 != "module" && p.1 != "exports") := by
    intro bound
    rw [mapMembers, List.filter_map]
    rfl
  unfold collect ModuleOutput.rename
  simp only [hbound, hdefault, hfilter]
  rw [lookup_mapMembers, lookup_mapMembers, moduleExports_rename, exportedMembers_rename,
    exportedMembers_rename]
  have hexported : (m.rename ρ).exported = m.exported := rfl
  rw [hexported, hlisted, ← mapMembers_append, ← mapMembers_append]
  exact congrArg _ (overlay_mapMembers _ _)

end Eval
end Stencil.Script
