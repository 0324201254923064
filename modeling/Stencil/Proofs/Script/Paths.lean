import Stencil.Proofs.Script.ArrayLength
import Stencil.Proofs.Script.KeyOrigins

/-! # What a write to a place changes

A path of keys leads from a value to one that it holds (`Value.read`).  Two keys of a value may
denote the same slot although they are written differently: `"1"` and `"01"` are one index of an
array (`Value.SameSlot`).  A path **leaves** another one if it follows its slots up to some
container and then goes on through another slot of it (`Value.Leaves`).

A step on a place reads the value at the end of the path, and what it answers with is found there
afterwards; a path that leaves the written one reads the same as before, the length of the array
that was written aside; and that array is filled with `undefined` up to the index
(`Value.Replaced`).  Nothing but the one binding at the root of the place is changed
(`Eval.onPlace_laws`): the new containers on the way have identities of their own, and whoever holds
an old one keeps it.
-/
namespace Stencil.Script

namespace Value

/-- The value that a path of keys leads to. -/
def read (v : Value) : List String → Except ScriptError Value
  | [] => .ok v
  | key :: path => (v.member key).bind fun u => u.read path

/-- Two keys denote the same slot of a value. -/
def SameSlot (v : Value) (key key' : String) : Prop :=
  match v with
  | .array .. => ∃ i, Number.index? key = some i ∧ Number.index? key' = some i
  | _ => key = key'

/-- The second path follows the first one into some container and takes another slot there; the
length of an array counts as one of its slots unless the first path ends in the array. -/
inductive Leaves : Value → List String → List String → Prop
  | aside {v : Value} {key key' : String} {path path' : List String} (hslot : ¬ v.SameSlot key key')
      (hlength : path = [] → v.isArray = true → key' ≠ "length") :
      Leaves v (key :: path) (key' :: path')
  | deeper {v u : Value} {key key' : String} {path path' : List String}
      (hslot : v.SameSlot key key') (hmember : v.member key = .ok u)
      (hleaves : Leaves u path path') : Leaves v (key :: path) (key' :: path')

/-- In the second value a path leads to `new`, where it led to `old` in the first, and nothing else
is different but the length of the array in which the path ends. -/
structure Replaced (path : List String) (old new v v' : Value) : Prop where
  before : v.read path = .ok old
  after : v'.read path = .ok new
  others : ∀ path', v.Leaves path path' → v'.read path' = v.read path'
  arrays : ∀ init key rest id items, path = init ++ key :: rest →
    v.read init = .ok (.array id items) → ∃ i id' items', Number.index? key = some i ∧
      v'.read init = .ok (.array id' items') ∧ items'.size = max items.size (i + 1) ∧
      (rest ≠ [] → i < items.size) ∧ ∀ j, items.size ≤ j → j < i → items'[j]? = some .undefined

theorem read_cons_of_ok {v u : Value} {key : String} (h : v.member key = .ok u)
    (path : List String) : v.read (key :: path) = u.read path := by
  rw [read, h]
  rfl

theorem read_cons_congr {v v' : Value} {key : String} (h : v'.member key = v.member key)
    (path : List String) : v'.read (key :: path) = v.read (key :: path) := by
  rw [read, read, h]

/-- Names that are refused denote no index. -/
theorem isDenied_of_index? {key : String} {i : Nat} (h : Number.index? key = some i) :
    Security.isDenied key = false := by
  cases hdenied : Security.isDenied key with
  | false => rfl
  | true =>
    have hall : ∀ name ∈ Security.deniedNames, Number.index? name = none := by decide
    have hmem : key ∈ Security.deniedNames := by simpa [Security.isDenied] using hdenied
    rw [hall key hmem] at h
    cases h

/-- A container in which one slot leads from `u` to `w`, where the rest of the path is followed. -/
structure SlotChanged (key : String) (last : Prop) (u w v v' : Value) : Prop where
  before : ∀ key', v.SameSlot key key' → v.member key' = .ok u
  after : ∀ key', v.SameSlot key key' → v'.member key' = .ok w
  aside : ∀ key', ¬ v.SameSlot key key' → (last → v.isArray = true → key' ≠ "length") →
    v'.member key' = v.member key'
  arrays : ∀ id items, v = .array id items → ∃ i id' items', Number.index? key = some i ∧
    v' = .array id' items' ∧ items'.size = max items.size (i + 1) ∧ (¬ last → i < items.size) ∧
    ∀ j, items.size ≤ j → j < i → items'[j]? = some .undefined

theorem Replaced.cons {key : String} {path : List String} {old new v v' u w : Value}
    (hslot : v.SameSlot key key) (hchanged : SlotChanged key (path = []) u w v v')
    (hinside : Replaced path old new u w) : Replaced (key :: path) old new v v' where
  before := (read_cons_of_ok (hchanged.before key hslot) path).trans hinside.before
  after := (read_cons_of_ok (hchanged.after key hslot) path).trans hinside.after
  others path' hleaves := by
    cases hleaves with
    | aside hslot hlength => exact read_cons_congr (hchanged.aside _ hslot hlength) _
    | deeper hslot' hmember hleaves =>
      obtain rfl := Except.ok.inj (hmember.symm.trans (hchanged.before key hslot))
      rw [read_cons_of_ok (hchanged.after _ hslot'), read_cons_of_ok (hchanged.before _ hslot')]
      exact hinside.others _ hleaves
  arrays init key' rest id items hpath hread := by
    cases init with
    | nil =>
      obtain ⟨rfl, rfl⟩ := List.cons.inj hpath
      obtain ⟨i, id', items', hi, rfl, hsize, hlast, hfill⟩ :=
        hchanged.arrays id items (Except.ok.inj hread)
      exact ⟨i, id', items', hi, rfl, hsize, hlast, hfill⟩
    | cons key₀ init =>
      obtain ⟨rfl, rfl⟩ := List.cons.inj hpath
      rw [read_cons_of_ok (hchanged.before key hslot)] at hread
      rw [read_cons_of_ok (hchanged.after key hslot)]
      exact hinside.arrays init key' rest id items rfl hread

end Value

/-! ## Steps on slots -/

section Steps
variable {α : Type} {step : SlotStep α}

/-- The step acts on the member under the key, or on `undefined`, and what it leaves is found under
the key afterwards. -/
theorem onMember_lookup (step : SlotStep α) (key : String) (members : List (String × Value)) :
    let u := (members.lookup key).getD .undefined
    (onMember key step members).1 = (step u).1 ∧
      (onMember key step members).2.lookup key = some (step u).2 ∧
      ∀ key', key' ≠ key → (onMember key step members).2.lookup key' = members.lookup key' := by
  induction members with
  | nil =>
    refine ⟨rfl, by simp [onMember], fun key' hne => ?_⟩
    simpa [onMember] using hne
  | cons p rest ih =>
    obtain ⟨k, v⟩ := p
    unfold onMember
    by_cases hk : k = key
    · subst hk
      rw [if_pos rfl]
      refine ⟨by simp, by simp, fun key' hne => ?_⟩
      simp [List.lookup_cons, beq_false_of_ne hne]
    · rw [if_neg hk]
      simp only [List.lookup_cons, beq_false_of_ne (Ne.symm hk)]
      refine ⟨ih.1, ih.2.1, fun key' hne => ?_⟩
      rw [ih.2.2 key' hne]

/-- What the step leaves is the item afterwards; the other items are as before, and what has been
filled in is `undefined`. -/
theorem onItem_getElem? (step : SlotStep α) (i : Nat) (items : Array Value) (j : Nat) :
    (onItem i step items).2[j]? =
      if j = i then some (step (items[i]?.getD .undefined)).2
      else if j < items.size then items[j]? else if j < i then some .undefined else none := by
  rw [onItem_eq]
  simp only [Array.getElem?_setIfInBounds, Array.getElem?_append, Array.getElem?_replicate,
    Array.size_append, Array.size_replicate]
  split
  · subst_vars
    rw [if_pos (by omega)]
    simp
  · rename_i hne
    rw [if_neg (Ne.symm hne)]
    split
    · rfl
    · split <;> split <;> first | rfl | omega

/-- There is nothing to follow a path into. -/
theorem onPath_undefined_ne_ok (step : SlotStep α) (id : Identity) {path : List String}
    (hpath : path ≠ []) (a : α) : (onPath step id path .undefined).1 ≠ .ok a := by
  cases path with
  | nil => exact absurd rfl hpath
  | cons key path => simp [onPath, Value.isNullish]

namespace Value

theorem member_object {id : Identity} {members : List (String × Value)} {key : String} :
    (Value.object id members).member key =
      if Security.isDenied key then .error (.deniedName key)
      else .ok ((members.lookup key).getD .undefined) := rfl

theorem member_array {id : Identity} {items : Array Value} {key : String} :
    (Value.array id items).member key =
      if Security.isDenied key then .error (.deniedName key)
      else if key = "length" then .ok (Method.count items.size)
      else .ok ((Number.index? key >>= fun i => items[i]?).getD .undefined) := by
  rfl

theorem member_index {id : Identity} {items : Array Value} {key : String} {i : Nat}
    (h : Number.index? key = some i) :
    (Value.array id items).member key = .ok (items[i]?.getD .undefined) := by
  have hlength : key ≠ "length" := by
    rintro rfl
    have hnone : Number.index? "length" = none := by decide
    rw [hnone] at h
    cases h
  rw [member_array, isDenied_of_index? h, if_neg Bool.false_ne_true, if_neg hlength, h]
  rfl

/-- One member of an object is changed. -/
theorem slotChanged_object (step : SlotStep α) {key : String}
    (hkey : Security.isDenied key = false) (id id' : Identity) (members : List (String × Value))
    (last : Prop) :
    let u := (members.lookup key).getD .undefined
    SlotChanged key last u (step u).2 (.object id members)
      (.object id' (onMember key step members).2) := by
  obtain ⟨-, hself, hothers⟩ := onMember_lookup step key members
  refine ⟨?_, ?_, fun key' hslot _ => ?_, fun _ _ h => nomatch h⟩
  · rintro _ rfl
    rw [member_object, hkey, if_neg Bool.false_ne_true]
  · rintro _ rfl
    rw [member_object, hkey, if_neg Bool.false_ne_true, hself, Option.getD_some]
  · rw [member_object, member_object, hothers key' (Ne.symm hslot)]

/-- One item of an array is changed; the array becomes longer only if the item is put there by the
step itself. -/
theorem slotChanged_array (step : SlotStep α) {key : String} {i : Nat}
    (hi : Number.index? key = some i) (id id' : Identity) (items : Array Value) (last : Prop)
    (hlast : ¬ last → i < items.size) :
    let u := items[i]?.getD .undefined
    SlotChanged key last u (step u).2 (.array id items) (.array id' (onItem i step items).2) := by
  refine ⟨?_, ?_, fun key' hslot hlength => ?_, ?_⟩
  · rintro key' ⟨k, hk, hk'⟩
    obtain rfl := Option.some.inj (hi.symm.trans hk)
    exact member_index hk'
  · rintro key' ⟨k, hk, hk'⟩
    obtain rfl := Option.some.inj (hi.symm.trans hk)
    rw [member_index hk', onItem_getElem?, if_pos rfl, Option.getD_some]
  · rw [member_array, member_array]
    split
    · rfl
    · split
      · -- The length is the same, as the step went into an item that was there.
        rename_i hkey'
        have hsize := hlast fun h => hlength h rfl hkey'
        rw [size_onItem, Nat.max_eq_left hsize]
      · cases hj : Number.index? key' with
        | none => rfl
        | some j =>
          have hne : j ≠ i := by
            rintro rfl
            exact hslot ⟨j, hi, hj⟩
          simp only [Option.bind_eq_bind, Option.bind_some, onItem_getElem?, if_neg hne]
          split
          · rfl
          · rename_i hbeyond
            rw [Array.getElem?_eq_none (Nat.le_of_not_lt hbeyond)]
            split <;> rfl
  · rintro _ _ ⟨⟩
    refine ⟨i, id', _, hi, rfl, size_onItem i step items, hlast, fun j hj hji => ?_⟩
    rw [onItem_getElem?, if_neg (Nat.ne_of_lt hji), if_neg (Nat.not_lt.mpr hj), if_pos hji]

/-- **A step at the end of a path** that succeeds acts on what the path led to, and puts there what
it leaves. -/
theorem replaced_onPath {path : List String} (hpath : ∀ key ∈ path, Security.isDenied key = false)
    (id : Identity) (v : Value) {a : α} (h : (onPath step id path v).1 = .ok a) :
    ∃ old, (step old).1 = .ok a ∧ Replaced path old (step old).2 v (onPath step id path v).2 := by
  induction path generalizing id v with
  | nil =>
    refine ⟨v, h, rfl, rfl, fun path' hleaves => (nomatch hleaves), ?_⟩
    intro init key rest id items h
    simp at h
  | cons key path ih =>
    obtain ⟨hkey, hpath⟩ := List.forall_mem_cons.mp hpath
    cases v with
    | object old members =>
      unfold onPath at h ⊢
      obtain ⟨hanswer, -, -⟩ := onMember_lookup (onPath step (id + 1) path) key members
      obtain ⟨u, hu, hreplaced⟩ := ih hpath (id + 1) _ (hanswer.symm.trans h)
      exact ⟨u, hu, .cons rfl (slotChanged_object _ hkey old id members _) hreplaced⟩
    | array old items =>
      unfold onPath at h ⊢
      split at h
      · cases h
      · rename_i i hi
        split at h
        · cases h
        · rename_i hgap
          simp only [if_neg hgap]
          have hanswer := (fst_onItem i (onPath step (id + 1) path) items).symm.trans h
          have hlast : ¬ path = [] → i < items.size := by
            -- Beyond the end there is `undefined`, and no path goes on from there.
            intro hne
            refine Nat.lt_of_not_le fun hle => ?_
            rw [Array.getElem?_eq_none hle] at hanswer
            exact onPath_undefined_ne_ok step (id + 1) hne a hanswer
          obtain ⟨u, hu, hreplaced⟩ := ih hpath (id + 1) _ hanswer
          exact ⟨u, hu, .cons ⟨i, hi, hi⟩ (slotChanged_array _ hi old id items _ hlast) hreplaced⟩
    | _ =>
      unfold onPath at h
      split at h <;> cases h

end Value

end Steps

/-! ## Places of a machine -/

namespace Eval

/-- In the second machine a place holds `new`, where it held `old` in the first: one binding has
another value, and there are new identities for the containers on the way. -/
def Written (target : Target) (old new : Value) (m m' : Machine) : Prop :=
  ∃ inner front b v rest outer,
    findBinding? target.root m.current.frames = some b ∧
    findBinding? target.root m'.current.frames = some { b with value := v } ∧
    Value.Replaced target.keys old new b.value v ∧
    m.current.frames = inner ++ (front ++ (target.root, b) :: rest) :: outer ∧
    m' = { m with
      current := { m.current with
        frames := inner ++ (front ++ (target.root, { b with value := v }) :: rest) :: outer }
      next := m.next + target.keys.length }

variable (c : Context) (m : Machine)

/-- A place that may be written is one of a local name. -/
theorem exists_binding_of_checkWritable {target : Target} {u : Unit} {m' : Machine}
    (h : (checkWritable target).outcome c m = (.ok u, m')) :
    ∃ b, findBinding? target.root m.current.frames = some b := by
  unfold checkWritable at h
  cases hb : findBinding? target.root m.current.frames with
  | some b => exact ⟨b, rfl⟩
  | none =>
    simp only [outcome_bind, outcome_frames, hb] at h
    split at h
    · split at h <;> cases h
    · cases h

/-- A step on a place that succeeds has written the place. -/
theorem written_onPlace {α : Type} {target : Target} {step : SlotStep α} {a : α} {m' : Machine}
    (hkeys : ∀ key ∈ target.keys, Security.isDenied key = false)
    (h : (onPlace target step).outcome c m = (.ok a, m')) :
    ∃ old, (step old).1 = .ok a ∧ Written target old (step old).2 m m' := by
  rw [outcome_onPlace] at h
  split at h
  · cases h
  · rename_i hwritable
    obtain ⟨b, hb⟩ := exists_binding_of_checkWritable c m hwritable
    obtain ⟨inner, front, rest, outer, hframes, hon, hafter⟩ :=
      onBinding_split (onPath step m.next target.keys) hb
    rw [hon] at h
    obtain ⟨hanswer, rfl⟩ := Prod.mk.inj h
    obtain ⟨old, hold, hreplaced⟩ := Value.replaced_onPath hkeys m.next b.value hanswer
    exact ⟨old, hold, inner, front, b, _, rest, outer, hb, hafter _, hreplaced, hframes, rfl⟩

/-- **Writes to places obey the laws of lenses.**  Let the keys of a place have been evaluated.  A
step on the place that succeeds worked on the value that the keys lead to, and what it left is what
they lead to afterwards; so a value that was assigned is read back.  Every path that leaves that of
the place leads to what it led to before, but for the length of the array that was written, which
has grown to the written index at most and is filled with `undefined`.  No other binding of any
frame has changed, nor what functions have captured, nor what the callers of the activation hold. -/
theorem onPlace_laws {call : Call} {place : Expr} {t : Target} {m₀ : Machine}
    (hplace : ((target call place).outcome c m₀).1 = .ok t) :
    (∀ (α : Type) (step : SlotStep α) a m', (onPlace t step).outcome c m = (.ok a, m') →
      ∃ old, (step old).1 = .ok a ∧ Written t old (step old).2 m m') ∧
    (∀ v m', (assign t v).outcome c m = (.ok (), m') → ∃ old, Written t old v m m') := by
  have hkeys := target_keys_allowed place hplace
  refine ⟨fun α step a m' h => written_onPlace c m hkeys h, fun v m' h => ?_⟩
  unfold assign at h
  simp only [outcome_bind, outcome_limits] at h
  obtain ⟨old, hok, hwritten⟩ := written_onPlace c m hkeys h
  refine ⟨old, ?_⟩
  by_cases hlevel : t.keys.length = 0
  · rwa [if_pos hlevel] at hwritten
  · rw [if_neg hlevel] at hok hwritten
    split at hok
    · rename_i hfits
      rwa [hfits] at hwritten
    · cases hok

/-- A member is written in an item that another name holds too. -/
theorem onPlace_laws_shared :
    let c : Context := { budget := { limit := 5000 } }
    let item : Value := .object 1 [("x", .null)]
    let m : Machine := {
      current := ⟨[[("a", ⟨.array 2 #[item], false⟩), ("b", ⟨item, false⟩)]], [], []⟩
      next := 3 }
    let place : Expr := .member (.member (.name "a") (.string "0") false) (.string "y") false
    let t : Target := ⟨"a", ["0", "y"]⟩
    let after := (assign t (.bool true)).outcome c m
    ((target (fun _ _ => pure .undefined) place).outcome c m).1 = .ok t ∧
      after.1 = .ok () ∧ ∃ old, Written t old (.bool true) m after.2 := by
  intro c item m place t after
  have hplace : ((target (fun _ _ => pure .undefined) place).outcome c m).1 = .ok t := rfl
  have hok : after = (.ok (), after.2) := rfl
  exact ⟨hplace, rfl, (onPlace_laws c m hplace).2 (.bool true) _ hok⟩

end Eval
end Stencil.Script
