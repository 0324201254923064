import Stencil.Proofs.Script.Agreement.Steps
import Stencil.Proofs.Script.Hoisting

/-! # Hoisting in another order

What a function takes with it under a name is the last function that was declared under it before, or
what the name stood for around the list (`Named`).  If functions that share a name or mention each
other come in the same order on both sides (`Regrouped`), functions take with them what agrees, name
by name, and in the end names stand for functions that agree (`Regrouped.left_declareAll`).
-/
namespace Stencil.Script
open Eval

/-! ## The last function of a name -/

section Last
variable {fs gs : List (String × FunctionDef)} {k i j : Nat} {x : String}
  {p q : String × FunctionDef}

/-- The last of the functions before the place `k` that are declared under the name. -/
structure LastNamed (fs : List (String × FunctionDef)) (k : Nat) (x : String) (j : Nat)
    (p : String × FunctionDef) : Prop where
  lt : j < k
  here : fs[j]? = some p
  name : p.1 = x
  last : ∀ i q, j < i → i < k → fs[i]? = some q → q.1 ≠ x

/-- What the name stands for when the functions before the place `k` were bound: what it stood for
before them, or what was made of the last function of that name. -/
inductive Named {β : Type} (fs : List (String × FunctionDef)) (k : Nat) (x : String)
    (before : Option β) (made : Nat → FunctionDef → β) : Option β → Prop
  | around (h : ∀ j q, j < k → fs[j]? = some q → q.1 ≠ x) : Named fs k x before made before
  | declared {j : Nat} {p : String × FunctionDef} (h : LastNamed fs k x j p) :
    Named fs k x before made (some (made j p.2))

theorem LastNamed.unique (hi : LastNamed fs k x i p) (hj : LastNamed fs k x j q) : i = j := by
  rcases Nat.lt_trichotomy i j with hlt | heq | hlt
  · exact absurd hj.name (hi.last j q hlt hj.lt hj.here)
  · exact heq
  · exact absurd hi.name (hj.last i p hlt hi.lt hi.here)

theorem Named.map {β γ : Type} {before now : Option β} {made : Nat → FunctionDef → β}
    (h : Named fs k x before made now) (f : β → γ) :
    Named fs k x (before.map f) (fun j g => f (made j g)) (now.map f) := by
  cases h with
  | around h => exact .around h
  | declared h => exact .declared h

theorem Named.or {β : Type} {before now outer : Option β} {made : Nat → FunctionDef → β}
    (h : Named fs k x before made now) : Named fs k x (before.or outer) made (now.or outer) := by
  cases h with
  | around h => exact .around h
  | declared h => exact .declared h

/-- A name under which no function is declared stands for what it did. -/
theorem Named.eq_of_forall_ne {β : Type} {before now : Option β} {made : Nat → FunctionDef → β}
    (h : Named fs k x before made now) (hne : ∀ q ∈ fs, q.1 ≠ x) : now = before := by
  cases h with
  | around => rfl
  | declared hlast => exact absurd hlast.name (hne _ (List.mem_of_getElem? hlast.here))

/-- A name under which a function is declared stands for the last such function. -/
theorem Named.exists_last {β : Type} {before now : Option β} {made : Nat → FunctionDef → β}
    (h : Named fs k x before made now) (hj : j < k) (hp : fs[j]? = some p) (hx : p.1 = x) :
    ∃ i q, LastNamed fs k x i q ∧ now = some (made i q.2) := by
  cases h with
  | around hnone => exact (hnone j p hj hp hx).elim
  | declared hlast => exact ⟨_, _, hlast, rfl⟩

theorem Named.succ {β : Type} {before now : Option β} {made : Nat → FunctionDef → β}
    (h : Named fs k x before made now) (hp : fs[k]? = some p) :
    Named fs (k + 1) x before made (if x = p.1 then some (made k p.2) else now) := by
  split
  · rename_i hx
    refine .declared ⟨Nat.lt_succ_self k, hp, hx.symm, fun i q hlt hle _ => ?_⟩
    omega
  · rename_i hx
    have hne : ∀ q, fs[k]? = some q → q.1 ≠ x := by
      rintro q hq rfl
      exact hx (congrArg Prod.fst (Option.some.inj (hq.symm.trans hp)))
    cases h with
    | around h =>
      refine .around fun j q hj hq => ?_
      rcases Nat.lt_succ_iff_lt_or_eq.mp hj with hj | rfl
      · exact h j q hj hq
      · exact hne q hq
    | declared h =>
      refine .declared ⟨Nat.lt_succ_of_lt h.lt, h.here, h.name, fun i q hlt hi hq => ?_⟩
      rcases Nat.lt_succ_iff_lt_or_eq.mp hi with hi | rfl
      · exact h.last i q hlt hi hq
      · exact hne q hq

theorem Named.succ_of_none {β : Type} {before now : Option β} {made : Nat → FunctionDef → β}
    (h : Named fs k x before made now) (hnone : fs[k]? = none) :
    Named fs (k + 1) x before made now := by
  have hne : ∀ i q, i < k + 1 → fs[i]? = some q → i < k := by
    intro i q hi hq
    rcases Nat.lt_succ_iff_lt_or_eq.mp hi with hi | rfl
    · exact hi
    · exact nomatch hq.symm.trans hnone
  cases h with
  | around h => exact .around fun j q hj hq => h j q (hne j q hj hq) hq
  | declared h =>
    exact .declared ⟨Nat.lt_succ_of_lt h.lt, h.here, h.name, fun i q hlt hi hq =>
      h.last i q hlt (hne i q hi hq) hq⟩

end Last

/-! ## Functions in another order -/

/-- Functions are declared by statements of the list, under their own names. -/
theorem exists_of_mem_declarations {body : List Stmt} {p : String × FunctionDef}
    (hp : p ∈ declarations body) :
    p.2.name = some p.1 ∧ ∃ s ∈ body, declaredFunction? s = some p.2 := by
  obtain ⟨s, hs, hdeclared⟩ := List.mem_filterMap.mp hp
  obtain ⟨f, hf, hnamed⟩ := Option.bind_eq_some_iff.mp hdeclared
  obtain ⟨name, hname, hpair⟩ := Option.bind_eq_some_iff.mp hnamed
  obtain rfl := Option.some.inj hpair
  exact ⟨hname, s, hs, hf⟩

/-- A list of statements mentions what the functions that it declares do. -/
theorem names_of_mem_declarations {body : List Stmt} {p : String × FunctionDef} {x : String}
    (hp : p ∈ declarations body) (hx : x ∈ p.2.names) : x ∈ Stmt.namesOf body := by
  obtain ⟨-, s, hs, hf⟩ := exists_of_mem_declarations hp
  refine Stmt.mem_namesOf.mpr ⟨s, hs, ?_⟩
  unfold declaredFunction? at hf
  split at hf <;> cases hf <;> exact hx

/-- The functions come in another order, in which `place i` is the place of what was at `i`, with
lists of statements in them rearranged; of two that are not independent the first one stays first. -/
structure Regrouped (place : Equiv.Perm Nat) (fs gs : List (String × FunctionDef)) : Prop where
  length : gs.length = fs.length
  moved : ∀ i, Option.Rel (fun p q => q.1 = p.1 ∧ p.2.Rearranged q.2) fs[i]? gs[place i]?
  order : ∀ i j p q, i < j → fs[i]? = some p → fs[j]? = some q →
    Independent p q ∨ place i < place j

namespace Regrouped
variable {place : Equiv.Perm Nat} {fs gs : List (String × FunctionDef)} {k k' i j : Nat} {x : String}
  {p q : String × FunctionDef}

theorem refl (fs : List (String × FunctionDef)) : Regrouped (Equiv.refl Nat) fs fs where
  length := rfl
  moved i := by
    rw [Equiv.refl_apply]
    cases fs[i]? with
    | none => exact .none
    | some p => exact .some ⟨rfl, .refl p.2⟩
  order _ _ _ _ hij _ _ := .inr hij

theorem forward (h : Regrouped place fs gs) (hp : fs[i]? = some p) :
    ∃ q, gs[place i]? = some q ∧ q.1 = p.1 ∧ p.2.Rearranged q.2 := by
  have hmoved := h.moved i
  rw [hp] at hmoved
  cases hq : gs[place i]? with
  | none =>
    rw [hq] at hmoved
    cases hmoved
  | some q =>
    rw [hq] at hmoved
    cases hmoved with
    | some hpq => exact ⟨q, rfl, hpq⟩

theorem backward (h : Regrouped place fs gs) (hq : gs[j]? = some q) :
    ∃ i p, place i = j ∧ fs[i]? = some p ∧ q.1 = p.1 := by
  obtain ⟨i, rfl⟩ := place.surjective j
  have hmoved := h.moved i
  rw [hq] at hmoved
  cases hp : fs[i]? with
  | none =>
    rw [hp] at hmoved
    cases hmoved
  | some p =>
    rw [hp] at hmoved
    cases hmoved with
    | some hpq => exact ⟨i, p, rfl, hp, hpq.1⟩

theorem place_lt (h : Regrouped place fs gs) : ∀ i < fs.length, place i < fs.length := by
  intro i hi
  obtain ⟨q, hq, -⟩ := h.forward (List.getElem?_eq_getElem hi)
  exact h.length ▸ (List.getElem?_eq_some_iff.mp hq).1

/-- Of two functions of one name the first one stays first. -/
theorem place_lt_place (h : Regrouped place fs gs) (hij : i < j) (hp : fs[i]? = some p)
    (hq : fs[j]? = some q) (hname : p.1 = q.1) : place i < place j :=
  (h.order i j p q hij hp hq).resolve_left fun hne => hne.ne hname

/-- What a function mentions stays before it or behind it. -/
theorem lt_iff_of_mem (h : Regrouped place fs gs) (hp : fs[k]? = some p) (hx : q.1 ∈ p.2.names)
    (hq : fs[j]? = some q) : j < k ↔ place j < place k := by
  rcases Nat.lt_trichotomy j k with hlt | rfl | hlt
  · have hplace := (h.order j k q p hlt hq hp).resolve_left fun hi => hi.right hx
    exact iff_of_true hlt hplace
  · exact iff_of_false (Nat.lt_irrefl _) (Nat.lt_irrefl _)
  · have hplace := (h.order k j p q hlt hp hq).resolve_left fun hi => hi.left hx
    exact iff_of_false (Nat.lt_asymm hlt) (Nat.lt_asymm hplace)

theorem lastNamed (h : Regrouped place fs gs)
    (hcut : ∀ j q, fs[j]? = some q → q.1 = x → (j < k ↔ place j < k')) (hp : LastNamed fs k x j p) :
    ∃ q, LastNamed gs k' x (place j) q := by
  obtain ⟨q, hq, hname, -⟩ := h.forward hp.here
  refine ⟨q, (hcut j p hp.here hp.name).mp hp.lt, hq, hname.trans hp.name, ?_⟩
  intro i' q' hlt hi' hq' hname'
  obtain ⟨i, p', rfl, hp', hsame⟩ := h.backward hq'
  have hx : p'.1 = x := hsame.symm.trans hname'
  have hi : i < k := (hcut i p' hp' hx).mpr hi'
  rcases Nat.lt_trichotomy j i with hji | rfl | hij
  · exact hp.last i p' hji hi hp' hx
  · exact Nat.lt_irrefl _ hlt
  · have hplace := h.place_lt_place hij hp' hp.here (hx.trans hp.name.symm)
    exact Nat.lt_asymm hlt hplace

/-- A name stands for what is related on both sides if it did before the list and the same functions
of that name are bound. -/
theorem rel_named (h : Regrouped place fs gs) {β : Type} {R : β → β → Prop}
    {before before' now now' : Option β} {made made' : Nat → FunctionDef → β}
    (hcut : ∀ j q, fs[j]? = some q → q.1 = x → (j < k ↔ place j < k'))
    (hnow : Named fs k x before made now) (hnow' : Named gs k' x before' made' now')
    (hbefore : Option.Rel R before before')
    (hmade : ∀ j p q, j < k → fs[j]? = some p → gs[place j]? = some q →
      R (made j p.2) (made' (place j) q.2)) : Option.Rel R now now' := by
  cases hnow with
  | around hnone =>
    cases hnow' with
    | around => exact hbefore
    | declared hlast =>
      obtain ⟨i, p, hi, hp, hsame⟩ := h.backward hlast.here
      have hx : p.1 = x := hsame.symm.trans hlast.name
      exact (hnone i p ((hcut i p hp hx).mpr (hi ▸ hlast.lt)) hp hx).elim
  | declared hlast =>
    obtain ⟨q, hq⟩ := h.lastNamed hcut hlast
    cases hnow' with
    | around hnone => exact (hnone _ q hq.lt hq.here hq.name).elim
    | declared hlast' =>
      obtain rfl := hlast'.unique hq
      exact .some (hmade _ _ _ hlast.lt hlast.here hlast'.here)

/-- What statements declare in a rearranged list. -/
theorem ofStatements {π : Orders} (hπ : π.Rearrange) (body : List Stmt) :
    ∃ place, Regrouped place (declarations body) (declarations (Stmt.reorderList π body)) := by
  have hinner := declarations_reorderAll hπ body
  obtain ⟨place, hshuffle⟩ := (hπ [] (Stmt.reorderAll π body)).shuffle
  have hrel := rel_getElem? hinner
  refine ⟨place, hshuffle.length.trans hinner.length_eq.symm, fun i => ?_, ?_⟩
  · rw [Stmt.reorderList, hshuffle.moved i]
    exact hrel i
  · intro i j p q hij hp hq
    have hi := hrel i
    have hj := hrel j
    rw [hp] at hi
    rw [hq] at hj
    cases hp' : (declarations (Stmt.reorderAll π body))[i]? with
    | none =>
      rw [hp'] at hi
      cases hi
    | some p' =>
      cases hq' : (declarations (Stmt.reorderAll π body))[j]? with
      | none =>
        rw [hq'] at hj
        cases hj
      | some q' =>
        rw [hp'] at hi
        rw [hq'] at hj
        obtain ⟨hpname, hpnames⟩ : p'.1 = p.1 ∧ p.2.Rearranged p'.2 := by cases hi; assumption
        obtain ⟨hqname, hqnames⟩ : q'.1 = q.1 ∧ q.2.Rearranged q'.2 := by cases hj; assumption
        refine (hshuffle.order i j p' q' hij hp' hq').imp_left fun hind => ⟨?_, ?_, ?_⟩
        · exact hpname ▸ hqname ▸ hind.ne
        · exact fun hx => hind.left (hqname ▸ hpnames.mem_names hx)
        · exact fun hx => hind.right (hpname ▸ hqnames.mem_names hx)

end Regrouped

/-! ## Machines after the functions were bound -/

namespace Machine
variable {m : Machine}

theorem declareAll_eq (m : Machine) (fs : List (String × FunctionDef)) :
    m.declareAll fs = { m with
      next := m.next + fs.length
      current := { m.current with frames := (m.declareAll fs).current.frames } } := by
  induction fs generalizing m with
  | nil => rfl
  | cons p rest ih =>
    rw [List.length_cons, Nat.add_comm rest.length, ← Nat.add_assoc]
    exact ih (m.declare p)

theorem grows_declareAll (m : Machine) (fs : List (String × FunctionDef)) :
    m.Grows (m.declareAll fs) := by
  induction fs generalizing m with
  | nil => exact .refl m
  | cons p rest ih =>
    have hstep : m.Grows (m.declare p) :=
      ⟨rfl, Frame.grows_onInnermost p.1 _ m.current.frames, rfl⟩
    exact hstep.trans (ih (m.declare p))

/-- Binding functions changes the innermost block, in which each name stands for the last function
that was declared under it. -/
theorem frames_declareAll_take {inner : Frame} {outer : List Frame}
    (h : m.current.frames = inner :: outer) (fs : List (String × FunctionDef)) (k : Nat) :
    ∃ inner', (m.declareAll (fs.take k)).current.frames = inner' :: outer ∧ ∀ x,
      Named fs k x (inner.lookup x)
        (fun j f => ⟨(m.declareAll (fs.take j)).closure f, false⟩) (inner'.lookup x) := by
  induction k with
  | zero => exact ⟨inner, h, fun x => .around nofun⟩
  | succ k ih =>
    obtain ⟨inner', hframes, hnamed⟩ := ih
    rw [List.take_add_one]
    cases hp : fs[k]? with
    | none =>
      rw [Option.toList_none, List.append_nil]
      exact ⟨inner', hframes, fun x => (hnamed x).succ_of_none hp⟩
    | some p =>
      have hlast : (m.declareAll (fs.take k ++ [p])).current.frames =
          Json.insertMember p.1 ⟨(m.declareAll (fs.take k)).closure p.2, false⟩ inner' :: outer := by
        rw [declareAll_append]
        show onInnermost _ (m.declareAll (fs.take k)).current.frames = _
        rw [hframes]
        rfl
      refine ⟨_, hlast, fun x => ?_⟩
      rw [lookup_insertMember]
      exact (hnamed x).succ hp

/-- What names stand for locally when functions have been bound. -/
theorem named_local? (h : m.current.frames ≠ []) (fs : List (String × FunctionDef)) (k : Nat)
    (x : String) : Named fs k x (m.current.local? x)
      (fun j f => (m.declareAll (fs.take j)).closure f)
      ((m.declareAll (fs.take k)).current.local? x) := by
  obtain ⟨inner, outer, hframes⟩ := List.exists_cons_of_ne_nil h
  obtain ⟨inner', hframes', hnamed⟩ := frames_declareAll_take hframes fs k
  have hcaptured := (grows_declareAll m (fs.take k)).captured
  unfold Activation.local?
  rw [hframes, hframes', hcaptured, findBinding?_cons, findBinding?_cons]
  exact ((hnamed x).or.map (·.value)).or

/-- Outside of all blocks nothing is bound. -/
theorem current_declareAll_of_nil (h : m.current.frames = []) (fs : List (String × FunctionDef)) :
    (m.declareAll fs).current = m.current := by
  induction fs generalizing m with
  | nil => rfl
  | cons p rest ih =>
    have hstep : (m.declare p).current = m.current := by
      show ({ m.current with frames := onInnermost _ m.current.frames } : Activation) = m.current
      rw [h]
      exact congrArg (fun frames => { m.current with frames }) h.symm
    exact (ih (hstep ▸ h)).trans hstep

theorem next_declareAll_take {fs : List (String × FunctionDef)} {k : Nat} (hk : k ≤ fs.length) :
    (m.declareAll (fs.take k)).next = m.next + k := by
  rw [declareAll_eq, List.length_take, Nat.min_eq_left hk]

/-- When the functions are made one after the other, each finds the names that have to be bound. -/
def Supplies (bound : String → Prop) (m : Machine) (fs : List (String × FunctionDef)) : Prop :=
  ∀ (k : Nat) (p : String × FunctionDef), fs[k]? = some p → ∀ x ∈ p.2.names, bound x →
    p.2.Finds (snapshot (m.declareAll (fs.take k)).current) x

end Machine

/-! ## Both sides -/

namespace Regrouped
variable {bound : String → Prop} {base : Identity} {A : String → Prop} {w : Twinning base}
  {m m' : Machine} {place : Equiv.Perm Nat} {fs gs : List (String × FunctionDef)}

/-- Functions have been bound on both sides. -/
def later (h : Regrouped place fs gs) (w : Twinning base) : Twinning base :=
  w.shuffle fs.length place h.place_lt

theorem le_later (h : Regrouped place fs gs) (w : Twinning base) : w.Le (h.later w) :=
  w.le_shuffle _

/-- The functions that belong together agree; they find the names that have to be bound if those on
the first side do. -/
theorem closures (h : Regrouped place fs gs) (hm : m.Agrees bound A w m')
    (hA : ∀ p ∈ fs, ∀ x ∈ p.2.names, A x) (hfinds : m.Supplies bound fs) (k : Nat) :
    ∀ p q, fs[k]? = some p → gs[place k]? = some q →
      ((m.declareAll (fs.take k)).closure p.2).Agrees bound (h.later w).joined
        ((m'.declareAll (gs.take (place k))).closure q.2) := by
  -- What is taken with a function was made before it.
  induction k using Nat.strongRecOn with
  | ind k ih =>
    intro p q hp hq
    obtain ⟨q', hq', -, hrearranged⟩ := h.forward hp
    obtain rfl := Option.some.inj (hq'.symm.trans hq)
    obtain ⟨hk, -⟩ := List.getElem?_eq_some_iff.mp hp
    obtain ⟨hk', -⟩ := List.getElem?_eq_some_iff.mp hq
    have hle := h.le_later w
    have hcaptured : ∀ x ∈ p.2.names, Option.Rel (Value.Agrees bound (h.later w).joined)
        ((m.declareAll (fs.take k)).current.local? x)
        ((m'.declareAll (gs.take (place k))).current.local? x) := by
      intro x hx
      have hbefore := (hm.current.mono hle).local? (hA p (List.mem_of_getElem? hp) x hx)
      by_cases hframes : m.current.frames = []
      · have hframes' : m'.current.frames = [] :=
          List.forall₂_nil_left_iff.mp (hframes ▸ hm.current.frames)
        rw [Machine.current_declareAll_of_nil hframes, Machine.current_declareAll_of_nil hframes']
        exact hbefore
      · have hframes' : m'.current.frames ≠ [] := fun hnil =>
          hframes (List.forall₂_nil_right_iff.mp (hnil ▸ hm.current.frames))
        exact h.rel_named (fun j q hq hname => h.lt_iff_of_mem hp (hname ▸ hx) hq)
          (Machine.named_local? hframes fs k x) (Machine.named_local? hframes' gs (place k) x)
          hbefore fun j p q hj hp hq => ih j hj p q hp hq
    unfold Machine.closure
    rw [Machine.siblings_declareAll, Machine.siblings_declareAll, hm.current.same,
      Machine.next_declareAll_take (Nat.le_of_lt hk), Machine.next_declareAll_take (Nat.le_of_lt hk'),
      hm.next, hm.next']
    refine .ofClosure (.inr ⟨k, hk, rfl, rfl⟩) hrearranged (hfinds k p hp) (fun x hx => ?_)
      (hm.current.siblings.mono hle.joined)
    rw [lookup_snapshot, lookup_snapshot]
    exact hcaptured x hx

/-- Binding the functions in the other order leaves machines that agree. -/
theorem left_declareAll (h : Regrouped place fs gs) (hm : m.Agrees bound A w m')
    (hA : ∀ p ∈ fs, ∀ x ∈ p.2.names, A x) (hfinds : m.Supplies bound fs) :
    Left bound A (h.later w) m m' (m.declareAll fs) (m'.declareAll gs) := by
  have hle := h.le_later w
  have hframes : List.Forall₂ (Frame.Agrees bound (h.later w).joined)
      (m.declareAll fs).current.frames (m'.declareAll gs).current.frames := by
    have hbefore := hm.current.frames
    cases hinner : m.current.frames with
    | nil =>
      rw [hinner] at hbefore
      have hinner' := List.forall₂_nil_left_iff.mp hbefore
      rw [Machine.current_declareAll_of_nil hinner, Machine.current_declareAll_of_nil hinner',
        hinner, hinner']
      exact .nil
    | cons inner outer =>
      rw [hinner] at hbefore
      obtain ⟨inner', outer', hframe, houter, hinner'⟩ := List.forall₂_cons_left_iff.mp hbefore
      obtain ⟨last, hlast, hnamed⟩ := Machine.frames_declareAll_take hinner fs fs.length
      obtain ⟨last', hlast', hnamed'⟩ := Machine.frames_declareAll_take hinner' gs gs.length
      rw [List.take_length] at hlast hlast'
      rw [hlast, hlast']
      refine .cons (fun x => ?_) (houter.imp fun _ _ hframe => hframe.mono hle.joined)
      refine h.rel_named (fun j p hp _ => ?_) (hnamed x) (hnamed' x) ((hframe.mono hle.joined) x)
        fun j p q _ hp hq => ⟨rfl, h.closures hm hA hfinds j p q hp hq⟩
      obtain ⟨hj, -⟩ := List.getElem?_eq_some_iff.mp hp
      exact iff_of_true hj (h.length ▸ h.place_lt j hj)
  have hcurrent : Activation.Agrees bound A (h.later w)
      { m.current with frames := (m.declareAll fs).current.frames }
      { m'.current with frames := (m'.declareAll gs).current.frames } :=
    { hm.current.mono hle with frames := hframes }
  refine ⟨?_, Machine.grows_declareAll m fs, ?_⟩
  · rw [Machine.declareAll_eq m, Machine.declareAll_eq m', hm.next, hm.next', h.length]
    exact hm.later hle hcurrent
  · rw [Machine.declareAll_eq m']

end Regrouped

namespace RunAlike
variable {c : Context} {bound : String → Prop} {base : Identity} {A : String → Prop}
  {w : Twinning base}

/-- Functions are bound, or what one would take with it is nested too deep. -/
theorem outcome_declareAll_cases (c : Context) (m : Machine) (fs : List (String × FunctionDef)) :
    (Eval.declareAll fs).outcome c m = (.ok (), m.declareAll fs) ∨
      ((Eval.declareAll fs).outcome c m).1 = .error (Value.tooDeep c.limits.valueDepth) := by
  induction fs generalizing m with
  | nil => exact .inl rfl
  | cons p rest ih =>
    rw [outcome_declareAll_cons]
    rcases Value.checkHeights_eq c.limits.valueDepth 1 ((snapshot m.current).map (·.2)) with h | h <;>
      rw [h]
    · exact ih (m.declare p)
    · exact .inr rfl

/-- The functions that a list declares are bound in another order. -/
theorem hoist {π : Orders} (hπ : π.Rearrange) {body : List Stmt}
    (hA : ∀ x ∈ Stmt.namesOf body, A x) :
    RunAlike c bound A w (Eval.hoist body) (Eval.hoist (Stmt.reorderList π body)) Same := by
  intro m m' hm hbinds
  obtain ⟨place, h⟩ := Regrouped.ofStatements hπ body
  have hnames : ∀ p ∈ declarations body, ∀ x ∈ p.2.names, A x := fun p hp x hx =>
    hA x (names_of_mem_declarations hp hx)
  have hfinds : m.Supplies bound (declarations body) := by
    intro k p hp x hx hbound
    refine .inl ?_
    rw [lookup_snapshot]
    exact (Machine.grows_declareAll m _).binds hbinds x
      (hnames p (List.mem_of_getElem? hp) x hx) hbound
  have hleft := h.left_declareAll hm hnames hfinds
  rw [hoist_eq, hoist_eq]
  rcases outcome_declareAll_cases c m (declarations body) with hrun | hrun
  · rcases outcome_declareAll_cases c m' (declarations (Stmt.reorderList π body)) with hrun' | hrun'
    · rw [hrun, hrun']
      exact .ok ⟨_, h.le_later w, rfl, hleft⟩
    · rw [hrun']
      exact .deep' _
  · rw [hrun]
    exact .deep _

end RunAlike
end Stencil.Script
