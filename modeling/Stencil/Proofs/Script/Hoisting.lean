import Stencil.Proofs.Script.Height
import Stencil.Proofs.Script.Steps

/-! # Hoisting

Before the statements of a list run, the functions that they declare are made and bound, one after
the other (`Eval.hoist_eq`).  Which locals a function takes with it is decided when it is made: those
that are visible around the list, and the functions of the list that come before it
(`Machine.local?_declareAll`).

So every function has the one before it in it, and **each is one level taller than the last**.
As values are nested to a limited depth, no more than that many functions can be declared in one list
(`Eval.outcome_hoist`), whether or not they have anything to do with each other.
-/
namespace Stencil.Script
open Eval

/-- The functions that statements declare, with their names, in order. -/
def declarations (body : List Stmt) : List (String × FunctionDef) :=
  body.filterMap fun s => do
    let f ← declaredFunction? s
    let name ← f.name
    return (name, f)

namespace Machine

/-- The function that a definition makes now, unless it is nested too deep. -/
def closure (m : Machine) (f : FunctionDef) : Value :=
  .closure m.next f (snapshot m.current) m.current.siblings

/-- The machine after a function was made and bound to a name. -/
def declare (m : Machine) (p : String × FunctionDef) : Machine :=
  { m with
    next := m.next + 1
    current := { m.current with
      frames := onInnermost (Json.insertMember p.1 ⟨m.closure p.2, false⟩) m.current.frames } }

/-- The machine after functions were made and bound, one after the other. -/
def declareAll (m : Machine) (fs : List (String × FunctionDef)) : Machine :=
  fs.foldl declare m

end Machine

namespace Eval
variable {c : Context} {m : Machine}

/-- Makes functions and binds them, one after the other. -/
def declareAll (fs : List (String × FunctionDef)) : Eval Unit :=
  fs.forM fun p => do declare p.1 (← newClosure p.2)

theorem declareAll_cons (p : String × FunctionDef) (rest : List (String × FunctionDef)) :
    declareAll (p :: rest) = (newClosure p.2 >>= declare p.1) >>= fun _ => declareAll rest := rfl

/-- Statements bind the functions that they declare. -/
theorem hoist_eq (body : List Stmt) : hoist body = declareAll (declarations body) := by
  induction body with
  | nil => rfl
  | cons s rest ih =>
    unfold hoist at ih ⊢
    unfold declarations at ih ⊢
    rw [List.forM_eq_forM] at ih ⊢
    rw [List.forM_cons, ih, List.filterMap_cons]
    rcases declaredFunction? s with _ | ⟨_ | name, params, body, isArrow⟩
    · exact pure_bind _ _
    · exact pure_bind _ _
    · exact (declareAll_cons (name, .mk (some name) params body isArrow) _).symm

/-- A function is made and bound unless what it would take with it is nested too deep. -/
theorem outcome_declareAll_cons (p : String × FunctionDef) (rest : List (String × FunctionDef)) :
    outcome c m (declareAll (p :: rest)) =
      match Value.checkHeights c.limits.valueDepth 1 ((snapshot m.current).map (·.2)) with
      | .ok () => outcome c (m.declare p) (declareAll rest)
      | .error e => (.error e, m) := by
  rw [declareAll_cons, outcome_bind, outcome_bind, outcome_newClosure]
  cases Value.checkHeights c.limits.valueDepth 1 ((snapshot m.current).map (·.2)) <;> rfl

theorem eq_of_outcome_declareAll {m' : Machine} {fs : List (String × FunctionDef)} {u : Unit}
    (h : outcome c m (declareAll fs) = (.ok u, m')) : m' = m.declareAll fs := by
  induction fs generalizing m with
  | nil =>
    cases h
    rfl
  | cons p rest ih =>
    rw [outcome_declareAll_cons] at h
    split at h
    · exact ih h
    · cases h

end Eval

namespace Machine

theorem declareAll_append (m : Machine) (before after : List (String × FunctionDef)) :
    m.declareAll (before ++ after) = (m.declareAll before).declareAll after :=
  List.foldl_append

theorem siblings_declareAll (m : Machine) (fs : List (String × FunctionDef)) :
    (m.declareAll fs).current.siblings = m.current.siblings := by
  induction fs generalizing m with
  | nil => rfl
  | cons p rest ih => exact ih (m.declare p)

end Machine

/-! ## What is visible -/

section
variable {m : Machine}

/-- Whatever is taken with a function is taken under its name. -/
theorem Eval.lookup_of_mem_fold (entries found : List (String × Value))
    (hfound : ∀ p ∈ found, found.lookup p.1 = some p.2) :
    ∀ p ∈ entries.foldl (fun found (q : String × Value) =>
        if (found.lookup q.1).isSome then found else (q.1, q.2) :: found) found,
      (entries.foldl (fun found (q : String × Value) =>
        if (found.lookup q.1).isSome then found else (q.1, q.2) :: found) found).lookup p.1 =
          some p.2 := by
  induction entries generalizing found with
  | nil => exact hfound
  | cons entry rest ih =>
    refine ih _ ?_
    dsimp only
    split
    · exact hfound
    · rename_i hnew
      refine List.forall_mem_cons.mpr ⟨List.lookup_cons_self, fun q hq => ?_⟩
      have hne : q.1 ≠ entry.1 := by
        intro he
        rw [← he, hfound q hq] at hnew
        exact hnew rfl
      rw [List.lookup_cons, beq_false_of_ne hne]
      exact hfound q hq

/-- A function takes with it exactly what its names stand for as locals. -/
theorem Eval.mem_snapshot_iff {a : Activation} {p : String × Value} :
    p ∈ snapshot a ↔ a.local? p.1 = some p.2 := by
  rw [← lookup_snapshot]
  constructor
  · exact lookup_of_mem_fold _ [] (List.forall_mem_nil _) p
  · exact mem_of_lookup

theorem findBinding?_onInnermost {name x : String} {b : Binding} {frames : List Frame}
    (h : frames ≠ []) : findBinding? x (onInnermost (Json.insertMember name b) frames) =
      if x = name then some b else findBinding? x frames := by
  obtain ⟨inner, outer, rfl⟩ := List.exists_cons_of_ne_nil h
  show findBinding? x (Json.insertMember name b inner :: outer) = _
  unfold findBinding?
  rw [List.findSome?_cons, List.findSome?_cons, lookup_insertMember]
  by_cases hx : x = name
  · rw [if_pos hx, if_pos hx]
  · rw [if_neg hx, if_neg hx]

/-- A function that is bound hides what its name stood for, and nothing else. -/
theorem Machine.local?_declare (h : m.current.frames ≠ []) (p : String × FunctionDef) (x : String) :
    (m.declare p).current.local? x =
      if x = p.1 then some (m.closure p.2) else m.current.local? x := by
  unfold Activation.local?
  show ((findBinding? x (onInnermost _ m.current.frames)).map (·.value)).or
    (m.current.captured.lookup x) = _
  rw [findBinding?_onInnermost h]
  split <;> rfl

theorem Machine.frames_declare (h : m.current.frames ≠ []) (p : String × FunctionDef) :
    (m.declare p).current.frames ≠ [] := by
  obtain ⟨inner, outer, hframes⟩ := List.exists_cons_of_ne_nil h
  show onInnermost _ m.current.frames ≠ []
  rw [hframes]
  exact List.cons_ne_nil _ _

end

/-! ## How tall functions get -/

theorem ModuleBinding.Known.mono {heightOf heightOf' : Identity → Option Nat} {b : ModuleBinding}
    (h : b.Known heightOf) (hle : ∀ id n, heightOf id = some n → heightOf' id = some n) :
    b.Known heightOf' := by
  cases b with
  | constant v => exact Value.Known.mono h hle
  | function f captured => exact fun p hp => (h p hp).mono hle

/-- Values fit if the tallest does. -/
theorem Value.forall_fitsBelow_iff (limit level : Nat) (vs : List Value) :
    (∀ v ∈ vs, v.FitsBelow limit level) ↔
      itemsHeight vs = 0 ∨ level + itemsHeight vs ≤ limit := by
  induction vs with
  | nil => simp [itemsHeight]
  | cons v rest ih =>
    rw [List.forall_mem_cons, ih, itemsHeight, FitsBelow]
    omega

/-- The tallest of the locals that are visible is `n` levels tall, and heights can be told by
identities, of which all from the next one on are unused. -/
structure Machine.Tallest (m : Machine) (n : Nat) : Prop where
  frames : m.current.frames ≠ []
  known : ∃ heightOf : Identity → Option Nat, (∀ p ∈ snapshot m.current, p.2.Known heightOf) ∧
    (∀ p ∈ m.current.siblings, p.2.Known heightOf) ∧ ∀ id, m.next ≤ id → heightOf id = none
  height : Value.membersHeight (snapshot m.current) = n

namespace Machine.Tallest
variable {c : Context} {m : Machine} {n : Nat}

/-- A function that is bound is one level taller than all that it takes with it. -/
theorem declare (h : m.Tallest n) (p : String × FunctionDef) : (m.declare p).Tallest (n + 1) := by
  obtain ⟨hframes, ⟨heightOf, hvisible, hsiblings, hunused⟩, hheight⟩ := h
  have hclosure : (m.closure p.2).height = n + 1 := congrArg (· + 1) hheight
  -- What is visible afterwards is the new function, or was visible before.
  have hcases : ∀ q ∈ snapshot (m.declare p).current,
      q.2 = m.closure p.2 ∨ q ∈ snapshot m.current := by
    intro q hq
    rw [mem_snapshot_iff, local?_declare hframes] at hq
    split at hq
    · exact .inl (Option.some.inj hq).symm
    · exact .inr (mem_snapshot_iff.mpr hq)
  let heightOf' : Identity → Option Nat := fun id => if id = m.next then some (n + 1) else heightOf id
  have hle : ∀ id k, heightOf id = some k → heightOf' id = some k := by
    intro id k hk
    have hne : id ≠ m.next := by
      rintro rfl
      exact nomatch hk.symm.trans (hunused m.next (Nat.le_refl _))
    exact (if_neg hne).trans hk
  have hknown : (m.closure p.2).Known heightOf' := by
    refine Value.known_closure.mpr ⟨?_, fun q hq => (hvisible q hq).mono hle,
      fun q hq => (hsiblings q hq).mono hle⟩
    rw [hheight]
    exact if_pos rfl
  refine ⟨frames_declare hframes p, ⟨heightOf', ?_, fun q hq => (hsiblings q hq).mono hle, ?_⟩, ?_⟩
  · intro q hq
    rcases hcases q hq with hq | hq
    · exact hq ▸ hknown
    · exact (hvisible q hq).mono hle
  · intro id (hid : m.next + 1 ≤ id)
    have hne : id ≠ m.next := Nat.ne_of_gt hid
    exact (if_neg hne).trans (hunused id (Nat.le_of_succ_le hid))
  · refine Nat.le_antisymm (Value.membersHeight_le.mpr fun q hq => ?_) ?_
    · rcases hcases q hq with hq | hq
      · exact hq ▸ Nat.le_of_eq hclosure
      · exact Nat.le_succ_of_le (Value.membersHeight_le.mp (Nat.le_of_eq hheight) q hq)
    · have hmem : (p.1, m.closure p.2) ∈ snapshot (m.declare p).current :=
        mem_snapshot_iff.mpr ((local?_declare hframes p p.1).trans (if_pos rfl))
      exact hclosure ▸ Value.membersHeight_le.mp (Nat.le_refl _) _ hmem

/-- What is visible passes the check exactly if its tallest value does. -/
theorem checkHeights (h : m.Tallest n) (hn : 1 ≤ n) (limit : Nat) :
    Value.checkHeights limit 1 ((snapshot m.current).map (·.2)) =
      if n < limit then .ok () else .error (Value.tooDeep limit) := by
  obtain ⟨-, ⟨heightOf, hvisible, -, -⟩, hheight⟩ := h
  have hfits := Value.forall_fitsBelow_iff limit 1 ((snapshot m.current).map (·.2))
  rw [← Value.membersHeight_eq, hheight] at hfits
  rcases Value.checkHeights_cases limit 1 (List.forall_mem_map.mpr hvisible) with
    ⟨hok, hall⟩ | ⟨herror, hall⟩
  · rw [hok, if_pos]
    have := hfits.mp hall
    omega
  · rw [herror, if_neg]
    intro hlt
    exact hall (hfits.mpr (.inr (by omega)))

end Machine.Tallest

/-- **As many functions can be declared as levels are left.**  If the tallest local that is visible is
`n` levels tall, the functions of a list are all bound if they are no more than the levels that the
limit leaves above it.  If they are more, the list fails before any of its statements is run. -/
theorem Eval.outcome_hoist {c : Context} {m : Machine} {n : Nat} (h : m.Tallest n) (hn : 1 ≤ n)
    (body : List Stmt) :
    outcome c m (hoist body) =
      if (declarations body).length ≤ c.limits.valueDepth - n then
        (.ok (), m.declareAll (declarations body))
      else (.error (Value.tooDeep c.limits.valueDepth),
        m.declareAll ((declarations body).take (c.limits.valueDepth - n))) := by
  rw [hoist_eq]
  generalize declarations body = fs
  induction fs generalizing m n with
  | nil => rfl
  | cons p rest ih =>
    rw [outcome_declareAll_cons, h.checkHeights hn, List.length_cons]
    by_cases hlt : n < c.limits.valueDepth
    · rw [if_pos hlt]
      dsimp only
      rw [ih (h.declare p) (by omega)]
      have hleft : c.limits.valueDepth - n = c.limits.valueDepth - (n + 1) + 1 := by omega
      rw [hleft, List.take_succ_cons]
      by_cases hrest : rest.length ≤ c.limits.valueDepth - (n + 1)
      · rw [if_pos hrest, if_pos (by omega)]
        rfl
      · rw [if_neg hrest, if_neg (by omega)]
        rfl
    · rw [if_neg hlt, if_neg (by omega), show c.limits.valueDepth - n = 0 by omega]
      rfl

end Stencil.Script
