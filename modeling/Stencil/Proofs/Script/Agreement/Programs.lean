import Stencil.Proofs.Script.Agreement.Hoisting
import Stencil.Proofs.Script.MatchLogic.Evaluator

/-! # Programs whose functions are declared in another order

That steps run alike is a logic of steps that match (`MatchLogic.agreeing`), so whatever is run does
the same with lists of statements rearranged.
-/
namespace Stencil.Script

/-- **That steps run alike is a logic of steps that match.** -/
def MatchLogic.agreeing (c : Context) (bound : String → Prop) (base : Identity)
    (D : FunctionDef → Prop) (hbase : Globals.firstIdentity ≤ base) (hc : c.IsUniform base D)
    (hD : ∀ f, D f → ∀ x ∈ f.names, ¬ bound x) : MatchLogic where
  World := Twinning base
  Le := Twinning.Le
  refl := Twinning.Le.refl
  trans := Twinning.Le.trans
  Match := RunAlike.Agree bound
  Mode := String → Prop
  trees := Trees.rearranged
  Holds A w _ _ x x' Q := RunAlike c bound A w x x' Q
  mono hw h := h.mono hw.joined
  resembles w := w.resemblance bound
  builtin b := .native (.builtin b)
  modules {w} p hp := by
    have hknown : p.2.IsKnown base D := by
      refine ⟨fun ρ hρ => ?_, Globals.within_modules (fun _ => trivial) p hp⟩
      exact Globals.rename_modules (fun id hid => hρ id (Nat.lt_of_lt_of_le hid hbase)) p hp
    exact hknown.agrees w.older hD
  result := RunAlike.result
  bind := RunAlike.bind
  fail := RunAlike.fail
  ofCall h := h
  ofPlaces h := h
  ofBlock h := h
  tick := RunAlike.tick
  charge := RunAlike.charge
  limits := RunAlike.limits
  now := RunAlike.now
  random := RunAlike.random
  isHelper := RunAlike.isHelper
  isLocal := RunAlike.isLocal
  isDeclared := RunAlike.isDeclared
  lookup? name hname := (RunAlike.lookup? hc hD name hname).weaken fun _ _ _ _ h => h.1
  lookup name hname := RunAlike.lookup hc hD name hname
  newArray := RunAlike.newArray
  newObject h := RunAlike.newObject h.1
  newClosure h := RunAlike.newClosure h.1 h.2
  plainArray items h := RunAlike.plainArray (List.forall₂_same.mpr fun v hv =>
    .plain (h.isPlain v (Array.mem_toList_iff.mp hv)))
  plainObject members h := RunAlike.plainObject (List.forall₂_same.mpr fun p hp =>
    ⟨rfl, .plain (h p hp).2⟩)
  entries h := RunAlike.entries h.1
  parseJson := RunAlike.parseJson
  fetch := RunAlike.fetch
  runHost {_ _ _ _ name _ _ _} _ hargs := RunAlike.runHost hc hD name hargs
  assign target htarget _ hv := RunAlike.assign hc hD target htarget.reads hv
  changeInPlace op hargs htarget := RunAlike.changeInPlace hc hD op hargs fun w =>
    (htarget w).weaken fun _ _ _ _ h => ⟨h.1.reads, h.2.2⟩
  assignable := rfl
  declare {_ _ _ _ _ name constant _} hconstant hv :=
    hconstant.symm ▸ RunAlike.declare name constant hv
  hoist := by
    rintro A w _ body _ ⟨π, hπ, rfl, hnames⟩
    exact RunAlike.hoist hπ hnames
  complete := RunAlike.complete
  takeCompletion := RunAlike.takeCompletion
  noteExport _ := RunAlike.noteExport _ _
  setDefault _ := RunAlike.setDefault _ _
  withFrame := RunAlike.withFrame
  loop hgo hturn := RunAlike.loop (fun _ => .normal) hgo hturn
  function := by
    intro w id f captured siblings id' f' captured' siblings' hclosure
    obtain ⟨π, hπ, rfl⟩ := hclosure.closures.rearranged
    refine ⟨(· ∈ f.names), ?_, fun hargs h => RunAlike.withActivation hclosure hargs h⟩
    rw [FunctionDef.body_reorder]
    exact f.body.like_reorder hπ fun x hx => f.names_body ▸ hx

/-! ## Where runs begin -/

/-- The identities that were given out before belong to themselves, and no others. -/
def Twinning.start (base : Identity) : Twinning base where
  next := base
  joined a a' := a' = a ∧ a < base
  base_le := Nat.le_refl base
  older _ hid := ⟨rfl, hid⟩
  lt := by
    rintro a _ ⟨rfl, ha⟩
    exact ⟨ha, ha⟩
  unique := by
    rintro a _ b _ ⟨rfl, -⟩ ⟨rfl, -⟩
    rfl

/-- What a name of a module stands for is older than a bound, with functions that are among the
given ones. -/
structure ModuleBinding.IsKnown (base : Identity) (D : FunctionDef → Prop) (b : ModuleBinding) :
    Prop where
  older : ∀ ρ : Identity → Identity, (∀ id < base, ρ id = id) → b.rename ρ = b
  within : b.Within D fun _ => True

/-- All values that can be reached in a machine were made before, by functions that are among the
given ones. -/
structure Machine.IsKnown (D : FunctionDef → Prop) (m : Machine) : Prop where
  frames : ∀ frame ∈ m.current.frames, ∀ p ∈ frame, p.2.value.IsKnown m.next D
  captured : ∀ p ∈ m.current.captured, p.2.IsKnown m.next D
  siblings : ∀ p ∈ m.current.siblings, p.2.IsKnown m.next D
  completion : m.completion.IsKnown m.next D

section
variable {bound : String → Prop} {A : String → Prop} {D : FunctionDef → Prop} {m : Machine}

theorem Value.isKnown_undefined (base : Identity) : Value.undefined.IsKnown base D :=
  ⟨fun _ _ => rfl, Value.within_undefined⟩

/-- At the start of a run nothing can be reached. -/
theorem Machine.isKnown_new (next : Identity) : ({ next } : Machine).IsKnown D where
  frames frame hframe p hp := by
    obtain rfl := List.mem_singleton.mp hframe
    exact nomatch hp
  captured := List.forall_mem_nil _
  siblings := List.forall_mem_nil _
  completion := Value.isKnown_undefined next

theorem ModuleBinding.IsKnown.agrees {base : Identity} {I : Identity → Identity → Prop}
    {b : ModuleBinding} (h : b.IsKnown base D) (hI : ∀ id < base, I id id)
    (hD : ∀ f, D f → ∀ x ∈ f.names, ¬ bound x) : b.Agrees bound I := by
  have hbelow : ∀ id < base, shiftFrom base 1 id = id := fun id hid => if_pos hid
  exact b.agrees_of_rename (fun id hid => hI id (lt_of_shiftFrom_eq hid)) hD (h.older _ hbelow)
    h.within

/-- A machine in which everything is known agrees with itself if no known function mentions a bound
name. -/
theorem Machine.IsKnown.agrees (hm : m.IsKnown D) (hD : ∀ f, D f → ∀ x ∈ f.names, ¬ bound x) :
    m.Agrees bound A (Twinning.start m.next) m where
  current := by
    have hI := (Twinning.start m.next).older
    refine ⟨List.forall₂_same.mpr fun frame hframe x => ?_, fun x _ => ?_, rfl, fun x b hb => ?_⟩
    · cases hx : frame.lookup x with
      | none => exact .none
      | some b => exact .some ⟨rfl, (hm.frames frame hframe (x, b) (mem_of_lookup hx)).agrees hI hD⟩
    · cases hx : m.current.captured.lookup x with
      | none => exact .none
      | some v => exact .some ((hm.captured (x, v) (mem_of_lookup hx)).agrees hI hD)
    · exact (hm.siblings (x, b) (mem_of_lookup hb)).agrees hI hD
  waiting := rfl
  ticks := rfl
  allocated := rfl
  seed := rfl
  next := rfl
  next' := rfl
  completion := hm.completion.agrees (Twinning.start m.next).older hD

end

/-! ## Names that have to be bound -/

theorem Corresponds.ne_unbound {limit : Nat} {bound : String → Prop} {α : Type} {Q : α → α → Prop}
    {r : Except ScriptError α} (h : Corresponds limit bound Q r r) {x : String} (hx : bound x) :
    r ≠ .error (.unbound x) := by
  rintro rfl
  cases h with
  | error e h => exact h x hx rfl

namespace Machine
variable {m : Machine} {before after : List (String × FunctionDef)} {p : String × FunctionDef}

/-- From its declaration on a function is found. -/
theorem isSome_local?_declareAll (h : m.current.frames ≠ []) {k : Nat} (hk : before.length < k) :
    ((m.declareAll ((before ++ p :: after).take k)).current.local? p.1).isSome := by
  have hp : (before ++ p :: after)[before.length]? = some p := by simp
  obtain ⟨i, q, -, hq⟩ := (named_local? h (before ++ p :: after) k p.1).exists_last hk hp rfl
  rw [hq]
  rfl

/-- If no function before it mentions it, a function is found by whoever mentions it. -/
theorem supplies_of_notMem (h : m.current.frames ≠ []) (hname : p.2.name = some p.1)
    (harrow : p.2.isArrow = false) (hbefore : ∀ q ∈ before, p.1 ∉ q.2.names) :
    m.Supplies (· = p.1) (before ++ p :: after) := by
  rintro k q hq x hx rfl
  rcases Nat.lt_trichotomy k before.length with hlt | rfl | hlt
  · rw [List.getElem?_append_left hlt] at hq
    exact (hbefore q (List.mem_of_getElem? hq) hx).elim
  · obtain rfl : p = q := by simpa using hq
    exact .inr ⟨hname, harrow⟩
  · refine .inl ?_
    rw [Eval.lookup_snapshot]
    exact isSome_local?_declareAll h hlt

end Machine

namespace Eval
variable {c : Context} {m m' : Machine} {body : List Stmt}
  {before after : List (String × FunctionDef)} {p : String × FunctionDef}

/-- What runs alike with itself when functions of a list have been bound does not fail because a
function is not found that none before it mentions. -/
theorem outcome_ne_unbound {α : Type} {x : Eval α} {Q : Twinning m.next → α → α → Prop}
    (hframes : m.current.frames ≠ []) (hm : m.IsKnown (p.1 ∉ ·.names))
    (hbody : declarations body = before ++ p :: after) (harrow : p.2.isArrow = false)
    (hbefore : ∀ q ∈ before, p.1 ∉ q.2.names)
    (hx : ∀ w, RunAlike c (· = p.1) (fun _ => True) w x x Q) :
    (outcome c (m.declareAll (declarations body)) x).1 ≠ .error (.unbound p.1) := by
  have hp : p ∈ declarations body := hbody ▸ List.mem_append_right _ List.mem_cons_self
  have hD : ∀ f : FunctionDef, p.1 ∉ f.names → ∀ x ∈ f.names, ¬ x = p.1 :=
    fun f hf x hx he => hf (he ▸ hx)
  have hsupplies : m.Supplies (· = p.1) (declarations body) :=
    hbody ▸ Machine.supplies_of_notMem hframes (exists_of_mem_declarations hp).1 harrow hbefore
  have hleft := (Regrouped.refl (declarations body)).left_declareAll
    (hm.agrees (A := fun _ => True) hD) (fun _ _ _ _ => trivial) hsupplies
  have hbinds : (m.declareAll (declarations body)).Binds (· = p.1) fun _ => True := by
    rintro _ - rfl
    rw [hbody, ← (before ++ p :: after).take_length]
    exact Machine.isSome_local?_declareAll hframes (by simp)
  exact (hx _ _ _ hleft.agrees hbinds).ne_unbound rfl

/-- Nothing that is run in a list after its functions were bound fails because a function is not
found that none before it mentions. -/
theorem stmts_ne_unbound (hbase : Globals.firstIdentity ≤ m.next)
    (hc : c.IsUniform m.next (p.1 ∉ ·.names)) (hframes : m.current.frames ≠ [])
    (hm : m.IsKnown (p.1 ∉ ·.names)) (hbody : declarations body = before ++ p :: after)
    (harrow : p.2.isArrow = false) (hbefore : ∀ q ∈ before, p.1 ∉ q.2.names)
    (h : outcome c m (hoist body) = (.ok (), m')) (depth : Nat) (statements : List Stmt) :
    (outcome c m' (stmts (callVia (enter depth)) statements)).1 ≠ .error (.unbound p.1) := by
  let L := MatchLogic.agreeing c (· = p.1) m.next _ hbase hc
    fun f hf x hx he => hf (he ▸ hx)
  rw [hoist_eq] at h
  obtain rfl := eq_of_outcome_declareAll h
  refine outcome_ne_unbound (Q := L.MatchFlow) hframes hm hbody harrow hbefore fun w => ?_
  have hlike := Stmt.allLike_reorderList (A := fun _ => True) Orders.rearrange_same statements
    fun _ _ => trivial
  rw [Stmt.reorderList_same] at hlike
  exact MatchLogic.stmts (L := L) (MatchLogic.callVia (MatchLogic.enter depth)) w statements hlike

/-- No program fails because a function is not found that none before it mentions. -/
theorem runProgram_ne_unbound {next : Identity} (hbase : Globals.firstIdentity ≤ next)
    (hc : c.IsUniform next (p.1 ∉ ·.names)) (hbody : declarations body = before ++ p :: after)
    (harrow : p.2.isArrow = false) (hbefore : ∀ q ∈ before, p.1 ∉ q.2.names) :
    (runProgram c next body).1 ≠ .error (.unbound p.1) := by
  let L := MatchLogic.agreeing c (· = p.1) next _ hbase hc
    fun f hf x hx he => hf (he ▸ hx)
  rw [runProgram, runFrom_eq, program, outcome_bind, outcome_limits]
  show (outcome c { next } (hoist body >>= fun _ => programStmts (topCall c.limits) body)).1 ≠ _
  rw [outcome_bind, hoist_eq]
  rcases RunAlike.outcome_declareAll_cases c { next } (declarations body) with hrun | hrun
  · rw [hrun]
    refine outcome_ne_unbound (Q := L.Match) (List.cons_ne_nil _ _) (Machine.isKnown_new next) hbody
      harrow hbefore fun w => ?_
    have hlike := Stmt.allLike_reorderList (A := fun _ => True) Orders.rearrange_same body
      fun _ _ => trivial
    rw [Stmt.reorderList_same] at hlike
    exact MatchLogic.programStmts (L := L)
      (MatchLogic.callVia (MatchLogic.enter (c.limits.callDepth - 1))) w hlike
  · generalize (declareAll (declarations body)).outcome c { next } = run at hrun ⊢
    obtain ⟨r, m₁⟩ := run
    obtain rfl : r = _ := hrun
    exact nofun

end Eval

/-! ## Programs in another order -/

/-- Scripts cannot tell the values apart. -/
def Value.Resembles (v v' : Value) : Prop :=
  ∃ R, Resemblance R ∧ R v v'

/-- Programs whose lists of statements are rearranged give values that scripts cannot tell apart, or
the same error, unless a value is nested too deep on one of the sides. -/
theorem Eval.runProgram_reorderList {c : Context} {next : Identity} {π : Orders}
    (hbase : Globals.firstIdentity ≤ next) (hc : c.IsUniform next fun _ => True)
    (hπ : π.Rearrange) (body : List Stmt) :
    Corresponds c.limits.valueDepth (fun _ => False) Value.Resembles (runProgram c next body).1
      (runProgram c next (Stmt.reorderList π body)).1 := by
  have hD : ∀ f : FunctionDef, True → ∀ x ∈ f.names, ¬ False := fun _ _ _ _ => id
  let L := MatchLogic.agreeing c (fun _ => False) next _ hbase hc hD
  have hlike := Stmt.allLike_reorderList (A := fun _ => True) hπ body fun _ _ => trivial
  have hrun := MatchLogic.programWith (L := L)
    (MatchLogic.callVia (MatchLogic.enter (c.limits.callDepth - 1))) (Twinning.start next)
    ⟨π, hπ, rfl, fun _ _ => trivial⟩ hlike
  have hagrees : ({ next } : Machine).Agrees (fun _ => False) (fun _ => True)
      (Twinning.start next) { next } := (Machine.isKnown_new next).agrees hD
  rw [runProgram, runProgram, runFrom_eq, runFrom_eq, program, program, outcome_bind, outcome_bind,
    outcome_limits]
  refine Corresponds.imp (hrun _ _ hagrees fun _ _ => False.elim) ?_
  rintro v v' ⟨w, -, hv, -⟩
  exact ⟨_, w.resemblance _, hv⟩

end Stencil.Script
