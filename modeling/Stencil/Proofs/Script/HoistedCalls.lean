import Stencil.Proofs.Script.Activations
import Stencil.Proofs.Script.Agreement.Programs

/-! # What the names in a hoisted function stand for

The functions that a list of statements declares are made one after the other, before any of the
statements is run, and each takes with it what is visible then (`Hoisted`).  So it finds **the
functions that come before it in the list**, its own name and whatever is visible around the list;
but neither those that come after it nor the names that the list declares otherwise
(`Eval.hoisted_calls_order`).

If all that mention a function come after it, nothing fails because it is not found, and the order of
functions that do not mention each other does not matter (`Eval.hoisted_calls`).
-/
namespace Stencil.Script
open Eval

/-- A function is run that took these locals with it. -/
def Machine.Runs (m : Machine) (captured : List (String × Value)) : Prop :=
  m.current.captured = captured

namespace Eval

/-- What a function that is run took with it is found in it, and taken on by functions that are made
in it. -/
theorem outcome_lookup_of_runs {m : Machine} {captured : List (String × Value)}
    (hm : m.Runs captured) (c : Context) {x : String} {v : Value}
    (hx : captured.lookup x = some v) :
    (∃ w, outcome c m (lookup x) = (.ok w, m)) ∧ ((snapshot m.current).lookup x).isSome := by
  obtain ⟨w, hlocal⟩ : ∃ w, m.current.local? x = some w := by
    unfold Activation.local?
    rw [hm, hx]
    cases (findBinding? x m.current.frames).map (·.value) with
    | none => exact ⟨v, rfl⟩
    | some w => exact ⟨w, rfl⟩
  refine ⟨⟨w, ?_⟩, ?_⟩
  · unfold lookup
    rw [outcome_bind, outcome_lookup?_eq, hlocal]
    rfl
  · rw [lookup_snapshot, hlocal]
    rfl

end Eval

/-- A function that a list declares, made on a machine after those before it in the list: what it
takes with it, and what it finds wherever it is run. -/
structure Hoisted (m m' : Machine) (before : List (String × FunctionDef))
    (p : String × FunctionDef) (id : Identity) (captured : List (String × Value)) : Prop where
  /-- The name of the function stands for it. -/
  bound : m'.current.local? p.1 = some (.closure id p.2 captured m.current.siblings)
  /-- It takes with it what is visible around the list. -/
  around : ∀ x ∉ before.map (·.1), captured.lookup x = m.current.local? x
  /-- It takes with it the functions before it. -/
  earlier : ∀ x ∈ before.map (·.1), ∃ q ∈ before, q.1 = x ∧ ∃ id' captured',
    captured.lookup x = some (.closure id' q.2 captured' m.current.siblings)
  /-- When it is called, its body is run with what it took along, and with its own name. -/
  runs : ∀ depth args, ∃ a, enter (depth + 1) (.closure id p.2 captured m.current.siblings) args =
      withActivation a (functionBody (callVia (enter depth)) p.2.body) ∧
    (p.2.isArrow = false → (a.local? p.1).isSome) ∧ ∀ m₁ : Machine, (m₁.enter a).Runs captured
  /-- What it took along stays with it through all steps of its body. -/
  stays : ∀ c m₁, m₁.Runs captured →
    (∀ depth e, (outcome c m₁ (expr (callVia (enter depth)) e)).2.Runs captured) ∧
      ∀ depth asBody s, (outcome c m₁ (stmt (callVia (enter depth)) asBody s)).2.Runs captured
  /-- What it took along is found, by it and by the functions that are made in it. -/
  finds : ∀ c m₁, m₁.Runs captured → ∀ x v, captured.lookup x = some v →
    (∃ w, outcome c m₁ (lookup x) = (.ok w, m₁)) ∧ ((snapshot m₁.current).lookup x).isSome

namespace Eval

/-- The last function that is declared under a name stands for it, made after those before it. -/
theorem exists_hoisted {c : Context} {m m' : Machine} {body : List Stmt}
    {before after : List (String × FunctionDef)} {p : String × FunctionDef}
    (hframes : m.current.frames ≠ []) (h : outcome c m (hoist body) = (.ok (), m'))
    (hbody : declarations body = before ++ p :: after) (hlast : p.1 ∉ after.map (·.1)) :
    ∃ id captured, Hoisted m m' before p id captured := by
  have hp : p ∈ declarations body := hbody ▸ List.mem_append_right _ List.mem_cons_self
  rw [hoist_eq] at h
  obtain rfl := eq_of_outcome_declareAll h
  refine ⟨(m.declareAll before).next, snapshot (m.declareAll before).current, ?_, ?_, ?_, ?_, ?_,
    fun c m₁ hm₁ _ _ => outcome_lookup_of_runs hm₁ c⟩
  · have hhere : LastNamed (declarations body) (declarations body).length p.1 before.length p := by
      rw [hbody]
      refine ⟨by simp, by simp, rfl, fun i q hlt _ hq hname => hlast ?_⟩
      obtain ⟨k, rfl⟩ := Nat.exists_eq_add_of_lt hlt
      have hafter : after[k]? = some q := by
        rw [List.getElem?_append_right (by omega)] at hq
        simpa [show before.length + k + 1 - before.length = k + 1 by omega] using hq
      exact hname ▸ List.mem_map_of_mem (List.mem_of_getElem? hafter)
    have hnamed := Machine.named_local? hframes (declarations body) (declarations body).length p.1
    obtain ⟨i, q, hq, hlocal⟩ := hnamed.exists_last hhere.lt hhere.here rfl
    obtain rfl := hq.unique hhere
    obtain rfl := Option.some.inj (hq.here.symm.trans hhere.here)
    rw [List.take_length] at hlocal
    rw [hlocal, hbody, List.take_left, Machine.closure, Machine.siblings_declareAll]
  · intro x hx
    have hnamed := Machine.named_local? hframes before before.length x
    rw [List.take_length] at hnamed
    rw [lookup_snapshot]
    exact hnamed.eq_of_forall_ne fun q hq hname => hx (hname ▸ List.mem_map_of_mem hq)
  · intro x hx
    obtain ⟨q, hq, hname⟩ := List.mem_map.mp hx
    obtain ⟨j, hj, hqj⟩ := List.getElem_of_mem hq
    have hnamed := Machine.named_local? hframes before before.length x
    rw [List.take_length] at hnamed
    obtain ⟨i, q', hq', hlocal⟩ :=
      hnamed.exists_last hj (hqj ▸ List.getElem?_eq_getElem hj) hname
    refine ⟨q', List.mem_of_getElem? hq'.here, hq'.name, (m.declareAll (before.take i)).next,
      snapshot (m.declareAll (before.take i)).current, ?_⟩
    rw [lookup_snapshot, hlocal, Machine.closure, Machine.siblings_declareAll]
  · intro depth args
    refine ⟨_, rfl, fun harrow => ?_, fun _ => rfl⟩
    exact RunAlike.isSome_activationOf (.inr ⟨(exists_of_mem_declarations hp).1, harrow⟩) _ _ args
  · intro c m₁ hm₁
    refine ⟨fun depth e => ?_, fun depth asBody s => ?_⟩
    · exact ((stack_restored c).2.1 depth e m₁).2.2.1.trans hm₁
    · exact ((stack_restored c).2.2.1 depth asBody s m₁).2.2.1.trans hm₁

/-- **What hoisted functions find, and when their order does not matter.**

1. The last function that a list declares under a name is made with the functions before it, with
   what is visible around the list and with nothing else, and finds that wherever it is run.
2. If no function before it mentions it, and none that was made before the list, then neither the
   statements of the list nor the functions that they call fail because it is not found; nor does a
   program whose statements these are.
3. Programs whose functions are declared in another order, in which of any two that mention one
   another or have the same name the first one stays first, give values that scripts cannot tell
   apart, or the same error, unless a value is nested too deep on one of the sides. -/
theorem hoisted_calls {c : Context} {m m' : Machine} {body : List Stmt}
    {before after : List (String × FunctionDef)} {p : String × FunctionDef}
    (hframes : m.current.frames ≠ []) (h : outcome c m (hoist body) = (.ok (), m'))
    (hbody : declarations body = before ++ p :: after) :
    (p.1 ∉ after.map (·.1) → ∃ id captured, Hoisted m m' before p id captured) ∧
    (p.2.isArrow = false → (∀ q ∈ before, p.1 ∉ q.2.names) →
      (Globals.firstIdentity ≤ m.next → c.IsUniform m.next (p.1 ∉ ·.names) →
        m.IsKnown (p.1 ∉ ·.names) → ∀ depth statements,
          (outcome c m' (stmts (callVia (enter depth)) statements)).1 ≠ .error (.unbound p.1)) ∧
      ∀ next, Globals.firstIdentity ≤ next → c.IsUniform next (p.1 ∉ ·.names) →
        (runProgram c next body).1 ≠ .error (.unbound p.1)) ∧
    ∀ next π, Globals.firstIdentity ≤ next → c.IsUniform next (fun _ => True) → π.Rearrange →
      Corresponds c.limits.valueDepth (fun _ => False) Value.Resembles (runProgram c next body).1
        (runProgram c next (Stmt.reorderList π body)).1 := by
  refine ⟨exists_hoisted hframes h hbody, fun harrow hbefore => ⟨?_, ?_⟩, ?_⟩
  · intro hbase hc hm depth statements
    exact stmts_ne_unbound hbase hc hframes hm hbody harrow hbefore h depth statements
  · exact fun next hbase hc => runProgram_ne_unbound hbase hc hbody harrow hbefore
  · exact fun next π hbase hc hπ => runProgram_reorderList hbase hc hπ body

/-! ### Two functions -/

/-- The function `function a() { return b() }`. -/
def callsB : FunctionDef :=
  .mk (some "a") [] (.block [.return (some (.call (.name "b") [] false))]) false

/-- The function `function a() { return b }`. -/
def readsB : FunctionDef :=
  .mk (some "a") [] (.block [.return (some (.name "b"))]) false

/-- The function `function b() { return 's' }`. -/
def givesText : FunctionDef :=
  .mk (some "b") [] (.block [.return (some (.string "s"))]) false

/-- The function `function d() { return true }`. -/
def givesTrue : FunctionDef :=
  .mk (some "d") [] (.block [.return (some (.bool true))]) false

/-- The statement `a()`. -/
def callOfA : Stmt :=
  .expr (.call (.name "a") [] false)

/-- Two functions are bound when nothing else is. -/
theorem outcome_declareAll_pair {c : Context} (hc : c.limits.valueDepth = 256) (next : Identity)
    (p q : String × FunctionDef) :
    outcome c { next } (declareAll [p, q]) =
      (.ok (), ({ next } : Machine).declareAll [p, q]) := by
  have hfirst : Value.checkHeights 256 1 ((snapshot ({ next } : Machine).current).map (·.2)) =
      .ok () := rfl
  have hsecond : Value.checkHeights 256 1
      ((snapshot (({ next } : Machine).declare p).current).map (·.2)) = .ok () := by
    show Value.checkHeights 256 1 [.closure next p.2 [] []] = .ok ()
    simp [Value.checkHeights, Value.measureItems, Value.measureMembers, Value.measure,
      Value.known, Value.noted, Except.map]
  rw [outcome_declareAll_cons, hc, hfirst]
  dsimp only
  rw [outcome_declareAll_cons, hc, hsecond]
  rfl

/-- A context in which only the global names stand for anything, and in which the host answers with
`undefined`. -/
theorem isUniform_of_budget (budget : Budget) {D : FunctionDef → Prop} {base : Identity}
    (hbase : Globals.firstIdentity ≤ base) : ({ budget } : Context).IsUniform base D where
  scope name v hv := by
    have hmem : (name, v) ∈ Globals.table := mem_of_lookup hv
    refine ⟨fun ρ hρ => ?_, Globals.within_table (fun _ => trivial) _ hmem⟩
    exact Globals.rename_table (fun id hid => hρ id (Nat.lt_of_lt_of_le hid hbase)) _ hmem
  natives R hR _ _ _ _ _ := .inl ⟨_, _, rfl, rfl, hR.plain rfl⟩

/-- Two functions that do not mention each other may change places. -/
theorem rearranged_pair {f g : FunctionDef} {x y : String} (hf : f.name = some x)
    (hg : g.name = some y) (hne : x ≠ y) (hleft : y ∉ f.names) (hright : x ∉ g.names) :
    Stmt.Rearranged [.function f, .function g] [.function g, .function f] where
  perm := .swap ..
  slots := .cons (.function f g) (.cons (.function g f) .nil)
  shuffle := by
    have hdeclared : declarations [.function f, .function g] = [(x, f), (y, g)] := by
      simp [declarations, declaredFunction?, hf, hg]
    have hdeclared' : declarations [.function g, .function f] = [(y, g), (x, f)] := by
      simp [declarations, declaredFunction?, hf, hg]
    rw [hdeclared, hdeclared']
    refine ⟨Equiv.swap 0 1, rfl, fun i => ?_, fun i j p q hij hp hq => .inl ?_⟩
    · rcases i with _ | _ | i
      · rfl
      · rfl
      · rw [Equiv.swap_apply_of_ne_of_ne (by omega) (by omega)]
        rfl
    · obtain ⟨hj, -⟩ := List.getElem?_eq_some_iff.mp hq
      have hlast : i = 0 ∧ j = 1 := by
        rw [List.length_cons, List.length_singleton] at hj
        omega
      obtain ⟨rfl, rfl⟩ := hlast
      cases hp
      cases hq
      exact ⟨hne, hleft, hright⟩

theorem hoisted_calls_independent :
    let c : Context := { budget := { limit := 5000 } }
    let m : Machine := { next := Globals.firstIdentity }
    let body : List Stmt := [.function givesText, .function givesTrue]
    m.current.frames ≠ [] ∧ declarations body = [("b", givesText)] ++ ("d", givesTrue) :: [] ∧
      ∃ m', outcome c m (hoist body) = (.ok (), m') ∧
        (∃ id captured, Hoisted m m' [("b", givesText)] ("d", givesTrue) id captured) ∧
        (∀ depth, (outcome c m' (stmts (callVia (enter depth)) body)).1 ≠ .error (.unbound "d")) ∧
        Corresponds c.limits.valueDepth (fun _ => False) Value.Resembles
          (runProgram c Globals.firstIdentity body).1
          (runProgram c Globals.firstIdentity [.function givesTrue, .function givesText]).1 := by
  intro c m body
  have hframes : m.current.frames ≠ [] := List.cons_ne_nil _ _
  have hbody : declarations body = [("b", givesText)] ++ ("d", givesTrue) :: [] := rfl
  have hrun : outcome c m (hoist body) = (.ok (), m.declareAll (declarations body)) := by
    rw [hoist_eq, hbody]
    exact outcome_declareAll_pair rfl _ _ _
  have huniform : ∀ D, c.IsUniform Globals.firstIdentity D := fun _ =>
    isUniform_of_budget _ (Nat.le_refl _)
  have hbefore : ∀ q ∈ [("b", givesText)], "d" ∉ q.2.names := by decide
  obtain ⟨hfinds, hbound, horder⟩ := hoisted_calls hframes hrun hbody
  refine ⟨hframes, hbody, _, hrun, hfinds List.not_mem_nil, fun depth => ?_, ?_⟩
  · exact (hbound rfl hbefore).1 (Nat.le_refl _) (huniform _) (Machine.isKnown_new _) depth body
  · have hswap : Stmt.Rearranged body [.function givesTrue, .function givesText] :=
      rearranged_pair rfl rfl (by decide) (by decide) (by decide)
    have hrearranged := horder Globals.firstIdentity _ (Nat.le_refl _) (huniform _)
      (Orders.rearrange_exchange hswap)
    rwa [Stmt.reorderList_exchange] at hrearranged

/-- A program that declares two functions is run. -/
theorem runProgram_pair {c : Context} (hc : c.limits.valueDepth = 256) {body : List Stmt}
    {p q : String × FunctionDef} (hbody : declarations body = [p, q]) :
    (runProgram c 0 body).1 = (outcome c (({ next := 0 } : Machine).declareAll [p, q])
      (programStmts (topCall c.limits) body)).1 := by
  rw [runProgram, runFrom_eq, program, outcome_bind, outcome_limits]
  unfold programWith
  dsimp only
  rw [hoist_eq, hbody, outcome_bind, outcome_declareAll_pair hc]

/-- The function that comes first does not find the other one, whatever the order in which they are
called; in the other order it does.  A name that is declared otherwise is not found either. -/
theorem hoisted_calls_order :
    let c : Context := { budget := { limit := 5000 } }
    let run := fun body => (runProgram c 0 body).1
    run [.function callsB, .function givesText, callOfA] = .error (.unbound "b") ∧
      run [.function givesText, .function callsB, callOfA] = .ok (.string "s") ∧
      run [.decl .letDecl [("b", some (.string "s"))], .function readsB, callOfA] =
        .error (.unbound "b") := by
  intro c run
  refine ⟨?_, ?_, rfl⟩
  · exact (runProgram_pair rfl (p := ("a", callsB)) (q := ("b", givesText)) rfl).trans rfl
  · exact (runProgram_pair rfl (p := ("b", givesText)) (q := ("a", callsB)) rfl).trans rfl

end Eval
end Stencil.Script
