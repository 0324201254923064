import Stencil.Proofs.Helper.Discarded
import Stencil.Proofs.Script.Activations
import Stencil.Proofs.Script.Steps

/-! # What the names in a helper stand for

A function takes with it the locals that were visible where it was made (`local?_newClosure`), and
while it runs its names stand for its own locals, for those, for the names of its module and for
what can be read everywhere, in this order (`outcome_lookup?_eq`).

When a module is loaded, the locals that its functions took with them lose every name that the
module binds at its top.  The values that the top had while the module ran thereby give way to those
that it has in the end.  But a parameter of an enclosing call goes the same way if it is called like
something at the top: **a helper finds every local that it took with it under its name, unless the
module binds the name at its top** (`scoping_of_harvest`); then it finds what the module binds
(`scoping_of_harvest_shadowed`).
-/
namespace Stencil
open Stencil.Script

/-! ## Functions of a module that is loaded -/

namespace HelperTable.Harvest
open Eval
variable {h : Harvest} {captured : List (String × Value)} {c : Context} {m : Machine}

/-- A local is kept unless the module binds its name at the top. -/
theorem lookup_rescope (h : Harvest) (captured : List (String × Value)) (name : String) :
    (h.rescope captured).lookup name =
      if h.isTop name then none else captured.lookup name := by
  unfold rescope
  induction captured with
  | nil => cases h.isTop name <;> rfl
  | cons p rest ih =>
    obtain ⟨key, v⟩ := p
    rw [List.filter_cons, List.lookup_cons]
    by_cases hname : name = key
    · subst hname
      cases htop : h.isTop name <;> simp [htop, ih]
    · rw [beq_false_of_ne hname]
      dsimp only
      split
      · rw [List.lookup_cons, beq_false_of_ne hname, ih]
      · exact ih

/-- A function of the module is run that was made where these locals were visible. -/
structure Runs (h : Harvest) (captured : List (String × Value)) (m : Machine) : Prop where
  captured : m.current.captured = h.rescope captured
  siblings : m.current.siblings = h.siblings

/-- What a value that the module binds at its top is to its functions; one that is a function of a
script gets an identity of its own. -/
def atTop (h : Harvest) (id : Identity) : Value → Value
  | .closure _ f captured _ => .closure id f (h.rescope captured) h.siblings
  | v => v

/-- The names of a module stand for what it binds at its top. -/
theorem lookup_siblings (h : Harvest) (name : String) :
    h.siblings.lookup name = (h.output.bindings.lookup name).map h.sibling := by
  unfold siblings
  induction h.output.bindings with
  | nil => rfl
  | cons p rest ih =>
    obtain ⟨key, v⟩ := p
    rw [List.map_cons, List.lookup_cons, List.lookup_cons]
    cases name == key with
    | true => rfl
    | false => exact ih

namespace Runs

/-- A call starts to run the function. -/
theorem enter (self : Value) (f : FunctionDef) (args : List Value) :
    h.Runs captured (m.enter (activationOf self f (h.rescope captured) h.siblings args)) :=
  ⟨rfl, rfl⟩

/-- The function runs on until its call is left: every block, every expression and every statement
of it leaves it running. -/
theorem expr (hm : h.Runs captured m) (depth : Nat) (e : Expr) :
    h.Runs captured ((expr (callVia (Eval.enter depth)) e).outcome c m).2 := by
  obtain ⟨-, -, hcaptured, hsiblings, -⟩ := (stack_restored c).2.1 depth e m
  exact ⟨hcaptured.trans hm.captured, hsiblings.trans hm.siblings⟩

theorem stmt (hm : h.Runs captured m) (depth : Nat) (asBody : Bool) (s : Stmt) :
    h.Runs captured ((stmt (callVia (Eval.enter depth)) asBody s).outcome c m).2 := by
  obtain ⟨-, -, hcaptured, hsiblings⟩ := (stack_restored c).2.2.1 depth asBody s m
  exact ⟨hcaptured.trans hm.captured, hsiblings.trans hm.siblings⟩

/-- The local value of a name: what the call binds, and then what the function took with it, less
what is bound at the top. -/
theorem local? (hm : h.Runs captured m) (name : String) :
    m.current.local? name = ((findBinding? name m.current.frames).map (·.value)).or
      (if h.isTop name then none else captured.lookup name) := by
  rw [Activation.local?, hm.captured, lookup_rescope]

/-- What the module binds at its top is found as it was in the end, a function with the names of the
module as its own. -/
theorem outer? (hm : h.Runs captured m) {name : String} {v : Value}
    (hv : h.output.bindings.lookup name = some v) :
    (outcome c m (Eval.outer? name)).1 = .ok (some (h.atTop m.next v)) := by
  have hsibling : m.current.siblings.lookup name = some (h.sibling v) := by
    rw [hm.siblings, lookup_siblings, hv]
    rfl
  have hfound : (outcome c m (lookupSibling? name)).1 = .ok (some (h.atTop m.next v)) := by
    unfold lookupSibling?
    rw [outcome_bind, outcome_get]
    simp only [hsibling]
    rw [hm.siblings]
    cases v <;> rfl
  unfold Eval.outer?
  rw [outcome_bind_of_ok hfound]
  rfl

end Runs
end HelperTable.Harvest

open Eval in
/-- **A helper finds the locals that it took with it, unless the module binds their names at its
top.**  A function takes with it every local value that is visible where it is made.  When a module
is accepted, every function that it binds or exports and that promises a value becomes a helper;
while that runs, whatever it has done so far, a name that it does not bind itself stands for the
value that was taken with it under this name, unless the module binds the name at its top; then it
stands for what the module binds. -/
theorem scoping_of_harvest {bounds : Helper.Bounds} {limits : Limits} {host : Host}
    {next : Identity} {source : String} {table : HelperTable} {next' : Identity}
    (h : HelperTable.ofModule bounds limits host next source = (.ok table, next')) :
    (∀ c m f v m', outcome c m (newClosure f) = (.ok v, m') →
      ∃ id captured, v = .closure id f captured m.current.siblings ∧
        ∀ name, captured.lookup name = m.current.local? name) ∧
    ∃ harvest, HelperTable.Harvests bounds limits host next source harvest ∧
      ∀ name id f captured outer,
        (name, .closure id f captured outer) ∈ harvest.candidates → f.promisesValue = true →
        ∃ helper id', (name, helper) ∈ table ∧
          helper.function = .closure id' f (harvest.rescope captured) harvest.siblings ∧
          (∀ depth args, ∃ a, enter (depth + 1) helper.function args =
              withActivation a (functionBody (callVia (enter depth)) f.body) ∧
            ∀ m : Machine, harvest.Runs captured (m.enter a)) ∧
          ∀ c m, harvest.Runs captured m →
            (∀ depth e, harvest.Runs captured (outcome c m (expr (callVia (enter depth)) e)).2) ∧
            (∀ depth asBody s,
              harvest.Runs captured (outcome c m (stmt (callVia (enter depth)) asBody s)).2) ∧
            ∀ x v, findBinding? x m.current.frames = none → captured.lookup x = some v →
              if harvest.isTop x then
                outcome c m (lookup? x) = outcome c m (outer? x) ∧
                  ∀ w, harvest.output.bindings.lookup x = some w →
                    (outcome c m (lookup? x)).1 = .ok (some (harvest.atTop m.next w))
              else outcome c m (lookup? x) = (.ok (some v), m) := by
  refine ⟨fun c m f v m' => local?_newClosure, ?_⟩
  obtain ⟨harvest, next₁, hharvest, rfl⟩ := HelperTable.exists_harvest h
  refine ⟨harvest, hharvest, fun name id f captured outer hv hpromise => ?_⟩
  obtain ⟨helper, id', hmem, hfunction⟩ := HelperTable.Harvest.mem_table hv hpromise next₁
  refine ⟨helper, id', hmem, hfunction, fun depth args => ?_, fun c m hm => ?_⟩
  · refine ⟨activationOf helper.function f (harvest.rescope captured) harvest.siblings args, ?_,
      fun m => .enter helper.function f args⟩
    rw [hfunction]
    rfl
  refine ⟨fun depth e => hm.expr depth e, fun depth asBody s => hm.stmt depth asBody s, ?_⟩
  intro x v hframes hcaptured
  have hlocal := hm.local? x
  rw [hframes, hcaptured] at hlocal
  have hlookup := outcome_lookup?_eq (c := c) (m := m) x
  rw [hlocal] at hlookup
  split
  · rename_i htop
    rw [if_pos htop] at hlookup
    have hlookup : outcome c m (lookup? x) = outcome c m (outer? x) := hlookup
    exact ⟨hlookup, fun w hw => hlookup ▸ hm.outer? hw⟩
  · rename_i htop
    rw [if_neg htop] at hlookup
    exact hlookup

/-! ### A parameter that is called like something at the top -/

/-- A function is made where `x` is a parameter, and the module binds `x` at its top. -/
def shadowingSource : String :=
  "const x='a',f=(x=>()=>x)('b')"

namespace HelperTable

/-- A function of no parameters that answers with `x`. -/
def answersX : FunctionDef :=
  .mk none [] (.expr (.name "x")) true

/-- The one statement of the module. -/
def shadowing : Stmt :=
  .decl .constDecl [("x", some (.string "a")),
    ("f", some (.call (.function (.mk none ["x"] (.expr (.function answersX)) true))
      [.string "b"] false))]

/-- Whether what has been read is that statement. -/
def isShadowing : Except ScriptError (List Stmt) → Bool
  | .ok [.decl .constDecl [(x, some (.string a)), (f, some (.call
      (.function (.mk none [p] (.expr (.function (.mk none [] (.expr (.name y)) true))) true))
      [.string b] false))]] =>
    x == "x" && a == "a" && f == "f" && p == "x" && y == "x" && b == "b"
  | _ => false

theorem permitted_shadowing : permitted shadowingSource = .ok [shadowing] := by
  have h : isShadowing (permitted shadowingSource) = true := by decide +kernel
  generalize permitted shadowingSource = read at h
  unfold isShadowing at h
  split at h
  · simp only [Bool.and_eq_true, beq_iff_eq] at h
    obtain ⟨⟨⟨⟨⟨rfl, rfl⟩, rfl⟩, rfl⟩, rfl⟩, rfl⟩ := h
    rfl
  · cases h

open Eval in
/-- What the module binds: the string, and the function, which took the parameter with it. -/
theorem exists_outcome_shadowing {c : Context} (hdepth : c.limits.valueDepth = 256)
    (hcalls : c.limits.callDepth = 64) :
    ∃ id captured, captured.lookup "x" = some (.string "b") ∧
      ((Eval.module [shadowing]).outcome c { next := 0 }).1 =
        .ok ⟨[("x", .string "a"), ("f", .closure id answersX captured [])], []⟩ := by
  have hfirst : Value.checkHeights 256 1
      [.string "a", .object 0 [], .object 1 [("exports", .object 0 [])]] = .ok () := by
    simp [Value.checkHeights, Value.measureItems, Value.measureMembers, Value.measure,
      Value.known, Value.noted, Except.map]
  have hsecond : Value.checkHeights 256 1
      [.object 1 [("exports", .object 0 [])], .object 0 [], .string "b"] = .ok () := by
    simp [Value.checkHeights, Value.measureItems, Value.measureMembers, Value.measure,
      Value.known, Value.noted, Except.map, Std.HashMap.getElem_insert]
  refine ⟨3, [("module", .object 1 [("exports", .object 0 [])]), ("exports", .object 0 []),
    ("x", .string "b")], rfl, ?_⟩
  simp [Eval.module, shadowing, outcome_bind, plainObject, declare, program, programWith, hoist,
    declaredFunction?, newClosure, snapshot, onInnermost, Json.insertMember, programStmts, stmt,
    outcome_tick, hdepth, hcalls, takeCompletion, framed, pollInterval, collect, exportedMembers,
    moduleExports, overlay, List.lookup_cons, List.lookup_nil, Value.members?, Except.map, expr,
    exprs, declareAs, isDeclared, topCall, callVia, callWith, enter, withActivation,
    outcome_between, activationOf, Machine.enter, Machine.leave, functionBody, FunctionDef.body,
    FunctionDef.params, FunctionDef.name, FunctionDef.isArrow, Value.argument, hfirst, hsecond]

end HelperTable

open Eval in
/-- The helper answers with the string at the top, and not with the one that it took with it. -/
theorem scoping_of_harvest_shadowed : ∃ table next' harvest id captured helper,
    HelperTable.ofModule ⟨1000, 1000⟩ {} {} 0 shadowingSource = (.ok table, next') ∧
      HelperTable.Harvests ⟨1000, 1000⟩ {} {} 0 shadowingSource harvest ∧
      ("f", .closure id HelperTable.answersX captured []) ∈ harvest.candidates ∧
      captured.lookup "x" = some (.string "b") ∧ ("f", helper) ∈ table ∧
      ∀ c m, (outcome c m (enter 1 helper.function [])).1 = .ok (.string "a") := by
  obtain ⟨id, captured, hcaptured, houtcome⟩ := HelperTable.exists_outcome_shadowing
    (c := { limits := {}, budget := { limit := 1000 } }) rfl rfl
  have hrun : ∃ next', runModule { limits := {}, budget := { limit := 1000 } } 0
      [HelperTable.shadowing] =
        (.ok ⟨[("x", .string "a"), ("f", .closure id HelperTable.answersX captured [])], []⟩,
          next') :=
    ⟨_, by rw [runModule, Eval.runFrom_eq, houtcome]⟩
  obtain ⟨next', hrun⟩ := hrun
  have hmodule : ∃ table next', HelperTable.ofModule ⟨1000, 1000⟩ {} {} 0 shadowingSource =
      (.ok table, next') := by
    unfold HelperTable.ofModule
    rw [if_neg (by decide), HelperTable.permitted_shadowing]
    dsimp only
    rw [hrun]
    exact ⟨_, _, rfl⟩
  obtain ⟨table, next'', hmodule⟩ := hmodule
  obtain ⟨-, harvest, hharvest, hhelpers⟩ := scoping_of_harvest hmodule
  have houtput : harvest.output =
      ⟨[("x", .string "a"), ("f", .closure id HelperTable.answersX captured [])], []⟩ := by
    obtain ⟨-, body, next₁, hbody, hrun'⟩ := hharvest
    rw [HelperTable.permitted_shadowing] at hbody
    cases hbody
    exact Except.ok.inj (congrArg Prod.fst (hrun'.symm.trans hrun))
  have hcandidate : ("f", .closure id HelperTable.answersX captured []) ∈ harvest.candidates := by
    unfold HelperTable.Harvest.candidates
    rw [houtput]
    simp [Value.isCallable]
  obtain ⟨helper, id', hmem, hfunction, -, hruns⟩ :=
    hhelpers "f" id HelperTable.answersX captured [] hcandidate rfl
  refine ⟨table, next'', harvest, id, captured, helper, hmodule, hharvest, hcandidate, hcaptured,
    hmem, fun c m => ?_⟩
  let a := activationOf helper.function HelperTable.answersX (harvest.rescope captured)
    harvest.siblings []
  have hname : findBinding? "x" (m.enter a).current.frames = none := rfl
  have htop : harvest.isTop "x" = true := by
    unfold HelperTable.Harvest.isTop
    rw [houtput]
    rfl
  obtain ⟨-, -, hx⟩ := hruns c (m.enter a) (.enter _ _ _)
  replace hx := hx "x" (.string "b") hname hcaptured
  rw [if_pos htop] at hx
  have hfound : (outcome c (m.enter a) (lookup? "x")).1 = .ok (some (.string "a")) :=
    hx.2 (.string "a") (by rw [houtput]; rfl)
  have henter : enter 1 helper.function [] = withActivation a (lookup "x") := by
    rw [hfunction]
    rfl
  have hlookup : (outcome c (m.enter a) (lookup "x")).1 = .ok (.string "a") := by
    unfold lookup
    rw [outcome_bind_of_ok hfound]
    rfl
  rw [henter, withActivation, outcome_between]
  exact hlookup

end Stencil
