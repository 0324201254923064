import Stencil.Engine.Helpers
import Stencil.Proofs.Helper.Scanned
import Stencil.Proofs.Script.Hoisting

/-! # Modules of declared functions

A module that only declares functions does nothing but bind them.  What it binds at its top are the
names `module` and `exports` and those of the functions (`Top`), each function with those before it in
it; when the module is loaded, they lose what they took with them, and see each other by the names of
the module.  So nothing is left of the order in which they were declared.

But while the module runs they are nested in each other, whether or not they have anything to do with
each other.  **As many functions can be declared as values may be nested, less two levels** for
`module` and its `exports` (`Engine.load_declared`): with the default limits 254, and no source with
more of them is loaded.
-/
namespace Stencil
open Script Script.Eval

/-! ## The top of a module -/

/-- The machine when the body of a module starts to run. -/
def Script.Machine.moduleStart (next : Identity) : Machine :=
  { next := next + 2
    current := ⟨[[("module", ⟨.object (next + 1) [("exports", .object next [])], false⟩),
      ("exports", ⟨.object next [], false⟩)]], [], []⟩ }

theorem Script.Eval.outcome_module {c : Context} {next : Identity} (body : List Stmt) :
    outcome c { next } (Eval.module body) =
      match outcome c (.moduleStart next) (program body) with
      | (.ok _, m) => (.ok (collect m), m)
      | (.error e, m) => (.error e, m) := by
  have hstart : ∀ x : Eval ModuleOutput, outcome c { next } (do
      let exports ← plainObject []
      Eval.declare "module" (← plainObject [("exports", exports)])
      Eval.declare "exports" exports
      x) = outcome c (.moduleStart next) x := fun _ => rfl
  refine (hstart _).trans ?_
  rw [outcome_bind]
  rcases outcome c (.moduleStart next) (program body) with ⟨_ | _, m⟩ <;> rfl

/-- `exports` is one level tall and `module` two. -/
theorem Script.Machine.tallest_moduleStart (next : Identity) :
    (Machine.moduleStart next).Tallest 2 where
  frames := List.cons_ne_nil _ _
  known := by
    refine ⟨fun id => if id = next then some 1 else if id = next + 1 then some 2 else none, ?_,
      List.forall_mem_nil _, fun id (hid : next + 2 ≤ id) => ?_⟩
    · have hexports : (Value.object next []).Known fun id =>
          if id = next then some 1 else if id = next + 1 then some 2 else none :=
        Value.known_object.mpr ⟨if_pos rfl, List.forall_mem_nil _⟩
      refine List.forall_mem_cons.mpr ⟨hexports, List.forall_mem_singleton.mpr ?_⟩
      exact Value.known_object.mpr
        ⟨(if_neg (Nat.succ_ne_self next)).trans (if_pos rfl), List.forall_mem_singleton.mpr hexports⟩
    · exact (if_neg (Nat.ne_of_gt (Nat.lt_of_lt_of_le (by omega) hid))).trans
        (if_neg (Nat.ne_of_gt hid))
  height := rfl

/-! ## Statements that only declare functions -/

namespace Script

/-- The statements that declare functions. -/
def functionStmts (fs : List (String × FunctionDef)) : List Stmt :=
  fs.map fun p => .function p.2

theorem declarations_functionStmts {fs : List (String × FunctionDef)}
    (hnames : ∀ p ∈ fs, p.2.name = some p.1) : declarations (functionStmts fs) = fs := by
  induction fs with
  | nil => rfl
  | cons p rest ih =>
    obtain ⟨hp, hrest⟩ := List.forall_mem_cons.mp hnames
    have hdeclared : (do
        let f ← declaredFunction? (.function p.2)
        let name ← f.name
        return (name, f)) = some p := by
      show (p.2.name.bind fun name => some (name, p.2)) = some p
      rw [hp]
      rfl
    unfold declarations functionStmts at ih ⊢
    rw [List.map_cons, List.filterMap_cons, hdeclared, ih hrest]

/-- Statements that declare functions take their time, and nothing else. -/
theorem Eval.outcome_functionStmts {c : Context} {m : Machine} (call : Call)
    (fs : List (String × FunctionDef)) (hcancelled : c.budget.cancelled = none)
    (htime : ∀ k, k ≤ m.ticks + fs.length → k % pollInterval = 0 → k < c.budget.expiry) :
    outcome c m (programStmts call (functionStmts fs)) =
      (.ok m.completion, { m with ticks := m.ticks + fs.length, completion := .undefined }) := by
  induction fs generalizing m with
  | nil => rfl
  | cons p rest ih =>
    have htick : outcome c m tick = (.ok (), { m with ticks := m.ticks + 1 }) := by
      rw [outcome_tick]
      split
      · rename_i hpoll
        have hlt := htime (m.ticks + 1) (by rw [List.length_cons]; omega) hpoll
        simp only [poll, hcancelled, if_neg (Nat.not_le.mpr hlt)]
      · rfl
    have hstmt : outcome c m (stmt call false (.function p.2)) =
        (.ok .normal, { m with ticks := m.ticks + 1 }) := by
      unfold stmt framed
      simp only [Bool.false_eq_true, if_false, outcome_bind, htick, outcome_pure]
    show outcome c m (programStmts call (.function p.2 :: functionStmts rest)) = _
    rw [programStmts, outcome_bind, hstmt]
    dsimp only
    rw [ih fun k (hk : k ≤ m.ticks + 1 + rest.length) =>
      htime k (by rw [List.length_cons]; omega), List.length_cons]
    simp only [Nat.add_assoc, Nat.add_comm 1]

end Script

/-! ## What is bound -/

section Members
variable {α : Type} {g : String → α} {names : List String}

theorem lookup_map_names (name : String) :
    (names.map fun n => (n, g n)).lookup name = if name ∈ names then some (g name) else none := by
  induction names with
  | nil => rfl
  | cons n rest ih =>
    rw [List.map_cons, lookup_cons_ite, ih]
    by_cases hn : name = n
    · rw [if_pos hn, if_pos (hn ▸ List.mem_cons_self), hn]
    · rw [if_neg hn]
      simp only [List.mem_cons, hn, false_or]

/-- A value takes the place of the one under its name, or comes last. -/
theorem insertMember_map_names (hnames : names.Nodup) (name : String) (a : α) :
    Json.insertMember name a (names.map fun n => (n, g n)) =
      (if name ∈ names then names else names ++ [name]).map fun n =>
        (n, Function.update g name a n) := by
  induction names with
  | nil => simp [Json.insertMember]
  | cons n rest ih =>
    obtain ⟨hn, hrest⟩ := List.nodup_cons.mp hnames
    rw [List.map_cons, Json.insertMember]
    by_cases hname : n = name
    · subst n
      rw [if_pos rfl, if_pos List.mem_cons_self, List.map_cons, Function.update_self]
      refine congrArg _ (List.map_congr_left fun k hk => ?_)
      have hne : k ≠ name := by
        rintro rfl
        exact hn hk
      rw [Function.update_of_ne hne]
    · have hmem : name ∈ n :: rest ↔ name ∈ rest := by
        rw [List.mem_cons]
        exact or_iff_right (Ne.symm hname)
      rw [if_neg hname, ih hrest]
      simp only [hmem]
      split <;> simp [Function.update_of_ne hname]

end Members

namespace HelperTable

/-- The functions whose names are not taken by the module itself. -/
def own (fs : List (String × FunctionDef)) : List (String × FunctionDef) :=
  fs.filter fun p => p.1 != "module" && p.1 != "exports"

/-- The names at the top of a module that declares functions. -/
def topNames (fs : List (String × FunctionDef)) : List String :=
  "module" :: "exports" :: (own fs).map (·.1)

theorem mem_topNames {fs : List (String × FunctionDef)} {name : String} :
    name ∈ topNames fs ↔ name = "module" ∨ name = "exports" ∨ name ∈ fs.map (·.1) := by
  simp only [topNames, own, List.mem_cons, List.mem_map, List.mem_filter, Bool.and_eq_true,
    bne_iff_ne]
  constructor
  · rintro (h | h | ⟨p, ⟨hp, -⟩, h⟩)
    · exact .inl h
    · exact .inr (.inl h)
    · exact .inr (.inr ⟨p, hp, h⟩)
  · rintro (h | h | ⟨p, hp, rfl⟩)
    · exact .inl h
    · exact .inr (.inl h)
    · by_cases hmodule : p.1 = "module"
      · exact .inl hmodule
      · by_cases hexports : p.1 = "exports"
        · exact .inr (.inl hexports)
        · exact .inr (.inr ⟨p, ⟨hp, hmodule, hexports⟩, rfl⟩)

theorem nodup_topNames {fs : List (String × FunctionDef)} (h : (fs.map (·.1)).Nodup) :
    (topNames fs).Nodup := by
  have hown : ((own fs).map (·.1)).Nodup := h.sublist (List.filter_sublist.map _)
  have hnot : ∀ name ∈ (own fs).map (·.1), name ≠ "module" ∧ name ≠ "exports" := by
    intro name hname
    obtain ⟨p, hp, rfl⟩ := List.mem_map.mp hname
    simpa using (List.mem_filter.mp hp).2
  refine List.nodup_cons.mpr ⟨?_, List.nodup_cons.mpr ⟨fun h => (hnot _ h).2 rfl, hown⟩⟩
  rw [List.mem_cons]
  rintro (h | h)
  · exact absurd h (by decide)
  · exact (hnot _ h).1 rfl

/-- A name that is declared takes its place at the top. -/
theorem topNames_append (fs : List (String × FunctionDef)) {p : String × FunctionDef}
    (hp : p.1 ∉ fs.map (·.1)) :
    topNames (fs ++ [p]) =
      if p.1 ∈ topNames fs then topNames fs else topNames fs ++ [p.1] := by
  have hmem : p.1 ∈ topNames fs ↔ p.1 = "module" ∨ p.1 = "exports" := by
    rw [mem_topNames]
    simp only [hp, or_false]
  unfold topNames own at hmem ⊢
  rw [List.filter_append, List.map_append]
  by_cases htaken : p.1 = "module" ∨ p.1 = "exports"
  · rw [if_pos (hmem.mpr htaken)]
    have hfilter : [p].filter (fun p => p.1 != "module" && p.1 != "exports") = [] := by
      rcases htaken with h | h <;> simp [h]
    rw [hfilter, List.map_nil, List.append_nil]
  · rw [if_neg (mt hmem.mp htaken)]
    have hfilter : [p].filter (fun p => p.1 != "module" && p.1 != "exports") = [p] := by
      simpa [not_or] using htaken
    rw [hfilter]
    rfl

/-- The top of a module after functions were declared there: what its names stand for.  The functions
have taken nothing with them that the top does not bind, and nothing is exported. -/
structure Top (value : String → Value) (fs : List (String × FunctionDef)) (m : Machine) : Prop where
  current : m.current = ⟨[(topNames fs).map fun name => (name, ⟨value name, false⟩)], [], []⟩
  functions : ∀ p ∈ fs, ∃ id captured, value p.1 = .closure id p.2 captured [] ∧
    ∀ q ∈ captured, q.1 ∈ topNames fs
  module : exportedMembers (moduleExports (some (value "module"))) = []
  exports : exportedMembers (some (value "exports")) = []

namespace Top
variable {value : String → Value} {fs : List (String × FunctionDef)} {m : Machine}

theorem start (next : Identity) : ∃ value, Top value [] (.moduleStart next) := by
  refine ⟨fun name => if name = "module" then .object (next + 1) [("exports", .object next [])]
    else .object next [], rfl, List.forall_mem_nil _, rfl, rfl⟩

/-- What a function takes with it is bound at the top. -/
theorem mem_snapshot (h : Top value fs m) : ∀ q ∈ snapshot m.current, q.1 ∈ topNames fs := by
  intro q hq
  rw [mem_snapshot_iff, h.current, Activation.local?] at hq
  by_contra hnot
  simp [findBinding?, lookup_map_names, hnot] at hq

theorem declare (h : Top value fs m) (hfs : (fs.map (·.1)).Nodup) {p : String × FunctionDef}
    (hp : p.1 ∉ fs.map (·.1)) :
    Top (Function.update value p.1 (m.closure p.2)) (fs ++ [p]) (m.declare p) := by
  have hclosure : m.closure p.2 = .closure m.next p.2 (snapshot m.current) [] := by
    unfold Machine.closure
    rw [h.current]
  have hnames : ∀ name ∈ topNames fs, name ∈ topNames (fs ++ [p]) := by
    intro name hname
    rw [topNames_append fs hp]
    split
    · exact hname
    · exact List.mem_append_left _ hname
  refine ⟨?_, ?_, ?_, ?_⟩
  · show (⟨onInnermost _ m.current.frames, m.current.captured, m.current.siblings⟩ : Activation) = _
    rw [h.current]
    show (⟨[Json.insertMember p.1 ⟨m.closure p.2, false⟩ _], [], []⟩ : Activation) = _
    rw [insertMember_map_names (nodup_topNames hfs), topNames_append fs hp]
    congr 2
    refine List.map_congr_left fun name _ => ?_
    by_cases hname : name = p.1
    · rw [hname, Function.update_self, Function.update_self]
    · rw [Function.update_of_ne hname, Function.update_of_ne hname]
  · intro q hq
    rcases List.mem_append.mp hq with hq | hq
    · obtain ⟨id, captured, hvalue, hcaptured⟩ := h.functions q hq
      have hne : q.1 ≠ p.1 := fun he => hp (he ▸ List.mem_map_of_mem hq)
      rw [Function.update_of_ne hne]
      exact ⟨id, captured, hvalue, fun r hr => hnames _ (hcaptured r hr)⟩
    · obtain rfl := List.mem_singleton.mp hq
      rw [Function.update_self]
      exact ⟨m.next, snapshot m.current, hclosure, fun r hr => hnames _ (h.mem_snapshot r hr)⟩
  · by_cases hmodule : "module" = p.1
    · rw [hmodule, Function.update_self, hclosure]
      rfl
    · rw [Function.update_of_ne hmodule]
      exact h.module
  · by_cases hexports : "exports" = p.1
    · rw [hexports, Function.update_self, hclosure]
      rfl
    · rw [Function.update_of_ne hexports]
      exact h.exports

/-- All functions of a module are bound at its top. -/
theorem declareAll (h : Top value fs m) (rest : List (String × FunctionDef))
    (hfs : ((fs ++ rest).map (·.1)).Nodup) : ∃ value, Top value (fs ++ rest) (m.declareAll rest) := by
  induction rest generalizing value fs m with
  | nil =>
    rw [List.append_nil]
    exact ⟨value, h⟩
  | cons p rest ih =>
    have hdisjoint := hfs
    rw [List.map_append, List.nodup_append, List.map_cons] at hdisjoint
    obtain ⟨hfirst, -, hne⟩ := hdisjoint
    have hp : p.1 ∉ fs.map (·.1) := fun hmem => hne _ hmem _ List.mem_cons_self rfl
    have hnext := h.declare hfirst hp
    rw [List.append_cons] at hfs ⊢
    exact ih hnext hfs

/-- The module binds its functions and exports nothing. -/
theorem collect (h : Top value fs m) (hexported : m.exported = [])
    (hdefault : m.defaultExport = none) :
    collect m = ⟨(own fs).map fun p => (p.1, value p.1), []⟩ := by
  have hbound : ((m.current.frames.getLast?.getD []).map fun q => (q.1, q.2.value)) =
      (topNames fs).map fun name => (name, value name) := by
    rw [h.current]
    exact List.map_map
  have hmodule : ((topNames fs).map fun name => (name, value name)).lookup "module" =
      some (value "module") :=
    (lookup_map_names _).trans (if_pos (mem_topNames.mpr (.inl rfl)))
  have hexports : ((topNames fs).map fun name => (name, value name)).lookup "exports" =
      some (value "exports") :=
    (lookup_map_names _).trans (if_pos (mem_topNames.mpr (.inr (.inl rfl))))
  unfold Eval.collect
  rw [hbound, hexported, hdefault]
  dsimp only
  rw [hmodule, hexports, h.module, h.exports]
  refine congrArg₂ ModuleOutput.mk ?_ rfl
  have hown : ∀ p ∈ own fs, (p.1 != "module" && p.1 != "exports") = true := fun p hp =>
    (List.mem_filter.mp hp).2
  show (((own fs).map (·.1)).map fun name => (name, value name)).filter _ = _
  rw [List.map_map]
  refine List.filter_eq_self.mpr fun q hq => ?_
  obtain ⟨p, hp, rfl⟩ := List.mem_map.mp hq
  exact hown p hp

end Top

/-- The table of a module that declares functions: each of them sees the others by their names, and
has taken nothing with it. -/
def ofDeclarations (digest : String) (next : Identity) (fs : List (String × FunctionDef)) :
    HelperTable :=
  let siblings := fs.map fun (name, f) => (name, ModuleBinding.function f [])
  fs.zipIdx.filterMap fun ((name, f), i) =>
    if f.promisesValue then
      some (name, ⟨name, f.params.length, .closure (next + i) f [] siblings, digest⟩)
    else none

namespace Top
variable {value : String → Value} {fs : List (String × FunctionDef)} {m : Machine}

/-- What such a module puts out. -/
abbrev harvest (value : String → Value) (fs : List (String × FunctionDef)) (digest : String) :
    Harvest :=
  ⟨⟨(own fs).map fun p => (p.1, value p.1), []⟩, digest⟩

/-- All that its functions have taken with them is bound at its top. -/
theorem rescope (digest : String) {captured : List (String × Value)}
    (h : ∀ q ∈ captured, q.1 ∈ topNames fs) : (harvest value fs digest).rescope captured = [] := by
  refine List.filter_eq_nil_iff.mpr fun q hq => ?_
  have htop : (harvest value fs digest).isTop q.1 = true := by
    have hlookup : ((own fs).map fun p => (p.1, value p.1)).lookup q.1 =
        if q.1 ∈ (own fs).map (·.1) then some (value q.1) else none := by
      rw [← lookup_map_names, List.map_map]
      rfl
    unfold Harvest.isTop
    rw [hlookup]
    rcases List.mem_cons.mp (h q hq) with hmodule | hrest
    · simp [hmodule]
    · rcases List.mem_cons.mp hrest with hexports | hmem
      · simp [hexports]
      · rw [if_pos hmem]
        rfl
  show ¬ (!(harvest value fs digest).isTop q.1) = true
  rw [htop]
  decide

theorem siblings (h : Top value fs m) (digest : String) :
    (harvest value fs digest).siblings = (own fs).map fun p => (p.1, .function p.2 []) := by
  unfold Harvest.siblings
  rw [List.map_map]
  refine List.map_congr_left fun p hp => ?_
  obtain ⟨id, captured, hvalue, hcaptured⟩ := h.functions p (List.mem_filter.mp hp).1
  show (p.1, (harvest value fs digest).sibling (value p.1)) = _
  rw [hvalue, Harvest.sibling, rescope digest hcaptured]

theorem candidates (h : Top value fs m) (digest : String) :
    (harvest value fs digest).candidates = (own fs).map fun p => (p.1, value p.1) := by
  refine List.filter_eq_self.mpr fun q hq => ?_
  obtain ⟨p, hp, rfl⟩ := List.mem_map.mp hq
  obtain ⟨id, captured, hvalue, -⟩ := h.functions p (List.mem_filter.mp hp).1
  show ((value p.1).isCallable && true) = true
  rw [hvalue]
  rfl

/-- The functions that promise values become helpers. -/
theorem table (h : Top value fs m) (digest : String) (next : Identity) :
    ((harvest value fs digest).table next).1 = ofDeclarations digest next (own fs) := by
  unfold Harvest.table ofDeclarations
  rw [h.siblings, h.candidates]
  dsimp only
  rw [List.zipIdx_map, List.filterMap_map]
  refine List.filterMap_congr fun q hq => ?_
  obtain ⟨⟨name, f⟩, i⟩ := q
  have hmem : (name, f) ∈ own fs := List.fst_mem_of_mem_zipIdx hq
  obtain ⟨id, captured, hvalue, hcaptured⟩ := h.functions _ (List.mem_filter.mp hmem).1
  show ((harvest value fs digest).helper? _ (next + i) name (value name)).map _ = _
  rw [hvalue, Harvest.helper?, rescope digest hcaptured]
  dsimp only
  split <;> rfl

end Top

/-- If all functions promise values there is a helper for each of them. -/
theorem names_ofDeclarations {fs : List (String × FunctionDef)} (digest : String) (next : Identity)
    (h : ∀ p ∈ fs, p.2.promisesValue = true) :
    (ofDeclarations digest next fs).map (·.1) = fs.map (·.1) := by
  have hhelper : ∀ q ∈ fs.zipIdx, Option.map (·.1) (if q.1.2.promisesValue = true then
      some (q.1.1, (⟨q.1.1, q.1.2.params.length, .closure (next + q.2) q.1.2 []
        (fs.map fun p => (p.1, .function p.2 [])), digest⟩ : Helper)) else none) = some q.1.1 := by
    intro q hq
    rw [if_pos (h q.1 (List.fst_mem_of_mem_zipIdx hq))]
    rfl
  unfold ofDeclarations
  rw [List.map_filterMap, List.filterMap_congr hhelper]
  show fs.zipIdx.filterMap (some ∘ fun q => q.1.1) = fs.map (·.1)
  rw [List.filterMap_eq_map]
  conv_rhs => rw [← List.zipIdx_map_fst 0 fs, List.map_map]
  rfl

/-- Declaring functions leaves all of the machine as it was but the innermost block. -/
theorem declareAll_eq (m : Machine) (fs : List (String × FunctionDef)) :
    ∃ current, m.declareAll fs = { m with current, next := m.next + fs.length } := by
  induction fs generalizing m with
  | nil => exact ⟨m.current, rfl⟩
  | cons p rest ih =>
    obtain ⟨current, h⟩ := ih (m.declare p)
    refine ⟨current, h.trans ?_⟩
    show ({ m with current, next := m.next + 1 + rest.length } : Machine) = _
    rw [List.length_cons, Nat.add_assoc, Nat.add_comm 1]

variable {fs : List (String × FunctionDef)}

/-- A module that declares functions binds them all if they are no more than the levels that are
left; otherwise it fails. -/
theorem outcome_module_declared {c : Context} (next : Identity)
    (hnames : ∀ p ∈ fs, p.2.name = some p.1) (hdistinct : (fs.map (·.1)).Nodup)
    (hcancelled : c.budget.cancelled = none)
    (htime : ∀ k, k ≤ c.limits.valueDepth - 2 → k % pollInterval = 0 → k < c.budget.expiry) :
    if fs.length ≤ c.limits.valueDepth - 2 then
      ∃ value m, Top value fs m ∧ m.next = next + 2 + fs.length ∧
        outcome c { next } (Eval.module (functionStmts fs)) =
          (.ok ⟨(own fs).map fun p => (p.1, value p.1), []⟩, m)
    else (outcome c { next } (Eval.module (functionStmts fs))).1 =
      .error (Value.tooDeep c.limits.valueDepth) := by
  have hhoist := outcome_hoist (c := c) (Machine.tallest_moduleStart next) (by decide)
    (functionStmts fs)
  rw [declarations_functionStmts hnames] at hhoist
  have hprogram : outcome c (.moduleStart next) (program (functionStmts fs)) =
      outcome c (.moduleStart next) (do
        hoist (functionStmts fs)
        programStmts (topCall c.limits) (functionStmts fs)) := by
    unfold program programWith
    rw [outcome_bind, outcome_limits]
  rw [outcome_module, hprogram, outcome_bind, hhoist]
  split
  · rename_i hlength
    obtain ⟨current, hdeclared⟩ := declareAll_eq (.moduleStart next) fs
    obtain ⟨value, hstart⟩ := Top.start next
    obtain ⟨value, htop⟩ := hstart.declareAll fs hdistinct
    rw [List.nil_append, hdeclared] at htop
    have hstmts := outcome_functionStmts (c := c)
      (m := { Machine.moduleStart next with current, next := next + 2 + fs.length })
      (topCall c.limits) fs hcancelled fun k (hk : k ≤ 0 + fs.length) => htime k (by omega)
    rw [hdeclared]
    dsimp only
    rw [show (Machine.moduleStart next).next = next + 2 from rfl, hstmts]
    dsimp only
    have htop' : Top value fs { Machine.moduleStart next with
        current, next := next + 2 + fs.length, ticks := 0 + fs.length,
        completion := .undefined } := { htop with }
    refine ⟨value, _, htop', rfl, ?_⟩
    exact congrArg (fun output => (Except.ok output, _)) (htop'.collect rfl rfl)
  · rfl

end HelperTable

/-- Settings that make sense leave a module the time for as many statements as values may be
nested. -/
theorem Config.expiry_of_fault?_eq_none {config : Config} (h : config.fault? = none) {k : Nat}
    (hk : k ≤ config.sandbox.maxValueDepth - 2) (hpoll : k % pollInterval = 0) :
    k < ({ limit := config.sandbox.compileTimeout } : Budget).expiry := by
  have hbounds : 1 ≤ config.sandbox.compileTimeout ∧ config.sandbox.maxValueDepth ≤ 1024 := by
    unfold Config.fault? Script.Value.maxNesting at h
    repeat
      split at h
      · cases h
    omega
  show k < (config.sandbox.compileTimeout - 0) * 1000
  unfold pollInterval at hpoll
  omega

/-- What a module defines is what running it leaves, and it fails as its run fails. -/
theorem HelperTable.ofModule_of_permitted (bounds : Helper.Bounds) {limits : Limits} {host : Host}
    {next : Identity} {source : String} {body : List Stmt}
    (hsize : source.utf8ByteSize ≤ bounds.maxBytes) (hsource : permitted source = .ok body)
    {result : Except ScriptError ModuleOutput} {next' : Identity}
    (hrun : runModule
      { limits, budget := { limit := bounds.timeout }, host := { host with fetch := none } } next
      body = (result, next')) :
    (∀ output, result = .ok output →
      (ofModule bounds limits host next source).1 =
        .ok (Harvest.table ⟨output, Digest.Sha256.hex source⟩ next').1) ∧
      ∀ e, result = .error e →
        (ofModule bounds limits host next source).1 = .error (runError e) := by
  unfold ofModule
  rw [if_neg (Nat.not_lt.mpr hsize), hsource]
  dsimp only
  rw [hrun]
  refine ⟨fun output h => ?_, fun e h => ?_⟩ <;>
  · subst h
    rfl

/-- A source that is not in the cache is loaded. -/
theorem Engine.load_of_get_eq_none {e : Engine} {source : String}
    (h : (e.caches.modules.get (Digest.Sha256.hex source)).1 = none) :
    (e.load source).1 =
      (HelperTable.ofModule e.moduleBounds e.config.limits e.host e.next source).1 := by
  unfold Engine.load
  rcases hget : e.caches.modules.get (Digest.Sha256.hex source) with ⟨hit, cache⟩
  rw [hget] at h
  obtain rfl : hit = none := h
  simp only [hget]
  rcases HelperTable.ofModule e.moduleBounds e.config.limits e.host e.next source with
    ⟨err | table, next⟩ <;> rfl

/-- Nothing is in the caches at first. -/
theorem Engine.load_ofConfig (config : Config) (host : Host) (source : String) :
    ((Engine.ofConfig config host).load source).1 =
      (HelperTable.ofModule (Engine.ofConfig config host).moduleBounds config.limits host
        Globals.firstIdentity source).1 := by
  refine Engine.load_of_get_eq_none ?_
  unfold Cache.Lru.get
  rw [show (Engine.ofConfig config host).caches.modules.entries[Digest.Sha256.hex source]? = none from
    Std.HashMap.getElem?_empty]

/-- **Functions that have nothing to do with each other are nested in each other.**  Under settings
that make sense, a module that only declares functions, under different names, is loaded exactly if
there are at most two fewer of them than levels to which values may be nested; with the default
settings that is 254.  Its table holds the functions that promise values, except under the names
`module` and `exports`, which are the module's own.  If there are more functions, the whole module
fails as if a value of its had been nested too deep. -/
theorem Engine.load_declared {config : Config} (hconfig : config.fault? = none) (host : Host)
    {source : String} (hsize : source.utf8ByteSize ≤ config.helpers.maxModuleBytes)
    {fs : List (String × FunctionDef)}
    (hsource : HelperTable.permitted source = .ok (functionStmts fs))
    (hnames : ∀ p ∈ fs, p.2.name = some p.1) (hdistinct : (fs.map (·.1)).Nodup) :
    ((Engine.ofConfig config host).load source).1 =
      if fs.length ≤ config.sandbox.maxValueDepth - 2 then
        .ok (HelperTable.ofDeclarations (Digest.Sha256.hex source)
          (Globals.firstIdentity + 2 + fs.length) (HelperTable.own fs))
      else .error (.script (Value.tooDeep config.sandbox.maxValueDepth)) := by
  let c : Context :=
    { limits := config.limits, budget := { limit := config.sandbox.compileTimeout }
      host := { host with fetch := none } }
  have hmodule := HelperTable.outcome_module_declared (c := c) Globals.firstIdentity
    hnames hdistinct rfl fun k hk => Config.expiry_of_fault?_eq_none hconfig hk
  have hrun : runModule c Globals.firstIdentity (functionStmts fs) = _ :=
    runFrom_eq c Globals.firstIdentity (Eval.module (functionStmts fs))
  have hload := HelperTable.ofModule_of_permitted (Engine.ofConfig config host).moduleBounds
    hsize hsource hrun
  rw [Engine.load_ofConfig]
  by_cases hlength : fs.length ≤ c.limits.valueDepth - 2
  · rw [if_pos hlength] at hmodule
    refine Eq.trans ?_ (if_pos hlength).symm
    obtain ⟨value, m, htop, hnext, houtcome⟩ := hmodule
    refine (hload.1 _ (congrArg Prod.fst houtcome)).trans ?_
    rw [houtcome]
    dsimp only
    rw [hnext]
    exact congrArg Except.ok (htop.table _ _)
  · rw [if_neg hlength] at hmodule
    refine Eq.trans ?_ (if_neg hlength).symm
    exact hload.2 _ hmodule

/-! ### A module of two functions -/

/-- Two functions that have nothing to do with each other. -/
def pairSource : String :=
  "function f(x) { return x } function g(y) { return y }"

/-- Whether what has been read is two functions of these names that promise values. -/
def areFunctions (first second : String) : Except ScriptError (List Stmt) → Bool
  | .ok [.function f, .function g] =>
    f.name == some first && f.promisesValue && (g.name == some second && g.promisesValue)
  | _ => false

theorem HelperTable.exists_permitted_pair : ∃ f g : FunctionDef,
    (f.name = some "f" ∧ f.promisesValue) ∧ (g.name = some "g" ∧ g.promisesValue) ∧
      permitted pairSource = .ok [.function f, .function g] := by
  have h : areFunctions "f" "g" (permitted pairSource) = true := by decide +kernel
  generalize permitted pairSource = x at h
  unfold areFunctions at h
  split at h
  · simp only [Bool.and_eq_true, beq_iff_eq] at h
    exact ⟨_, _, h.1, h.2, rfl⟩
  · cases h

/-- Both functions are in the table where values may be nested four levels deep, and the module fails
where they may be nested three levels deep. -/
theorem Engine.load_declared_pair : ∃ f g : FunctionDef,
    f.name = some "f" ∧ g.name = some "g" ∧
    ((Engine.ofConfig { sandbox := { maxValueDepth := 4 } } {}).load pairSource).1 =
      .ok (HelperTable.ofDeclarations (Digest.Sha256.hex pairSource) 10 [("f", f), ("g", g)]) ∧
    (HelperTable.ofDeclarations (Digest.Sha256.hex pairSource) 10 [("f", f), ("g", g)]).map (·.1) =
      ["f", "g"] ∧
    ((Engine.ofConfig { sandbox := { maxValueDepth := 3 } } {}).load pairSource).1 =
      .error (.script (Value.tooDeep 3)) := by
  obtain ⟨f, g, ⟨hf, hvalue⟩, ⟨hg, hvalue'⟩, hsource⟩ := HelperTable.exists_permitted_pair
  have hnames : ∀ p ∈ [("f", f), ("g", g)], p.2.name = some p.1 :=
    List.forall_mem_cons.mpr ⟨hf, List.forall_mem_singleton.mpr hg⟩
  have hpromise : ∀ p ∈ [("f", f), ("g", g)], p.2.promisesValue = true :=
    List.forall_mem_cons.mpr ⟨hvalue, List.forall_mem_singleton.mpr hvalue'⟩
  have hdistinct : ([("f", f), ("g", g)].map (·.1)).Nodup := by simp
  have hdeep : ({ sandbox := { maxValueDepth := 4 } } : Config).fault? = none := by decide
  have hshallow : ({ sandbox := { maxValueDepth := 3 } } : Config).fault? = none := by decide
  exact ⟨f, g, hf, hg,
    Engine.load_declared hdeep {} (by decide +kernel) hsource hnames hdistinct,
    HelperTable.names_ofDeclarations _ _ hpromise,
    Engine.load_declared hshallow {} (by decide +kernel) hsource hnames hdistinct⟩

end Stencil
