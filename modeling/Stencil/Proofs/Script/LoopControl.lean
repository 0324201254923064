import Stencil.Proofs.Script.Flows

/-! # Loop control without a loop

`break` and `continue` ask the loop around them to end or to go on.  A statement that comes to one
of them outside all loops in it **strays** (`Strays`): the statement asks what runs it.  This is the
only way in which a statement ends with loop control (`straysExactly`): every loop keeps what
its body asks for to itself, and a call answers with a value, so that no function ends a turn of a
loop that called it.

What runs the statements of the program itself refuses such a request.  What runs the statements of
a function does not: the statement is left, and the function goes on with the one behind it
(`stray_control`).
-/
namespace Stencil.Script

/-- An end that asks a loop to end or to go on. -/
def Flow.IsControl (flow : Flow) : Prop :=
  flow = .broken ∨ flow = .continued

namespace Eval
variable {c : Context} {call : Call} {m m₀ m₁ m₂ : Machine} {asBody : Bool}

/-- The statement has been counted, in a block of its own if it is a body. -/
def Starts (c : Context) (m : Machine) (asBody : Bool) (m₁ : Machine) : Prop :=
  outcome c (if asBody then m.openFrame else m) tick = (.ok (), m₁)

mutual

/-- The statement, run on a machine, comes to loop control that belongs to no loop in it. -/
inductive Strays (c : Context) (call : Call) : Machine → Bool → Stmt → Prop
  | break {m m₁ : Machine} {asBody : Bool} (hstart : Starts c m asBody m₁) :
    Strays c call m asBody .break
  | continue {m m₁ : Machine} {asBody : Bool} (hstart : Starts c m asBody m₁) :
    Strays c call m asBody .continue
  | consequent {m m₁ m₂ : Machine} {asBody : Bool} {test : Expr} {s : Stmt}
    {alternative : Option Stmt} {v : Value} (hstart : Starts c m asBody m₁)
    (htest : outcome c m₁ (expr call test) = (.ok v, m₂)) (hv : v.truthy = true)
    (hs : Strays c call m₂ true s) : Strays c call m asBody (.branch test s alternative)
  | alternative {m m₁ m₂ : Machine} {asBody : Bool} {test : Expr} {consequent s : Stmt} {v : Value}
    (hstart : Starts c m asBody m₁) (htest : outcome c m₁ (expr call test) = (.ok v, m₂))
    (hv : v.truthy = false) (hs : Strays c call m₂ true s) :
    Strays c call m asBody (.branch test consequent (some s))
  | block {m m₁ m₂ : Machine} {asBody : Bool} {body : List Stmt}
    (hstart : outcome c m (unless asBody do tick) = (.ok (), m₁))
    (hhoist : outcome c m₁.openFrame (hoist body) = (.ok (), m₂))
    (hbody : StrayAmong c call m₂ body) : Strays c call m asBody (.block body)
  | export {m m₁ m₂ : Machine} {asBody : Bool} {s : Stmt} (hstart : Starts c m asBody m₁)
    (hnote : outcome c m₁ (noteExport s) = (.ok (), m₂)) (hs : Strays c call m₂ false s) :
    Strays c call m asBody (.export s)

/-- One of the statements strays, and those in front of it end normally. -/
inductive StrayAmong (c : Context) (call : Call) : Machine → List Stmt → Prop
  | head {m : Machine} {s : Stmt} {rest : List Stmt} (hs : Strays c call m false s) :
    StrayAmong c call m (s :: rest)
  | tail {m m₁ : Machine} {s : Stmt} {rest : List Stmt}
    (hs : outcome c m (stmt call false s) = (.ok .normal, m₁))
    (hrest : StrayAmong c call m₁ rest) : StrayAmong c call m (s :: rest)

end

/-- The step ends with loop control. -/
def EndsInControl (c : Context) (m : Machine) (x : Eval Flow) : Prop :=
  ∃ flow, (outcome c m x).1 = .ok flow ∧ flow.IsControl

/-! ## Steps that end with loop control -/

section Steps
variable {α : Type} {x : Eval Flow}

theorem endsInControl_pure {flow : Flow} : EndsInControl c m (pure flow) ↔ flow.IsControl := by
  constructor
  · rintro ⟨_, ⟨⟩, h⟩
    exact h
  · intro h
    exact ⟨flow, rfl, h⟩

theorem endsInControl_bind {y : Eval α} {f : α → Eval Flow} :
    EndsInControl c m (y >>= f) ↔
      ∃ a m₁, outcome c m y = (.ok a, m₁) ∧ EndsInControl c m₁ (f a) := by
  unfold EndsInControl
  rw [outcome_bind]
  constructor
  · rintro ⟨flow, hflow, hcontrol⟩
    split at hflow
    · exact ⟨_, _, ‹_›, flow, hflow, hcontrol⟩
    · cases hflow
  · rintro ⟨a, m₁, hy, hf⟩
    rw [hy]
    exact hf

theorem endsInControl_withFrame :
    EndsInControl c m (withFrame x) ↔ EndsInControl c m.openFrame x := by
  unfold EndsInControl withFrame
  rw [outcome_between]

theorem endsInControl_framed :
    EndsInControl c m (framed asBody x) ↔ ∃ m₁, Starts c m asBody m₁ ∧ EndsInControl c m₁ x := by
  unfold framed Starts
  have hunit {m : Machine} : (∃ (u : Unit) (m₁ : Machine), outcome c m tick = (.ok u, m₁) ∧
      EndsInControl c m₁ x) ↔ ∃ m₁, outcome c m tick = (.ok (), m₁) ∧ EndsInControl c m₁ x :=
    ⟨fun ⟨(), h⟩ => h, fun h => ⟨(), h⟩⟩
  cases asBody with
  | true => exact endsInControl_withFrame.trans (endsInControl_bind.trans hunit)
  | false => exact endsInControl_bind.trans hunit

theorem not_endsInControl (h : Yields x (¬ ·.IsControl)) : ¬ EndsInControl c m x :=
  fun ⟨flow, hflow, hcontrol⟩ => h c m flow hflow hcontrol

end Steps

/-! ## Ends that are no loop control -/

theorem not_isControl_normal : ¬ Flow.normal.IsControl := nofun

theorem not_isControl_returned (v : Value) : ¬ (Flow.returned v).IsControl := nofun

/-- A loop ends normally if its body asks it to end, and otherwise only with what is returned. -/
theorem not_isControl_afterBody (flow : Flow) : ∀ f ∈ afterBody flow, ¬ f.IsControl := by
  cases flow <;> simp [afterBody, not_isControl_normal, not_isControl_returned]

/-- Whatever its body asks for, a loop does not pass it on. -/
theorem yields_afterBody (body : Stmt) :
    Yields (stmt call true body) fun flow => ∀ f ∈ afterBody flow, ¬ f.IsControl :=
  .of_forall not_isControl_afterBody

/-! ## Statements that stray -/

/-- The statement ends with loop control if and only if it strays. -/
def StraysExactly (c : Context) (call : Call) (s : Stmt) : Prop :=
  ∀ m asBody, EndsInControl c m (stmt call asBody s) ↔ Strays c call m asBody s

section Straying
variable {s : Stmt}

theorem straysExactly_break : StraysExactly c call .break := by
  intro m asBody
  unfold stmt
  simp only [endsInControl_framed, endsInControl_pure]
  constructor
  · rintro ⟨m₁, hstart, -⟩
    exact .break hstart
  · intro h
    cases h with
    | «break» hstart => exact ⟨_, hstart, .inl rfl⟩

theorem straysExactly_continue : StraysExactly c call .continue := by
  intro m asBody
  unfold stmt
  simp only [endsInControl_framed, endsInControl_pure]
  constructor
  · rintro ⟨m₁, hstart, -⟩
    exact .continue hstart
  · intro h
    cases h with
    | «continue» hstart => exact ⟨_, hstart, .inr rfl⟩

theorem straysExactly_branch {test : Expr} {alternative : Option Stmt}
    (hs : StraysExactly c call s) (ha : ∀ a ∈ alternative, StraysExactly c call a) :
    StraysExactly c call (.branch test s alternative) := by
  intro m asBody
  unfold stmt
  simp only [endsInControl_framed, endsInControl_bind]
  constructor
  · rintro ⟨m₁, hstart, v, m₂, htest, h⟩
    split at h
    · rename_i hv
      exact .consequent hstart htest hv ((hs m₂ true).mp h)
    · rename_i hv
      split at h
      · exact .alternative hstart htest (Bool.not_eq_true _ ▸ hv) ((ha _ rfl m₂ true).mp h)
      · exact (not_isControl_normal (endsInControl_pure.mp h)).elim
  · intro h
    cases h with
    | consequent hstart htest hv h =>
      exact ⟨_, hstart, _, _, htest, by rw [if_pos hv]; exact (hs _ true).mpr h⟩
    | alternative hstart htest hv h =>
      exact ⟨_, hstart, _, _, htest, by rw [hv]; exact (ha _ rfl _ true).mpr h⟩

theorem straysExactly_export (hs : StraysExactly c call s) : StraysExactly c call (.export s) := by
  intro m asBody
  unfold stmt
  simp only [endsInControl_framed, endsInControl_bind]
  constructor
  · rintro ⟨m₁, hstart, ⟨⟩, m₂, hnote, h⟩
    exact .export hstart hnote ((hs m₂ false).mp h)
  · intro h
    cases h with
    | «export» hstart hnote h => exact ⟨_, hstart, (), _, hnote, (hs _ false).mpr h⟩

theorem endsInControl_stmts {body : List Stmt} (hbody : ∀ s ∈ body, StraysExactly c call s) :
    EndsInControl c m (stmts call body) ↔ StrayAmong c call m body := by
  induction body generalizing m with
  | nil =>
    refine iff_of_false (fun h => not_isControl_normal (endsInControl_pure.mp h)) nofun
  | cons s rest ih =>
    obtain ⟨hs, hrest⟩ := List.forall_mem_cons.mp hbody
    rw [stmts, endsInControl_bind]
    constructor
    · rintro ⟨flow, m₁, hflow, h⟩
      cases flow with
      | normal => exact .tail hflow ((ih hrest).mp h)
      | returned v => exact (not_isControl_returned v (endsInControl_pure.mp h)).elim
      | broken | continued =>
        exact .head ((hs m false).mp ⟨_, congrArg Prod.fst hflow, endsInControl_pure.mp h⟩)
    · intro h
      cases h with
      | head h =>
        obtain ⟨flow, hflow, hcontrol⟩ := (hs m false).mpr h
        refine ⟨flow, _, Prod.ext hflow rfl, ?_⟩
        obtain rfl | rfl := hcontrol
        · exact endsInControl_pure.mpr (.inl rfl)
        · exact endsInControl_pure.mpr (.inr rfl)
      | tail hflow h => exact ⟨.normal, _, hflow, (ih hrest).mpr h⟩

theorem straysExactly_block {body : List Stmt} (hbody : ∀ s ∈ body, StraysExactly c call s) :
    StraysExactly c call (.block body) := by
  intro m asBody
  have hstep : stmt call asBody (.block body) = (unless asBody do tick) >>= fun _ =>
      withFrame (hoist body >>= fun _ => stmts call body) := by
    unfold stmt
    cases asBody <;> rfl
  rw [hstep]
  simp only [endsInControl_bind, endsInControl_withFrame, endsInControl_stmts hbody]
  constructor
  · rintro ⟨⟨⟩, m₁, hstart, ⟨⟩, m₂, hhoist, h⟩
    exact .block hstart hhoist h
  · intro h
    cases h with
    | block hstart hhoist h => exact ⟨(), _, hstart, (), _, hhoist, h⟩

theorem straysExactly_of_yields (h : ∀ asBody, Yields (stmt call asBody s) (¬ ·.IsControl))
    (hs : ∀ m asBody, ¬ Strays c call m asBody s) : StraysExactly c call s :=
  fun m asBody => iff_of_false (not_endsInControl (h asBody)) (hs m asBody)

end Straying

mutual

/-- **Only statements that stray end with loop control.** -/
theorem straysExactly (c : Context) (call : Call) (s : Stmt) : StraysExactly c call s := by
  cases s with
  -- Control is asked for by a statement itself, or handed on by one that runs statements once.
  | «break» => exact straysExactly_break
  | «continue» => exact straysExactly_continue
  | branch test s alternative =>
    exact straysExactly_branch (straysExactly c call s) (straysExactly_option c call alternative)
  | block body => exact straysExactly_block (straysExactly_all c call body)
  | «export» s => exact straysExactly_export (straysExactly c call s)
  -- Loops end with what `afterBody` lets out.
  | whileLoop test body =>
    refine straysExactly_of_yields (fun _ => ?_) nofun
    exact .stmt_whileLoop not_isControl_normal (yields_afterBody body)
  | doLoop body test =>
    refine straysExactly_of_yields (fun _ => ?_) nofun
    exact .stmt_doLoop not_isControl_normal (yields_afterBody body)
  | forLoop init test update body =>
    refine straysExactly_of_yields (fun _ => ?_) nofun
    exact .stmt_forLoop not_isControl_normal (yields_afterBody body)
  | forOf name source body =>
    refine straysExactly_of_yields (fun _ => ?_) nofun
    exact .stmt_forOf not_isControl_normal (yields_afterBody body)
  | forIn name source body =>
    refine straysExactly_of_yields (fun _ => ?_) nofun
    exact .stmt_forIn not_isControl_normal (yields_afterBody body)
  -- The other statements run no statements.
  | expr e => exact straysExactly_of_yields (fun _ => .stmt_expr not_isControl_normal e) nofun
  | decl kind declarators =>
    refine straysExactly_of_yields (fun _ => ?_) nofun
    exact .stmt_decl not_isControl_normal kind declarators
  | function f =>
    exact straysExactly_of_yields (fun _ => .stmt_function not_isControl_normal f) nofun
  | «return» value =>
    refine straysExactly_of_yields (fun _ => ?_) nofun
    cases value with
    | none => exact .stmt_return_none (not_isControl_returned _)
    | some e => exact .stmt_return_some not_isControl_returned e
  | throw e => exact straysExactly_of_yields (fun _ => .stmt_throw e) nofun
  | exportDefault e =>
    exact straysExactly_of_yields (fun _ => .stmt_exportDefault not_isControl_normal e) nofun
  | empty => exact straysExactly_of_yields (fun _ => .stmt_empty not_isControl_normal) nofun
termination_by structural s

theorem straysExactly_all (c : Context) (call : Call) (body : List Stmt) :
    ∀ s ∈ body, StraysExactly c call s := by
  cases body with
  | nil => exact List.forall_mem_nil _
  | cons s rest =>
    exact List.forall_mem_cons.mpr ⟨straysExactly c call s, straysExactly_all c call rest⟩
termination_by structural body

theorem straysExactly_option (c : Context) (call : Call) (a : Option Stmt) :
    ∀ s ∈ a, StraysExactly c call s := by
  cases a with
  | none => exact nofun
  | some s =>
    rintro _ ⟨⟩
    exact straysExactly c call s
termination_by structural a

end

/-! ## Programs and functions -/

section Bodies
variable {front back body : List Stmt} {s : Stmt}

theorem strays_outcome (h : Strays c call m asBody s) :
    ∃ flow m₁, outcome c m (stmt call asBody s) = (.ok flow, m₁) ∧ flow.IsControl := by
  obtain ⟨flow, hflow, hcontrol⟩ := (straysExactly c call s m asBody).mpr h
  exact ⟨flow, _, Prod.ext hflow rfl, hcontrol⟩

/-- A program with a statement that strays ends at it. -/
theorem programStmts_strayAmong (h : StrayAmong c call m body) :
    (outcome c m (programStmts call body)).1 =
      .error (.malformed "Illegal break or continue statement" none) := by
  induction body generalizing m with
  | nil => cases h
  | cons s rest ih =>
    rw [programStmts, outcome_bind]
    cases h with
    | head hs =>
      obtain ⟨flow, m₁, hflow, rfl | rfl⟩ := strays_outcome hs <;> rw [hflow] <;> rfl
    | tail hs hrest =>
      rw [hs]
      exact ih hrest

/-- Statements of a function that are run one after the other, none of which returns. -/
inductive Passes (c : Context) (call : Call) : Machine → List Stmt → Machine → Prop
  | nil {m : Machine} : Passes c call m [] m
  | cons {m m₁ m₂ : Machine} {s : Stmt} {rest : List Stmt} {flow : Flow}
    (hs : outcome c m (stmt call false s) = (.ok flow, m₁)) (hflow : ∀ v, flow ≠ .returned v)
    (hrest : Passes c call m₁ rest m₂) : Passes c call m (s :: rest) m₂

theorem outcome_bodyStmts_append (h : Passes c call m front m₁) :
    outcome c m (bodyStmts call (front ++ back)) = outcome c m₁ (bodyStmts call back) := by
  induction h with
  | nil => rfl
  | cons hs hflow _ ih =>
    rw [List.cons_append, bodyStmts, outcome_bind, hs, ← ih]
    rename_i flow _
    cases flow with
    | returned v => exact (hflow v rfl).elim
    | normal | broken | continued => rfl

/-- A function leaves a statement that strays, and goes on with the next one. -/
theorem outcome_bodyStmts_strays (h : Strays c call m false s) :
    outcome c m (bodyStmts call (s :: back)) =
      outcome c (outcome c m (stmt call false s)).2 (bodyStmts call back) := by
  obtain ⟨flow, m₁, hflow, hcontrol⟩ := strays_outcome h
  rw [bodyStmts, outcome_bind, hflow]
  obtain rfl | rfl := hcontrol <;> rfl

end Bodies

/-- **Loop control without a loop.**  A statement ends with loop control if and only if it strays,
whatever the functions do that it calls.  If a statement of the program strays, the evaluation
fails.  If a statement of a function strays, the call goes on with the next statement of the
function. -/
theorem stray_control (c : Context) :
    (∀ call m asBody s,
      EndsInControl c m (stmt call asBody s) ↔ Strays c call m asBody s) ∧
    (∀ m m₀ body, outcome c m (hoist body) = (.ok (), m₀) →
      StrayAmong c (topCall c.limits) m₀ body →
      (outcome c m (program body)).1 =
        .error (.malformed "Illegal break or continue statement" none)) ∧
    ∀ depth id f captured siblings args m m₀ m₁ front s back,
      let self := Value.closure id f captured siblings
      let call := callVia (enter depth)
      f.body = .block (front ++ s :: back) →
      outcome c (m.enter (activationOf self f captured siblings args))
        (hoist (front ++ s :: back)) = (.ok (), m₀) →
      Passes c call m₀ front m₁ → Strays c call m₁ false s →
      let rest := outcome c (outcome c m₁ (stmt call false s)).2 (bodyStmts call back)
      outcome c m (enter (depth + 1) self args) = (rest.1, rest.2.leave) := by
  refine ⟨fun call m asBody s => straysExactly c call s m asBody, ?_, ?_⟩
  · intro m m₀ body hhoist hstray
    rw [program, outcome_bind, outcome_limits]
    dsimp only
    rw [programWith, outcome_bind, hhoist]
    exact programStmts_strayAmong hstray
  · intro depth id f captured siblings args m m₀ m₁ front s back
    dsimp only
    intro hbody hhoist hfront hstray
    have hrun : outcome c
        (m.enter (activationOf (.closure id f captured siblings) f captured siblings args))
        (functionBody (callVia (enter depth)) f.body) =
          outcome c (outcome c m₁ (stmt (callVia (enter depth)) false s)).2
            (bodyStmts (callVia (enter depth)) back) := by
      rw [hbody, functionBody, outcome_bind, hhoist]
      exact (outcome_bodyStmts_append hfront).trans (outcome_bodyStmts_strays hstray)
    rw [← hrun]
    exact outcome_between c m _ _ _

/-- A `break` in a branch ends a program; in front of a `return` it has no effect on what a function
answers. -/
theorem stray_control_nested :
    let c : Context := { budget := { limit := 5000 } }
    let m : Machine := { next := Globals.firstIdentity }
    let program : List Stmt := [.block [.branch (.bool true) (.block [.break]) none]]
    let f : FunctionDef := .mk (some "f") [] (.block [.break, .return (some (.number 1))]) false
    StrayAmong c (topCall c.limits) m program ∧
      (outcome c m (Eval.program program)).1 =
        .error (.malformed "Illegal break or continue statement" none) ∧
      (outcome c m (enter 1 (.closure 0 f [] []) [])).1 = .ok (.number 1) := by
  intro c m program f
  obtain ⟨-, hprogram, hfunction⟩ := stray_control c
  have hstray : StrayAmong c (topCall c.limits) m program :=
    .head (.block rfl rfl (.head (.consequent rfl rfl rfl (.block rfl rfl (.head (.break rfl))))))
  have hcall := hfunction 0 0 f [] [] [] m _ _ [] .break [.return (some (.number 1))] rfl rfl .nil
    (.break rfl)
  exact ⟨hstray, hprogram m m program rfl hstray, congrArg Prod.fst hcall⟩

end Eval
end Stencil.Script
