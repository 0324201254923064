import Stencil.Proofs.Script.Loosening.Machine
import Stencil.Proofs.Script.MatchLogic.Evaluator

/-! # Programs with loosened constants

That a run follows another one is a logic of steps that match (`MatchLogic.loosening`).  So **a
program does the same with `let` in the place of `const`**, in declarations of names that it never
assigns (`Eval.runProgram_loosen`), with one exception: methods that change their receiver, in place
or by putting their answer there, count as assignments of a constant that they are called on.
-/
namespace Stencil.Script

/-- Functions are loosened, or as they are. -/
def Redefinition.loosening (X : List String) (excused : Prop) : Redefinition where
  Defines f f' := f' = f ∨ f.Loosened X excused f'
  refl _ := .inl rfl
  name := by
    rintro f _ (rfl | ⟨-, χ, rfl⟩)
    · rfl
    · exact f.name_loosen
  params := by
    rintro f _ (rfl | ⟨-, χ, rfl⟩)
    · rfl
    · exact f.params_loosen
  isArrow := by
    rintro f _ (rfl | ⟨-, χ, rfl⟩)
    · rfl
    · exact f.isArrow_loosen

/-- The host does not look at what scripts cannot see: to arguments that are related it gives
answers that are. -/
def Host.IsBlind (host : Host) : Prop :=
  ∀ R, Resemblance R → (∀ v, R v v) → (∀ id, Encloses R id id) →
    ∀ name args args', List.Forall₂ R args args' →
      (∃ v v', host.natives name args = .ok v ∧ host.natives name args' = .ok v' ∧ R v v') ∨
        ∃ message, host.natives name args = .error message ∧
          host.natives name args' = .error message

theorem RunFollows.runHost {c : Context} {D : Redefinition} {excused : Prop} {X : List String}
    (hhost : c.host.IsBlind) (name : String) {args args' : List Value}
    (hargs : List.Forall₂ (Value.Redefined D) args args') :
    RunFollows c D excused X (Native.runHost name args) (Native.runHost name args')
      (Value.Redefined D) := by
  intro m m' hm
  rw [Eval.outcome_runHost, Eval.outcome_runHost]
  rcases hhost _ (Value.Redefined.resemblance D) (.refl D) Value.Redefined.encloses name args args'
    hargs with ⟨v, v', h, h', hv⟩ | ⟨message, h, h'⟩ <;> rw [h, h']
  · exact .ok ⟨hv, { hm with }, rfl, rfl⟩
  · exact .error _

/-- How functions are run: those of the program with loosened constants, all others as they are. -/
inductive Looseness where
  | loose
  | strict

namespace Looseness
variable (X : List String) (excused : Prop)

/-- The names whose declarations may be loosened. -/
def names : Looseness → List String
  | .loose => X
  | .strict => []

/-- What may stand in the trees. -/
def trees : Looseness → Trees
  | .loose => .loosened X excused
  | .strict => .within (fun _ => True) fun _ => True

variable {X excused} {A : Looseness}

theorem defines {f f' : FunctionDef} (h : (A.trees X excused).functions f f') :
    (Redefinition.loosening X excused).Defines f f' := by
  cases A with
  | loose => exact .inr h
  | strict => exact .inl h.1

theorem excuses {t : Target} (h : (A.trees X excused).Places t) :
    t.keys = [] → t.root ∈ A.names X → excused := by
  cases A with
  | loose => exact h.writes
  | strict => exact fun _ => nofun

theorem loosens {x : String} {constant constant' : Bool}
    (h : (A.trees X excused).declares x constant constant') :
    Loosens (A.names X) x constant constant' := by
  cases A with
  | loose => exact h
  | strict => exact .inl h

theorem declarations {body body' : List Stmt} (h : (A.trees X excused).scopes body body') :
    List.Forall₂ (fun p p' => p'.1 = p.1 ∧ (Redefinition.loosening X excused).Defines p.2 p'.2)
      (declarations body) (declarations body') := by
  cases A with
  | loose => exact List.Forall₂.imp (fun _ _ hp => ⟨hp.1, .inr hp.2⟩) h
  | strict =>
    obtain rfl : body' = body := h.1
    exact List.forall₂_same.mpr fun _ _ => ⟨rfl, .inl rfl⟩

end Looseness

/-- **That runs with loosened constants follow the others is a logic of steps that match.** -/
def MatchLogic.loosening (c : Context) (X : List String) (excused : Prop)
    (hhost : c.host.IsBlind) : MatchLogic where
  World := Unit
  Le _ _ := True
  refl _ := trivial
  trans _ _ := trivial
  Match _ := Value.Redefined (.loosening X excused)
  Mode := Looseness
  trees := Looseness.trees X excused
  Holds A w _ _ x x' Q := RunFollows c (.loosening X excused) excused (A.names X) x x' (Q w)
  mono _ h := h
  resembles _ := Value.Redefined.resemblance _
  builtin _ := .refl _ _
  modules _ _ := .refl _ _
  result := RunFollows.result
  bind h hf := RunFollows.bind h fun a a' ha => hf () a a' trivial ha
  fail e _ := RunFollows.fail e
  ofCall h := h
  ofPlaces h := h
  ofBlock h := h
  tick := RunFollows.tick
  charge := RunFollows.charge
  limits := RunFollows.limits
  now := RunFollows.now
  random := RunFollows.random
  isHelper := RunFollows.isHelper
  isLocal := RunFollows.isLocal
  isDeclared := RunFollows.isDeclared
  lookup? name _ := RunFollows.lookup? name
  lookup name _ := RunFollows.lookup name
  newArray := RunFollows.newArray
  newObject h := RunFollows.newObject h.1
  newClosure h := RunFollows.newClosure (Looseness.defines h)
  plainArray _ _ := RunFollows.plainArray (List.forall₂_same.mpr fun _ _ => .refl _ _)
  plainObject _ _ := RunFollows.plainObject (Value.Redefined.sameMembers_refl _)
  entries h := RunFollows.entries h.1
  parseJson := RunFollows.parseJson
  fetch := RunFollows.fetch
  runHost {_ _ _ _ name _ _ _} _ hargs := RunFollows.runHost hhost name hargs
  assign target htarget _ hv := RunFollows.assign target (Looseness.excuses htarget) hv
  changeInPlace op hargs htarget := RunFollows.changeInPlace op hargs
    ((htarget ()).weaken fun _ _ ht => ⟨Looseness.excuses ht.1, ht.2.2⟩)
  assignable {A name} := by
    cases A with
    | loose => exact .inl rfl
    | strict => rfl
  declare h hv := RunFollows.declare (Looseness.loosens h) hv
  hoist h := RunFollows.hoist (Looseness.declarations h)
  complete := RunFollows.complete
  takeCompletion := RunFollows.takeCompletion
  noteExport _ := RunFollows.noteExport _ _
  setDefault _ := RunFollows.setDefault _ _
  withFrame := RunFollows.withFrame
  loop hgo hturn := RunFollows.loop .normal (hgo ()) (hturn ())
  function := by
    intro w id f captured siblings id' f' captured' siblings' hclosure
    obtain ⟨rfl, hf, hcaptured, rfl⟩ := hclosure.closures
    have hactivation : ∀ {B : Looseness} {args args' : List Value},
        List.Forall₂ (Value.Redefined (.loosening X excused)) args args' →
        Activation.Loosened (.loosening X excused) (B.names X)
          (Eval.activationOf (.closure id' f captured siblings') f captured siblings' args)
          (Eval.activationOf (.closure id' f' captured' siblings') f' captured' siblings' args') :=
      fun hargs => .activationOf hf hcaptured hargs
    rcases hf with rfl | ⟨hparts, χ, rfl⟩
    · exact ⟨.strict, f'.body.like_self (fun _ _ => trivial)
        (f'.writesAmong_true trivial), fun hargs h =>
        RunFollows.withActivation (hactivation hargs) h⟩
    · refine ⟨.loose, ?_, fun hargs h => RunFollows.withActivation (hactivation hargs) h⟩
      rw [FunctionDef.body_loosen]
      exact f.body.like_loosen χ (f.parts_body ▸ hparts)

/-! ## Programs -/

/-- No part of a program assigns a name that the program does not, or changes one. -/
theorem Stmt.spares_of_mem {X : List String} {body : List Stmt}
    (h : ∀ x ∈ X, x ∉ Stmt.assignedNames body) :
    ∀ e ∈ Stmt.partsOf body, e.Spares X (∃ x ∈ X, x ∈ Stmt.changedNames body) := fun e he =>
  { assigned := fun x hx hX => h x hX (List.mem_filterMap.mpr ⟨e, he, hx⟩)
    changed := fun x hx hX => ⟨x, hX, List.mem_filterMap.mpr ⟨e, he, hx⟩⟩ }

namespace Eval

/-- **With `let` in the place of `const` a program does the same**, if the names that are declared
so are never assigned: it gives the same value, but for the definitions of functions in it, or the
same error.  Only a program that calls a method on such a name that changes its receiver may instead
fail with `const` because a constant would be assigned. -/
theorem runProgram_loosen {c : Context} {X : List String} {body : List Stmt}
    (hhost : c.host.IsBlind) (hassigned : ∀ x ∈ X, x ∉ Stmt.assignedNames body)
    (next : Identity) (χ : Choice) :
    Follows (∃ x ∈ X, x ∈ Stmt.changedNames body)
      (Value.Redefined (.loosening X (∃ x ∈ X, x ∈ Stmt.changedNames body)))
      (runProgram c next body).1 (runProgram c next (Stmt.loosenAll X χ body)).1 := by
  have hspares := Stmt.spares_of_mem hassigned
  generalize (∃ x ∈ X, x ∈ Stmt.changedNames body) = excused at hspares ⊢
  let L := MatchLogic.loosening c X excused hhost
  have hrun := MatchLogic.programWith (L := L) (A := .loose) (w := ())
    (MatchLogic.callVia (MatchLogic.enter (c.limits.callDepth - 1)))
    (declarations_loosenAll χ body hspares) (Stmt.allLike_loosen χ body hspares)
  have hstart : ({ next } : Machine).Loosened (.loosening X excused) X { next } :=
    { current := ⟨.cons .nil .nil, .nil, rfl⟩
      waiting := rfl
      ticks := rfl
      allocated := rfl
      next := rfl
      seed := rfl
      completion := .refl _ _ }
  rw [runProgram, runProgram, runFrom_eq, runFrom_eq, program, program, outcome_bind, outcome_bind,
    outcome_limits]
  exact (hrun _ _ hstart).imp fun _ _ h => h.1

/-- A host whose functions answer with `undefined` does not look at anything. -/
theorem isBlind_default : ({} : Host).IsBlind :=
  fun _ hR _ _ _ _ _ _ => .inl ⟨_, _, rfl, rfl, hR.plain rfl⟩

/-- An item of an array may be assigned that is declared constant, with the same result as of one
that is not. -/
theorem runProgram_loosen_item :
    let c : Context := { budget := { limit := 5000 } }
    let first : Expr := .member (.name "a") (.string "0") false
    let body : DeclKind → List Stmt := fun kind =>
      [.decl kind [("a", some (.array [.string "x"]))], .expr (.assign .assign first (.string "y")),
        .expr first]
    c.host.IsBlind ∧ (∀ x ∈ ["a"], x ∉ Stmt.assignedNames (body .constDecl)) ∧
      ¬ (∃ x ∈ ["a"], x ∈ Stmt.changedNames (body .constDecl)) ∧
      Stmt.loosenAll ["a"] (fun _ => true) (body .constDecl) = body .letDecl ∧
      Follows False (Value.Redefined (.loosening ["a"] False)) (runProgram c 0 (body .constDecl)).1
        (runProgram c 0 (body .letDecl)).1 ∧
      (runProgram c 0 (body .letDecl)).1 = .ok (.string "y") := by
  intro c first body
  have hassigned : ∀ x ∈ ["a"], x ∉ Stmt.assignedNames (body .constDecl) := by decide
  have hchanged : ¬ ∃ x ∈ ["a"], x ∈ Stmt.changedNames (body .constDecl) := by decide
  have hfollows := runProgram_loosen (c := c) isBlind_default hassigned 0 fun _ => true
  rw [eq_false hchanged] at hfollows
  exact ⟨isBlind_default, hassigned, hchanged, rfl, hfollows, rfl⟩

/-- The exception is there: an item is taken out of an array only if its name is not constant. -/
example :
    let c : Context := { budget := { limit := 5000 } }
    let run : DeclKind → Except ScriptError Value := fun kind =>
      (runProgram c 0 [.decl kind [("a", some (.array [.string "x"]))],
        .expr (.call (.member (.name "a") (.string "pop") false) [] false)]).1
    (run .constDecl, run .letDecl) = (.error constantAssigned, .ok (.string "x")) := rfl

end Eval
end Stencil.Script
