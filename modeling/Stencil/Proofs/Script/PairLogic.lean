import Stencil.Proofs.Script.MatchLogic.Evaluator
import Stencil.Proofs.Script.Renaming

/-! # Judging one program on two sides

A **logic of pairs** speaks of a program that is run on two sides and does the same on both, up to
the identities of values: `Holds w n r x x' Q` speaks of the steps `x` and `x'`, inside which `n`
calls may still be nested, whose reach is `r` and whose results are related by `Q`.

A judgement is made in a **world**, which says what is known of the values that are about: a value
*fits* a world if it is as the world says.  Evaluations learn, so results are related in a world that
may be later than the one in which the step began, and what fits a world fits every later one.

A logic of pairs is a logic of steps that match (`PairLogic.matching`): the trees are the same, and
two values belong together if the first one fits and the second one is the first with other
identities.  So it holds of every expression, every statement and every program whose functions have
the definitions that it knows.  A logic about single runs leaves identities alone and says nothing
about the second step.
-/
namespace Stencil.Script

/-- What ends a statement, with the identities renamed. -/
def Flow.rename (ρ : Identity → Identity) : Flow → Flow
  | .returned v => .returned (v.rename ρ)
  | .normal => .normal
  | .broken => .broken
  | .continued => .continued

/-- The two sides of a judgement: the worlds, the values that fit them, and the renaming between the
sides. -/
structure Sides where
  /-- What may be known of values. -/
  World : Type
  /-- The second world is the first one or a later one. -/
  Le : World → World → Prop
  refl : ∀ w, Le w w
  trans : ∀ {u v w}, Le u v → Le v w → Le u w
  /-- The identities of the second side. -/
  rename : Identity → Identity
  /-- The values that are as the world says. -/
  Fits : World → Value → Prop
  /-- The keys that members may have. -/
  Keys : World → String → Prop := fun _ _ => True
  /-- The keys under which members may be written. -/
  writable : String → Prop := fun _ => True

namespace Sides
variable (S : Sides) {α : Type}

/-- The results are the same. -/
def Same (_ : S.World) (a a' : α) : Prop :=
  a' = a

/-- The first value fits the world, and the second one is the same with other identities. -/
def Paired (w : S.World) (v v' : Value) : Prop :=
  S.Fits w v ∧ v' = v.rename S.rename

/-- Every value of a list fits. -/
def FitsAll (w : S.World) (vs : List Value) : Prop :=
  ∀ v ∈ vs, S.Fits w v

/-- Lists that are paired value by value. -/
def PairedAll (w : S.World) (vs vs' : List Value) : Prop :=
  S.FitsAll w vs ∧ vs' = vs.map (Value.rename S.rename)

/-- Every member has a key that it may have, and a value that fits. -/
def FitsMembers (w : S.World) (members : List (String × Value)) : Prop :=
  ∀ p ∈ members, S.Keys w p.1 ∧ S.Fits w p.2

/-- Members that are paired value by value. -/
def PairedMembers (w : S.World) (members members' : List (String × Value)) : Prop :=
  S.FitsMembers w members ∧ members' = mapMembers (Value.rename S.rename) members

/-- The places are the same, and members may have all keys on the way to them and be written. -/
def SameTarget (w : S.World) (t t' : Target) : Prop :=
  (∀ key ∈ t.keys, S.Keys w key ∧ S.writable key) ∧ t' = t

/-- An answer that may be missing fits. -/
def FitsAnswer (w : S.World) (answer : Option Value) : Prop :=
  ∀ v ∈ answer, S.Fits w v

/-- Answers that are paired or are both missing. -/
def PairedAnswer (w : S.World) (answer answer' : Option Value) : Prop :=
  S.FitsAnswer w answer ∧ answer' = answer.map (Value.rename S.rename)

/-- A value that a statement returns fits. -/
def FitsFlow (w : S.World) : Flow → Prop
  | .returned v => S.Fits w v
  | .normal | .broken | .continued => True

/-- Statements end alike. -/
def PairedFlow (w : S.World) (flow flow' : Flow) : Prop :=
  S.FitsFlow w flow ∧ flow' = flow.rename S.rename

/-- Loops go on alike or end alike. -/
def PairedEnd (w : S.World) (flow flow' : Option Flow) : Prop :=
  (∀ f ∈ flow, S.FitsFlow w f) ∧ flow' = flow.map (Flow.rename S.rename)

end Sides

/-- **A logic of pairs of steps**: a meaning of judgements under which the rules hold that compose
evaluations. -/
structure PairLogic extends Sides where
  /-- The definitions that functions of scripts may have. -/
  definitions : FunctionDef → Prop
  /-- What is said of two steps and their results. -/
  Holds : {α : Type} → World → Nat → Reach → Eval α → Eval α → (World → α → α → Prop) → Prop
  injective : Function.Injective rename
  /-- Global objects are the same on both sides. -/
  globals : ∀ id < Globals.firstIdentity, rename id = id
  inner : ∀ f, definitions f → ∀ g ∈ f.body.functions, definitions g
  writes : ∀ f, definitions f → ∀ d ∈ f.body.parts, d.WritesAmong writable
  -- The values that fit a world.
  mono : ∀ {w w' v}, Le w w' → Fits w v → Fits w' v
  plain : ∀ {w v}, v.isPlain → Fits w v
  builtin : ∀ {w} (b), Fits w (.native (.builtin b))
  modules : ∀ {w}, ∀ p ∈ Globals.modules, Fits w p.2
  items : ∀ {w id items}, Fits w (.array id items) → ∀ v ∈ items, Fits w v
  members : ∀ {w id members}, Fits w (.object id members) → toSides.FitsMembers w members
  definition : ∀ {w id f captured siblings},
    Fits w (.closure id f captured siblings) → definitions f
  -- The keys that members may have.
  keysMono : ∀ {w w' key}, Le w w' → Keys w key → Keys w' key := by intros; exact True.intro
  allowedKeys : ∀ {w key}, Security.isDenied key = false → Keys w key := by
    intros; exact True.intro
  -- How steps are composed.
  result : ∀ {α w n r} {Q : World → α → α → Prop} {a a'}, Q w a a' →
    Holds w n r (pure a) (pure a') Q
  bind : ∀ {α β w n r} {P : World → α → α → Prop} {Q : World → β → β → Prop}
    {x x' : Eval α} {f f' : α → Eval β}, Holds w n r x x' P →
    (∀ w' a a', Le w w' → P w' a a' → Holds w' n r (f a) (f' a') Q) →
    Holds w n r (x >>= f) (x' >>= f') Q
  fail : ∀ {α w n r} {Q : World → α → α → Prop} (e), Holds w n r (throw e) (throw e) Q
  /-- A step of a call may stand anywhere. -/
  ofCall : ∀ {α w n r} {Q : World → α → α → Prop} {x x' : Eval α},
    Holds w n .call x x' Q → Holds w n r x x' Q
  /-- A step of an expression may stand in a statement. -/
  ofPlaces : ∀ {α w n} {Q : World → α → α → Prop} {x x' : Eval α},
    Holds w n .places x x' Q → Holds w n .block x x' Q
  /-- A step of a statement may stand in a program. -/
  ofBlock : ∀ {α w n} {Q : World → α → α → Prop} {x x' : Eval α},
    Holds w n .block x x' Q → Holds w n .program x x' Q
  -- What is read and counted.
  tick : ∀ {w n}, Holds w n .call Eval.tick Eval.tick toSides.Same
  charge : ∀ {w n} (bytes), Holds w n .call (Eval.charge bytes) (Eval.charge bytes) toSides.Same
  limits : ∀ {w n}, Holds w n .call Eval.limits Eval.limits toSides.Same
  now : ∀ {w n}, Holds w n .call Eval.now Eval.now toSides.Same
  random : ∀ {w n}, Holds w n .call Native.random Native.random toSides.Same
  isHelper : ∀ {w n} (name),
    Holds w n .call (Eval.isHelper name) (Eval.isHelper name) toSides.Same
  isLocal : ∀ {w n} (name), Holds w n .call (Eval.isLocal name) (Eval.isLocal name) toSides.Same
  isDeclared : ∀ {w n} (name),
    Holds w n .call (Eval.isDeclared name) (Eval.isDeclared name) toSides.Same
  lookup? : ∀ {w n} (name),
    Holds w n .call (Eval.lookup? name) (Eval.lookup? name) toSides.PairedAnswer
  -- What is made, and what comes from outside.
  newArray : ∀ {w n} (items : Array Value), (∀ v ∈ items, Fits w v) →
    Holds w n .call (Eval.newArray items) (Eval.newArray (items.map (Value.rename rename)))
      toSides.Paired
  newObject : ∀ {w n members}, toSides.FitsMembers w members →
    Holds w n .call (Eval.newObject members)
      (Eval.newObject (mapMembers (Value.rename rename) members)) toSides.Paired
  newClosure : ∀ {w n} (f), definitions f →
    Holds w n .call (Eval.newClosure f) (Eval.newClosure f) toSides.Paired
  plainArray : ∀ {w n} (items : Array Value), Value.Listed items →
    Holds w n .call (Eval.plainArray items) (Eval.plainArray items) toSides.Paired
  plainObject : ∀ {w n} (members : List (String × Value)),
    (∀ p ∈ members, Keys w p.1 ∧ p.2.isPlain) →
    Holds w n .call (Eval.plainObject members) (Eval.plainObject members) toSides.Paired
  entries : ∀ {w n members}, toSides.FitsMembers w members →
    Holds w n .call
      (do Eval.newList (← members.mapM fun (key, v) => Eval.plainArray #[.string key, v]))
      (do Eval.newList (← (mapMembers (Value.rename rename) members).mapM fun (key, v) =>
        Eval.plainArray #[.string key, v])) toSides.Paired
  parseJson : ∀ {w n} (s),
    Holds w n .call (Native.parseJson s) (Native.parseJson s) toSides.Paired
  fetch : ∀ {w n} (url), Holds w n .call (Native.fetch url) (Native.fetch url) toSides.Paired
  runHost : ∀ {w n id name arity args}, Fits w (.native (.host id name arity)) →
    toSides.FitsAll w args →
    Holds w n .call (Native.runHost name args)
      (Native.runHost name (args.map (Value.rename rename))) toSides.Paired
  -- What is changed.
  assign : ∀ {w n v} (target : Target), (∀ key ∈ target.keys, Keys w key ∧ writable key) → Fits w v →
    Holds w n .places (Eval.assign target v) (Eval.assign target (v.rename rename)) toSides.Same
  changeInPlace : ∀ {w n args} {target target' : Eval Target} (op), toSides.FitsAll w args →
    (∀ w, Holds w n .places target target' toSides.SameTarget) →
    Holds w n .places (Eval.changeInPlace op args target)
      (Eval.changeInPlace op (args.map (Value.rename rename)) target') toSides.Paired
  declare : ∀ {w n v} (name) (constant), Fits w v →
    Holds w n .block (Eval.declare name v constant)
      (Eval.declare name (v.rename rename) constant) toSides.Same
  complete : ∀ {w n v}, Fits w v →
    Holds w n .block (Eval.complete v) (Eval.complete (v.rename rename)) toSides.Same
  takeCompletion : ∀ {w n},
    Holds w n .program Eval.takeCompletion Eval.takeCompletion toSides.Paired
  noteExport : ∀ {w n} (s),
    Holds w n .block (Eval.noteExport s) (Eval.noteExport s) toSides.Same
  setDefault : ∀ {w n v}, Fits w v →
    Holds w n .block (Eval.setDefault v) (Eval.setDefault (v.rename rename)) toSides.Same
  -- Blocks, loops and calls.
  withFrame : ∀ {α w n} {Q : World → α → α → Prop} {x x' : Eval α},
    Holds w n .block x x' Q → Holds w n .block (Eval.withFrame x) (Eval.withFrame x') Q
  loop : ∀ {w n} {go go' turn turn'}, (∀ w, Holds w n .block go go' toSides.Same) →
    (∀ w, Holds w n .block turn turn' toSides.PairedEnd) →
    Holds w n .block (Eval.loop go turn) (Eval.loop go' turn') toSides.PairedFlow
  withActivation : ∀ {w n id f captured siblings args} {x x' : Eval Value},
    Fits w (.closure id f captured siblings) → toSides.FitsAll w args →
    Holds w n .block x x' toSides.Paired →
    Holds w (n + 1) .call
      (Eval.withActivation
        (Eval.activationOf (.closure id f captured siblings) f captured siblings args) x)
      (Eval.withActivation
        (Eval.activationOf ((Value.closure id f captured siblings).rename rename) f
          (mapMembers (Value.rename rename) captured)
          (mapMembers (ModuleBinding.rename rename) siblings)
          (args.map (Value.rename rename))) x') toSides.Paired

namespace Sides
variable {S : Sides} {w : S.World}

/-! ## Values that are paired one by one -/

theorem forall₂_paired_iff {vs vs' : List Value} :
    List.Forall₂ (S.Paired w) vs vs' ↔ S.PairedAll w vs vs' := by
  constructor
  · intro h
    induction h with
    | nil => exact ⟨List.forall_mem_nil _, rfl⟩
    | cons hv _ ih =>
      refine ⟨List.forall_mem_cons.mpr ⟨hv.1, ih.1⟩, ?_⟩
      rw [hv.2, ih.2, List.map_cons]
  · rintro ⟨h, rfl⟩
    exact List.forall₂_map_right_iff.mpr (List.forall₂_same.mpr fun v hv => ⟨h v hv, rfl⟩)

theorem sameMembers_paired_iff {members members' : List (String × Value)} :
    (SameMembers (S.Paired w) members members' ∧ ∀ p ∈ members, S.Keys w p.1) ↔
      S.PairedMembers w members members' := by
  constructor
  · rintro ⟨h, hkeys⟩
    induction h with
    | nil => exact ⟨List.forall_mem_nil _, rfl⟩
    | @cons p p' rest rest' hp _ ih =>
      obtain ⟨hkey, hkeys⟩ := List.forall_mem_cons.mp hkeys
      obtain ⟨hrest, hrest'⟩ := ih hkeys
      refine ⟨List.forall_mem_cons.mpr ⟨⟨hkey, hp.2.1⟩, hrest⟩, ?_⟩
      rw [hrest', mapMembers_cons, ← hp.2.2, ← hp.1]
  · rintro ⟨h, rfl⟩
    refine ⟨?_, fun p hp => (h p hp).1⟩
    exact List.forall₂_map_right_iff.mpr
      (List.forall₂_same.mpr fun p hp => ⟨rfl, (h p hp).2, rfl⟩)

theorem rel_paired_iff {answer answer' : Option Value} :
    Option.Rel (S.Paired w) answer answer' ↔ S.PairedAnswer w answer answer' := by
  constructor
  · rintro (⟨hv, rfl⟩ | _)
    · exact ⟨fun u hu => Option.some.inj hu ▸ hv, rfl⟩
    · exact ⟨fun _ hu => (nomatch hu), rfl⟩
  · rintro ⟨h, rfl⟩
    cases answer with
    | none => exact .none
    | some v => exact .some ⟨h v rfl, rfl⟩

theorem matches_paired_iff {flow flow' : Flow} :
    Flow.Matches (S.Paired w) flow flow' ↔ S.PairedFlow w flow flow' := by
  constructor
  · rintro (_ | _ | _ | ⟨hv, rfl⟩)
    · exact ⟨trivial, rfl⟩
    · exact ⟨trivial, rfl⟩
    · exact ⟨trivial, rfl⟩
    · exact ⟨hv, rfl⟩
  · rintro ⟨h, rfl⟩
    cases flow with
    | normal => exact .normal
    | broken => exact .broken
    | continued => exact .continued
    | returned v => exact .returned ⟨h, rfl⟩

theorem pairedEnd_of_rel {flow flow' : Option Flow}
    (h : Option.Rel (Flow.Matches (S.Paired w)) flow flow') : S.PairedEnd w flow flow' := by
  cases h with
  | none => exact ⟨fun _ hf => (nomatch hf), rfl⟩
  | some h =>
    obtain ⟨hflow, rfl⟩ := matches_paired_iff.mp h
    exact ⟨fun _ hf => Option.some.inj hf ▸ hflow, rfl⟩

end Sides

namespace PairLogic
variable {L : PairLogic} {α β : Type} {w : L.World} {n : Nat} {r : Reach}

/-! ## A logic of steps that match -/

theorem weaken {P Q : L.World → α → α → Prop} {x x' : Eval α} (h : L.Holds w n r x x' P)
    (hPQ : ∀ w' a a', P w' a a' → Q w' a a') : L.Holds w n r x x' Q := by
  rw [← bind_pure x, ← bind_pure x']
  exact L.bind h fun w' a a' _ ha => L.result (hPQ w' a a' ha)

theorem lookup (name : String) :
    L.Holds w n r (Eval.lookup name) (Eval.lookup name) L.Paired := by
  unfold Eval.lookup
  refine L.bind (L.ofCall (L.lookup? name)) ?_
  rintro w₁ v _ - ⟨hv, rfl⟩
  cases v with
  | none => exact L.fail _
  | some v => exact L.result ⟨hv v rfl, rfl⟩

theorem hoist {body : List Stmt} (h : ∀ f ∈ Stmt.functionsOf body, L.definitions f) :
    L.Holds w n .block (Eval.hoist body) (Eval.hoist body) L.Same := by
  induction body generalizing w with
  | nil => exact L.result rfl
  | cons s rest ih =>
    obtain ⟨hs, hrest⟩ := List.forall_mem_append.mp h
    refine L.bind (P := L.Same) ?_ fun w₁ _ _ _ _ => ih hrest
    dsimp only
    split
    · rename_i f hf
      have hmake := L.newClosure (w := w) (n := n) f (hs f (Stmt.mem_functions_of_declared hf))
      split
      · refine L.bind (L.ofCall hmake) ?_
        rintro w₁ v _ - ⟨hv, rfl⟩
        exact L.declare _ _ hv
      · exact L.result rfl
    · exact L.result rfl

theorem resemblance (w : L.World) : Resemblance (L.Paired w) where
  looks := by
    rintro v _ ⟨hv, rfl⟩
    cases v with
    | array id items =>
      rw [Value.rename_array]
      refine .array (Sides.forall₂_paired_iff.mpr ⟨fun v h => ?_, Array.toList_map⟩)
      exact L.items hv v (Array.mem_toList_iff.mp h)
    | object id members =>
      rw [Value.rename_object]
      exact .object (Sides.sameMembers_paired_iff.mpr ⟨L.members hv, rfl⟩).1
    | closure id f captured siblings =>
      rw [Value.rename_closure]
      exact .closure rfl rfl
    | native f => exact .native f
    | _ => exact .plain rfl
  plain h := ⟨L.plain h, (Value.rename_plain h).symm⟩
  identity := by
    rintro v _ u _ a a' b b' ⟨-, rfl⟩ ⟨-, rfl⟩ ha ha' hb hb'
    rw [Value.identity?_rename, ha] at ha'
    rw [Value.identity?_rename, hb] at hb'
    obtain rfl := Option.some.inj ha'
    obtain rfl := Option.some.inj hb'
    exact L.injective.eq_iff

/-- **A logic of pairs is a logic of steps that match.** -/
def matching (L : PairLogic) : MatchLogic where
  World := L.World
  Le := L.Le
  refl := L.refl
  trans := L.trans
  Match := L.Paired
  Keys := L.Keys
  Mode := Unit
  trees _ := .within L.definitions L.writable
  Holds _ := L.Holds
  mono hw h := ⟨L.mono hw h.1, h.2⟩
  resembles := resemblance
  builtin b := ⟨L.builtin b, rfl⟩
  modules p hp := ⟨L.modules p hp, (Globals.rename_modules L.globals p hp).symm⟩
  keys h p hp := (L.members h.1 p hp).1
  keysMono := L.keysMono
  allowedKeys := L.allowedKeys
  result := L.result
  bind := L.bind
  fail e _ := L.fail e
  ofCall := L.ofCall
  ofPlaces := L.ofPlaces
  ofBlock := L.ofBlock
  tick := L.tick
  charge := L.charge
  limits := L.limits
  now := L.now
  random := L.random
  isHelper := L.isHelper
  isLocal := L.isLocal
  isDeclared := L.isDeclared
  lookup? name _ := weaken (L.lookup? name) fun _ _ _ => Sides.rel_paired_iff.mpr
  lookup name _ := lookup name
  newArray {_ w n items items'} h := by
    obtain ⟨hfits, hsame⟩ := Sides.forall₂_paired_iff.mp h
    obtain rfl : items' = items.map (Value.rename L.rename) := by
      rw [← Array.toList_inj, hsame, Array.toList_map]
    exact L.newArray items fun v hv => hfits v (Array.mem_toList_iff.mpr hv)
  newObject h := by
    obtain ⟨hfits, rfl⟩ := Sides.sameMembers_paired_iff.mp h
    exact L.newObject hfits
  newClosure := by
    rintro _ _ _ _ f ⟨rfl, hf⟩
    exact L.newClosure f hf
  plainArray := L.plainArray
  plainObject := L.plainObject
  entries h := by
    obtain ⟨hfits, rfl⟩ := Sides.sameMembers_paired_iff.mp h
    exact L.entries hfits
  parseJson := L.parseJson
  fetch := L.fetch
  runHost hself hargs := by
    obtain ⟨hfits, rfl⟩ := Sides.forall₂_paired_iff.mp hargs
    exact L.runHost hself.1 hfits
  assign target hplace hkeys := by
    rintro ⟨hv, rfl⟩
    exact L.assign target (fun key hkey => ⟨hkeys key hkey, hplace.keys key hkey⟩) hv
  changeInPlace op hargs htarget := by
    obtain ⟨hfits, rfl⟩ := Sides.forall₂_paired_iff.mp hargs
    refine L.changeInPlace op hfits fun w => weaken (htarget w) fun _ _ _ ⟨hplace, hkeys, hsame⟩ => ?_
    exact ⟨fun key hkey => ⟨hkeys key hkey, hplace.keys key hkey⟩, hsame⟩
  assignable := rfl
  declare := by
    rintro _ _ _ v _ name _ constant rfl ⟨hv, rfl⟩
    exact L.declare name constant hv
  hoist := by
    rintro _ _ _ body _ ⟨rfl, h⟩
    exact L.hoist h
  complete := by
    rintro _ _ _ v _ ⟨hv, rfl⟩
    exact L.complete hv
  takeCompletion := L.takeCompletion
  noteExport := by
    rintro _ _ _ _ s rfl
    exact L.noteExport s
  setDefault := by
    rintro _ _ _ v _ ⟨hv, rfl⟩
    exact L.setDefault hv
  withFrame := L.withFrame
  loop hgo hturn := by
    refine weaken ?_ fun _ _ _ => Sides.matches_paired_iff.mpr
    exact L.loop hgo fun w => weaken (hturn w) fun _ _ _ => Sides.pairedEnd_of_rel
  function := by
    rintro w id f captured siblings id' f' captured' siblings' ⟨hself, hsame⟩
    rw [Value.rename_closure] at hsame
    obtain ⟨rfl, rfl, rfl, rfl⟩ := Value.closure.inj hsame
    have hf := L.definition hself
    refine ⟨(), f'.body.like_self (L.inner _ hf) (L.writes _ hf), fun hargs hx => ?_⟩
    obtain ⟨hfits, rfl⟩ := Sides.forall₂_paired_iff.mp hargs
    have hrun := L.withActivation hself hfits hx
    rwa [Value.rename_closure] at hrun

/-! ## What is evaluated -/

/-- In every world the calls of a function that fits, with arguments that fit, do the same on both
sides and answer with paired values. -/
def Calls (L : PairLogic) (n : Nat) (call call' : Call) : Prop :=
  ∀ w f args, L.Fits w f → L.FitsAll w args →
    L.Holds w n .call (call f args)
      (call' (f.rename L.rename) (args.map (Value.rename L.rename))) L.Paired

/-- The functions written in a tree are among the definitions of the logic. -/
abbrev Allows (L : PairLogic) (functions : List FunctionDef) : Prop :=
  ∀ f ∈ functions, L.definitions f

/-- The expressions in a tree write members under keys under which the logic lets them. -/
abbrev Writes (L : PairLogic) (parts : List Expr) : Prop :=
  ∀ d ∈ parts, d.WritesAmong L.writable

section
variable {call call' : Call}

theorem calls_iff : L.matching.Calls n call call' ↔ L.Calls n call call' := by
  constructor
  · intro h w f args hf hargs
    exact h () w f _ args _ ⟨hf, rfl⟩ (Sides.forall₂_paired_iff.mpr ⟨hargs, rfl⟩)
  · rintro h _ w f _ args args' ⟨hf, rfl⟩ hargs
    obtain ⟨hfits, rfl⟩ := Sides.forall₂_paired_iff.mp hargs
    exact h w f args hf hfits

theorem callGiven {enter enter' : Call} (henter : L.Calls n enter enter') :
    L.Calls n (Eval.callGiven enter) (Eval.callGiven enter') :=
  calls_iff.mp (MatchLogic.callGiven (calls_iff.mpr henter))

theorem callVia {enter enter' : Call} (henter : L.Calls n enter enter') :
    L.Calls n (Eval.callVia enter) (Eval.callVia enter') :=
  calls_iff.mp (MatchLogic.callVia (calls_iff.mpr henter))

/-- **Every call of a function of a script does the same on both sides.** -/
theorem enter (depth : Nat) : L.Calls depth (Eval.enter depth) (Eval.enter depth) :=
  calls_iff.mp (MatchLogic.enter depth)

variable (hcall : L.Calls n call call') (w : L.World)
include hcall

/-- **Every expression does the same on both sides**, if the functions written in it are allowed. -/
theorem expr (e : Expr) (h : L.Allows e.functions)
    (hw : L.Writes e.parts := by
      exact fun d _ => d.writesAmong_of_forall fun _ => True.intro) :
    L.Holds w n .places (Eval.expr call e) (Eval.expr call' e) L.Paired :=
  MatchLogic.expr (L := L.matching) (A := ()) (calls_iff.mpr hcall) w e (e.like_self h hw)

theorem exprs (es : List Expr) (h : L.Allows (Expr.functionsOf es))
    (hw : L.Writes (Expr.partsOf es) := by
      exact fun d _ => d.writesAmong_of_forall fun _ => True.intro) :
    L.Holds w n .places (Eval.exprs call es) (Eval.exprs call' es) L.PairedAll :=
  weaken (MatchLogic.exprs (L := L.matching) (A := ()) (calls_iff.mpr hcall) w es
    (Expr.allLike_self es h hw)) fun _ _ _ => Sides.forall₂_paired_iff.mp

/-- **Every statement does the same on both sides**, if the functions written in it are allowed. -/
theorem stmt (asBody : Bool) (s : Stmt) (h : L.Allows s.functions)
    (hw : L.Writes s.parts := by
      exact fun d _ => d.writesAmong_of_forall fun _ => True.intro) :
    L.Holds w n .block (Eval.stmt call asBody s) (Eval.stmt call' asBody s) L.PairedFlow :=
  weaken (MatchLogic.stmt (L := L.matching) (A := ()) (calls_iff.mpr hcall) w asBody s
    (s.like_self h hw)) fun _ _ _ => Sides.matches_paired_iff.mp

theorem functionBody (body : FunctionBody) (h : L.Allows body.functions)
    (hw : L.Writes body.parts := by
      exact fun d _ => d.writesAmong_of_forall fun _ => True.intro) :
    L.Holds w n .block (Eval.functionBody call body) (Eval.functionBody call' body) L.Paired :=
  MatchLogic.functionBody (L := L.matching) (A := ()) (calls_iff.mpr hcall) w body
    (body.like_self h hw)

/-- **Every program does the same on both sides** whose functions are allowed. -/
theorem programWith {body : List Stmt} (h : L.Allows (Stmt.functionsOf body))
    (hw : L.Writes (Stmt.partsOf body) := by
      exact fun d _ => d.writesAmong_of_forall fun _ => True.intro) :
    L.Holds w n .program (Eval.programWith call body) (Eval.programWith call' body) L.Paired :=
  MatchLogic.programWith (L := L.matching) (A := ()) (calls_iff.mpr hcall) w ⟨rfl, h⟩
    (Stmt.allLike_self body h hw)

end
end PairLogic
end Stencil.Script
