import Stencil.Proofs.Script.Content
import Stencil.Proofs.Script.Likeness
import Stencil.Proofs.Script.Resemblance

/-! # Judging two evaluations side by side

A **judgement** speaks of two steps that run side by side and do the same, on trees that are alike and
on values that belong together: `Holds A w n r x x' Q` speaks of the steps `x` and `x'`, which are run
in the mode `A`, inside which `n` calls may still be nested, whose **reach** is `r` and whose results
are related by `Q`.  The mode, which stays the same in an activation, says what may stand in the trees
(`Trees`).  The reach is what a step may touch in the activation that runs it: a call touches nothing
there, an expression the values of local names, and a statement the innermost block as well (`Reach`);
a program takes the completion value, too.

A judgement is made in a **world**, which says which values belong together.  Evaluations learn, so
results are related in a world that may be later than the one in which the step began, and what
belongs together in a world does so in every later one.

What a judgement means is left open.  A `MatchLogic` is a meaning for which the rules hold of which
evaluations are composed: results and sequences (`result`, `bind`), errors (`fail`), the operations
on the machine, blocks, loops and activations.  Everything the evaluator does is composed of these
rules, so a logic holds of every expression, every statement and every program
(`MatchLogic.Evaluator`), whatever it says.
-/
namespace Stencil.Script

/-- What a step may touch in the activation that runs it. -/
inductive Reach where
  /-- Nothing: a call. -/
  | call
  /-- The values of local names: an expression. -/
  | places
  /-- The innermost block as well: a statement. -/
  | block
  /-- The completion value, too, from wherever it is run: a program. -/
  | program

/-- Statements end alike, with related values. -/
inductive Flow.Matches (R : Value → Value → Prop) : Flow → Flow → Prop
  | normal : Matches R .normal .normal
  | broken : Matches R .broken .broken
  | continued : Matches R .continued .continued
  | returned {v v' : Value} (h : R v v') : Matches R (.returned v) (.returned v')

/-- The items of an array that is made without a look at their number: the words of a text, or the
places of items. -/
inductive Value.Listed : Array Value → Prop
  | words (text : String) : Listed ((Text.wordsBy Text.isBlank text.toList).map fun cs =>
      .string (String.ofList cs)).toArray
  | places (n : Nat) : Listed ((List.range n).map Method.count).toArray

theorem Value.Listed.isPlain {items : Array Value} (h : Listed items) : ∀ v ∈ items, v.isPlain := by
  intro v hv
  cases h with
  | words text =>
    obtain ⟨cs, -, rfl⟩ := List.mem_map.mp (List.mem_toArray.mp hv)
    rfl
  | places n =>
    obtain ⟨i, -, rfl⟩ := List.mem_map.mp (List.mem_toArray.mp hv)
    rfl

/-- The two sides of a judgement: the worlds, and the values that belong together. -/
structure Pairing where
  /-- What may be known of values. -/
  World : Type
  /-- The second world is the first one or a later one. -/
  Le : World → World → Prop
  refl : ∀ w, Le w w
  trans : ∀ {u v w}, Le u v → Le v w → Le u w
  /-- The values of both sides that belong together. -/
  Match : World → Value → Value → Prop
  /-- The keys that members may have. -/
  Keys : World → String → Prop := fun _ _ => True

namespace Pairing
variable (S : Pairing) {α : Type}

/-- The results are the same. -/
def Same (_ : S.World) (a a' : α) : Prop :=
  a' = a

/-- Lists of values that belong together one by one. -/
abbrev MatchAll (w : S.World) : List Value → List Value → Prop :=
  List.Forall₂ (S.Match w)

/-- Members that belong together one by one, with keys that they may have. -/
def MatchMembers (w : S.World) (members members' : List (String × Value)) : Prop :=
  SameMembers (S.Match w) members members' ∧ ∀ p ∈ members, S.Keys w p.1

/-- The keys are the same, and members may have them. -/
def SameKey (w : S.World) (key key' : String) : Prop :=
  S.Keys w key ∧ key' = key

/-- The places are the same, of the given ones and with keys that members may have. -/
def SameTarget (places : Target → Prop) (w : S.World) (t t' : Target) : Prop :=
  places t ∧ (∀ key ∈ t.keys, S.Keys w key) ∧ t' = t

/-- Answers that belong together or are both missing. -/
abbrev MatchAnswer (w : S.World) : Option Value → Option Value → Prop :=
  Option.Rel (S.Match w)

/-- Statements end alike. -/
abbrev MatchFlow (w : S.World) : Flow → Flow → Prop :=
  Flow.Matches (S.Match w)

/-- Loops go on alike or end alike. -/
abbrev MatchEnd (w : S.World) : Option Flow → Option Flow → Prop :=
  Option.Rel (S.MatchFlow w)

end Pairing

/-- **A logic of steps that match**: a meaning of judgements under which the rules hold that compose
evaluations. -/
structure MatchLogic extends Pairing where
  /-- How a function may be run. -/
  Mode : Type
  /-- What may stand in the trees that are run. -/
  trees : Mode → Trees
  /-- What is said of two steps and their results. -/
  Holds : {α : Type} → Mode → World → Nat → Reach → Eval α → Eval α → (World → α → α → Prop) → Prop
  -- The values that belong together.
  mono : ∀ {w w' v v'}, Le w w' → Match w v v' → Match w' v v'
  resembles : ∀ w, Resemblance (Match w)
  builtin : ∀ {w} (b), Match w (.native (.builtin b)) (.native (.builtin b))
  modules : ∀ {w}, ∀ p ∈ Globals.modules, Match w p.2 p.2
  -- The keys that members may have.
  keys : ∀ {w id members v'}, Match w (.object id members) v' → ∀ p ∈ members, Keys w p.1 := by
    intros; exact True.intro
  keysMono : ∀ {w w' key}, Le w w' → Keys w key → Keys w' key := by intros; exact True.intro
  allowedKeys : ∀ {w key}, Security.isDenied key = false → Keys w key := by
    intros; exact True.intro
  -- How steps are composed.
  result : ∀ {α A w n r} {Q : World → α → α → Prop} {a a'}, Q w a a' →
    Holds A w n r (pure a) (pure a') Q
  bind : ∀ {α β A w n r} {P : World → α → α → Prop} {Q : World → β → β → Prop}
    {x x' : Eval α} {f f' : α → Eval β}, Holds A w n r x x' P →
    (∀ w' a a', Le w w' → P w' a a' → Holds A w' n r (f a) (f' a') Q) →
    Holds A w n r (x >>= f) (x' >>= f') Q
  fail : ∀ {α A w n r} {Q : World → α → α → Prop} (e : ScriptError), e.isUnbound = false →
    Holds A w n r (throw e) (throw e) Q
  /-- A step of a call may stand anywhere. -/
  ofCall : ∀ {α A w n r} {Q : World → α → α → Prop} {x x' : Eval α},
    Holds A w n .call x x' Q → Holds A w n r x x' Q
  /-- A step of an expression may stand in a statement. -/
  ofPlaces : ∀ {α A w n} {Q : World → α → α → Prop} {x x' : Eval α},
    Holds A w n .places x x' Q → Holds A w n .block x x' Q
  /-- A step of a statement may stand in a program. -/
  ofBlock : ∀ {α A w n} {Q : World → α → α → Prop} {x x' : Eval α},
    Holds A w n .block x x' Q → Holds A w n .program x x' Q
  -- What is read and counted.
  tick : ∀ {A w n}, Holds A w n .call Eval.tick Eval.tick toPairing.Same
  charge : ∀ {A w n} (bytes),
    Holds A w n .call (Eval.charge bytes) (Eval.charge bytes) toPairing.Same
  limits : ∀ {A w n}, Holds A w n .call Eval.limits Eval.limits toPairing.Same
  now : ∀ {A w n}, Holds A w n .call Eval.now Eval.now toPairing.Same
  random : ∀ {A w n}, Holds A w n .call Native.random Native.random toPairing.Same
  isHelper : ∀ {A w n} (name),
    Holds A w n .call (Eval.isHelper name) (Eval.isHelper name) toPairing.Same
  isLocal : ∀ {A w n} (name),
    Holds A w n .call (Eval.isLocal name) (Eval.isLocal name) toPairing.Same
  isDeclared : ∀ {A w n} (name),
    Holds A w n .call (Eval.isDeclared name) (Eval.isDeclared name) toPairing.Same
  lookup? : ∀ {A w n} (name), (trees A).reads name →
    Holds A w n .call (Eval.lookup? name) (Eval.lookup? name) toPairing.MatchAnswer
  lookup : ∀ {A w n} (name), (trees A).reads name →
    Holds A w n .call (Eval.lookup name) (Eval.lookup name) Match
  -- What is made, and what comes from outside.
  newArray : ∀ {A w n} {items items' : Array Value},
    toPairing.MatchAll w items.toList items'.toList →
    Holds A w n .call (Eval.newArray items) (Eval.newArray items') Match
  newObject : ∀ {A w n members members'}, toPairing.MatchMembers w members members' →
    Holds A w n .call (Eval.newObject members) (Eval.newObject members') Match
  newClosure : ∀ {A w n f f'}, (trees A).functions f f' →
    Holds A w n .call (Eval.newClosure f) (Eval.newClosure f') Match
  plainArray : ∀ {A w n} (items : Array Value), Value.Listed items →
    Holds A w n .call (Eval.plainArray items) (Eval.plainArray items) Match
  plainObject : ∀ {A w n} (members : List (String × Value)),
    (∀ p ∈ members, Keys w p.1 ∧ p.2.isPlain) →
    Holds A w n .call (Eval.plainObject members) (Eval.plainObject members) Match
  entries : ∀ {A w n members members'}, toPairing.MatchMembers w members members' →
    Holds A w n .call
      (do Eval.newList (← members.mapM fun (key, v) => Eval.plainArray #[.string key, v]))
      (do Eval.newList (← members'.mapM fun (key, v) => Eval.plainArray #[.string key, v])) Match
  parseJson : ∀ {A w n} (s),
    Holds A w n .call (Native.parseJson s) (Native.parseJson s) Match
  fetch : ∀ {A w n} (url), Holds A w n .call (Native.fetch url) (Native.fetch url) Match
  runHost : ∀ {A w n id name arity args args'},
    Match w (.native (.host id name arity)) (.native (.host id name arity)) →
    toPairing.MatchAll w args args' →
    Holds A w n .call (Native.runHost name args) (Native.runHost name args') Match
  -- What is changed.
  assign : ∀ {A w n v v'} (target : Target), (trees A).Places target →
    (∀ key ∈ target.keys, Keys w key) → Match w v v' →
    Holds A w n .places (Eval.assign target v) (Eval.assign target v') toPairing.Same
  changeInPlace : ∀ {A w n args args'} {target target' : Eval Target} (op),
    toPairing.MatchAll w args args' →
    (∀ w, Holds A w n .places target target' (toPairing.SameTarget (trees A).Places)) →
    Holds A w n .places (Eval.changeInPlace op args target)
      (Eval.changeInPlace op args' target') Match
  /-- Names that are no constants may be declared. -/
  assignable : ∀ {A name}, (trees A).declares name false false
  declare : ∀ {A w n v v' name constant constant'}, (trees A).declares name constant constant' →
    Match w v v' →
    Holds A w n .block (Eval.declare name v constant)
      (Eval.declare name v' constant') toPairing.Same
  /-- The functions that statements declare are bound. -/
  hoist : ∀ {A w n body body'}, (trees A).scopes body body' →
    Holds A w n .block (Eval.hoist body) (Eval.hoist body') toPairing.Same
  complete : ∀ {A w n v v'}, Match w v v' →
    Holds A w n .block (Eval.complete v) (Eval.complete v') toPairing.Same
  takeCompletion : ∀ {A w n}, Holds A w n .program Eval.takeCompletion Eval.takeCompletion Match
  noteExport : ∀ {A w n s s'}, (trees A).exports s s' →
    Holds A w n .block (Eval.noteExport s) (Eval.noteExport s') toPairing.Same
  setDefault : ∀ {A w n v v'}, Match w v v' →
    Holds A w n .block (Eval.setDefault v) (Eval.setDefault v') toPairing.Same
  -- Blocks, loops and calls.
  withFrame : ∀ {α A w n} {Q : World → α → α → Prop} {x x' : Eval α},
    Holds A w n .block x x' Q → Holds A w n .block (Eval.withFrame x) (Eval.withFrame x') Q
  loop : ∀ {A w n go go' turn turn'}, (∀ w, Holds A w n .block go go' toPairing.Same) →
    (∀ w, Holds A w n .block turn turn' toPairing.MatchEnd) →
    Holds A w n .block (Eval.loop go turn) (Eval.loop go' turn') toPairing.MatchFlow
  /-- A function is run in a mode of its own, in which its body is like that of the other one. -/
  function : ∀ {w id f captured siblings id' f' captured' siblings'},
    Match w (.closure id f captured siblings) (.closure id' f' captured' siblings') →
    ∃ B, f.body.Like (trees B) f'.body ∧ ∀ {A n args args'} {x x' : Eval Value},
      toPairing.MatchAll w args args' → Holds B w n .block x x' Match →
      Holds A w (n + 1) .call
        (Eval.withActivation
          (Eval.activationOf (.closure id f captured siblings) f captured siblings args) x)
        (Eval.withActivation
          (Eval.activationOf (.closure id' f' captured' siblings') f' captured' siblings' args') x')
        Match

namespace MatchLogic
variable {L : MatchLogic} {α β : Type} {A : L.Mode} {w w' : L.World} {n : Nat} {r : Reach}
  {P Q : L.World → α → α → Prop} {x x' : Eval α} {v v' : Value} {args args' : List Value}

/-! ## Values that belong together -/

theorem plain (h : v.isPlain) : L.Match w v v :=
  (L.resembles w).plain h

theorem MatchAll.mono {vs vs' : List Value} (h : L.MatchAll w vs vs') (hw : L.Le w w') :
    L.MatchAll w' vs vs' :=
  h.imp fun _ _ => L.mono hw

theorem MatchMembers.mono {members members' : List (String × Value)}
    (h : L.MatchMembers w members members') (hw : L.Le w w') : L.MatchMembers w' members members' :=
  ⟨h.1.imp fun _ _ hp => ⟨hp.1, L.mono hw hp.2⟩, fun p hp => L.keysMono hw (h.2 p hp)⟩

theorem MatchMembers.insertMember {members members' : List (String × Value)} {key : String}
    (h : L.MatchMembers w members members') (hkey : L.Keys w key) (hv : L.Match w v v') :
    L.MatchMembers w (Json.insertMember key v members) (Json.insertMember key v' members') := by
  refine ⟨h.1.insertMember key hv, fun p hp => ?_⟩
  rcases mem_insertMember hp with rfl | hp
  · exact hkey
  · exact h.2 p hp

/-! ## Derived rules -/

theorem weaken (h : L.Holds A w n r x x' P)
    (hPQ : ∀ w' a a', L.Le w w' → P w' a a' → Q w' a a') : L.Holds A w n r x x' Q := by
  rw [← bind_pure x, ← bind_pure x']
  exact L.bind h fun w' a a' hw ha => L.result (hPQ w' a a' hw ha)

theorem map {R : L.World → β → β → Prop} {f f' : α → β} (h : L.Holds A w n r x x' P)
    (hf : ∀ w' a a', L.Le w w' → P w' a a' → R w' (f a) (f' a')) :
    L.Holds A w n r (f <$> x) (f' <$> x') R := by
  rw [map_eq_pure_bind, map_eq_pure_bind]
  exact L.bind h fun w' a a' hw ha => L.result (hf w' a a' hw ha)

/-- A sequence whose first step gives the same on both sides. -/
theorem seq {R : L.World → β → β → Prop} {f f' : α → Eval β} (h : L.Holds A w n r x x' L.Same)
    (hf : ∀ w' a, L.Le w w' → L.Holds A w' n r (f a) (f' a) R) :
    L.Holds A w n r (x >>= f) (x' >>= f') R :=
  L.bind h fun w' a a' hw (ha : a' = a) => ha ▸ hf w' a hw

/-- A sequence whose first step gives a key that members may have. -/
theorem seqKey {R : L.World → β → β → Prop} {y y' : Eval String} {f f' : String → Eval β}
    (h : L.Holds A w n r y y' L.SameKey)
    (hf : ∀ w' key, L.Le w w' → L.Keys w' key → L.Holds A w' n r (f key) (f' key) R) :
    L.Holds A w n r (y >>= f) (y' >>= f') R :=
  L.bind h fun w' key _ hw ⟨hkey, hsame⟩ => hsame ▸ hf w' key hw hkey

/-- A sequence whose first step gives a place. -/
theorem seqTarget {R : L.World → β → β → Prop} {places : Target → Prop} {y y' : Eval Target}
    {f f' : Target → Eval β} (h : L.Holds A w n r y y' (L.SameTarget places))
    (hf : ∀ w' t, L.Le w w' → places t → (∀ key ∈ t.keys, L.Keys w' key) →
      L.Holds A w' n r (f t) (f' t) R) :
    L.Holds A w n r (y >>= f) (y' >>= f') R :=
  L.bind h fun w' t _ hw ⟨hplace, ht, hsame⟩ => hsame ▸ hf w' t hw hplace ht

theorem same (a : α) : L.Holds A w n r (pure a) (pure a) L.Same :=
  L.result rfl

theorem resultPlain (h : v.isPlain) : L.Holds A w n r (pure v) (pure v) L.Match :=
  L.result (plain h)

theorem ofAnswers {R : α → α → Prop} {y y' : Except ScriptError α} (h : Answers R y y')
    (hRQ : ∀ a a', R a a' → Q w a a') :
    L.Holds A w n r (Eval.ofExcept y) (Eval.ofExcept y') Q := by
  cases h with
  | ok h => exact L.result (hRQ _ _ h)
  | error e h => exact L.fail e h

/-- A check in front of a step. -/
theorem guard {c : Prop} [Decidable c] {e : ScriptError} (he : e.isUnbound = false)
    (h : ¬ c → L.Holds A w n r x x' Q) :
    L.Holds A w n r (if c then do let _ : Unit ← throw e; x else x)
      (if c then do let _ : Unit ← throw e; x' else x') Q := by
  split
  · exact L.bind (P := fun _ _ _ => False) (L.fail e he) fun _ _ _ _ hf => hf.elim
  · rename_i hc
    exact h hc

/-- A result that may be missing. -/
theorem present {y y' : Eval Value} (h : L.Holds A w n r y y' L.Match) :
    L.Holds A w n r (some <$> y) (some <$> y') L.MatchAnswer :=
  map h fun _ _ _ _ hv => .some hv

/-! ## New values -/

theorem newString (s : String) :
    L.Holds A w n r (Eval.newString s) (Eval.newString s) L.Match := by
  unfold Eval.newString
  refine seq (L.ofCall L.limits) fun w₁ _ _ => guard rfl fun _ => ?_
  exact seq (L.ofCall (L.charge _)) fun _ _ _ => resultPlain rfl

theorem newList {items items' : List Value} (h : L.MatchAll w items items') :
    L.Holds A w n r (Eval.newList items) (Eval.newList items') L.Match :=
  L.ofCall (L.newArray h)

/-! ## Lists of steps -/

section Lists
variable {S : α → α → Prop} {xs xs' : List α}

theorem mapM {f f' : α → Eval Value} (hxs : List.Forall₂ S xs xs')
    (h : ∀ w', L.Le w w' → ∀ a a', S a a' → L.Holds A w' n r (f a) (f' a') L.Match) :
    L.Holds A w n r (xs.mapM f) (xs'.mapM f') L.MatchAll := by
  induction hxs generalizing w with
  | nil =>
    rw [List.mapM_nil, List.mapM_nil]
    exact L.result .nil
  | cons ha _ ih =>
    rw [List.mapM_cons, List.mapM_cons]
    refine L.bind (h w (L.refl w) _ _ ha) fun w₁ v v' hw₁ hv => ?_
    refine L.bind (ih fun w' hw' => h w' (L.trans hw₁ hw')) fun w₂ vs vs' hw₂ hvs => ?_
    exact L.result (.cons (L.mono hw₂ hv) hvs)

theorem forM {f f' : α → Eval Unit} (hxs : List.Forall₂ S xs xs')
    (h : ∀ w', L.Le w w' → ∀ a a', S a a' → L.Holds A w' n r (f a) (f' a') L.Same) :
    L.Holds A w n r (xs.forM f) (xs'.forM f') L.Same := by
  induction hxs generalizing w with
  | nil => exact L.same ()
  | cons ha _ ih =>
    exact seq (h w (L.refl w) _ _ ha) fun w₁ _ hw₁ => ih fun w' hw' => h w' (L.trans hw₁ hw')

theorem foldlM {f f' : Value → α → Eval Value} (hxs : List.Forall₂ S xs xs')
    (hv : L.Match w v v')
    (h : ∀ w', L.Le w w' → ∀ v v', L.Match w' v v' → ∀ a a', S a a' →
      L.Holds A w' n r (f v a) (f' v' a') L.Match) :
    L.Holds A w n r (xs.foldlM f v) (xs'.foldlM f' v') L.Match := by
  induction hxs generalizing w v v' with
  | nil => exact L.result hv
  | cons ha _ ih =>
    rw [List.foldlM_cons, List.foldlM_cons]
    refine L.bind (h w (L.refl w) v v' hv _ _ ha) fun w₁ u u' hw₁ hu => ?_
    exact ih hu fun w' hw' => h w' (L.trans hw₁ hw')

theorem findM? {f f' : α → Eval Bool} (hxs : List.Forall₂ S xs xs')
    (h : ∀ w', L.Le w w' → ∀ a a', S a a' → L.Holds A w' n r (f a) (f' a') L.Same) :
    L.Holds A w n r (xs.findM? f) (xs'.findM? f') fun _ => Option.Rel S := by
  induction hxs generalizing w with
  | nil => exact L.result .none
  | cons ha _ ih =>
    unfold List.findM?
    refine seq (h w (L.refl w) _ _ ha) fun w₁ found hw₁ => ?_
    cases found with
    | true => exact L.result (.some ha)
    | false => exact ih fun w' hw' => h w' (L.trans hw₁ hw')

theorem filterM {f f' : α → Eval Bool} (hxs : List.Forall₂ S xs xs')
    (h : ∀ w', L.Le w w' → ∀ a a', S a a' → L.Holds A w' n r (f a) (f' a') L.Same) :
    L.Holds A w n r (xs.filterM f) (xs'.filterM f') fun _ => List.Forall₂ S := by
  have haux : ∀ {ys ys' : List α}, List.Forall₂ S ys ys' → ∀ (kept kept' : List α) (w₁ : L.World),
      L.Le w w₁ → List.Forall₂ S kept kept' →
      L.Holds A w₁ n r (ys.filterAuxM f kept) (ys'.filterAuxM f' kept')
        fun _ => List.Forall₂ S := by
    intro ys ys' hys
    induction hys with
    | nil => exact fun _ _ _ _ hkept => L.result hkept
    | cons ha _ ih =>
      intro kept kept' w₁ hw₁ hkept
      refine seq (h w₁ hw₁ _ _ ha) fun w₂ keep hw₂ => ?_
      cases keep with
      | true => exact ih _ _ w₂ (L.trans hw₁ hw₂) (.cons ha hkept)
      | false => exact ih _ _ w₂ (L.trans hw₁ hw₂) hkept
  refine L.bind (haux hxs [] [] w (L.refl w) .nil) fun w₁ kept kept' _ hkept => ?_
  exact L.result (List.rel_reverse hkept)

end Lists

end MatchLogic
end Stencil.Script
