import Stencil.Engine.Helpers
import Stencil.Engine.Render
import Stencil.Proofs.Cache.Lru
import Stencil.Proofs.Helper.Renaming
import Stencil.Proofs.Template.Lockstep

/-! # Caches are transparent

An engine is asked to render, to evaluate, to compile and to load, and to clear its caches
(`Request`).  It is **sound** if every entry of its caches is what the work would give that the
entry saves: a parsed expression is what its source is parsed to, and a helper or a table is what
some source with its digest is compiled or loaded to, for some identities (`Engine.Sound`).  An
engine is sound at first, and every request leaves it sound: a hit, an entry that is dropped for
another, a failure and a cleared cache alike.

Two sound engines with the same configuration and host render and evaluate to the same, and compile
and load to the same but for identities, as long as no two sources have one digest.  An engine
without entries is sound; so **every request is answered as by an engine with empty caches**
(`Engine.caches_transparent`).  Identities are given out by no engine twice, and a helper may be
given to another engine than the one that compiled it; so the engine to which it is compared goes on
where the engine itself stands.  Where it starts makes no difference to what is compiled and loaded.
-/
namespace Stencil
open Script

/-- What an engine can be asked for. -/
inductive Request where
  | render (template : String) (vars : List (String × Json)) (helpers : HelperTable)
    (options : RenderOptions)
  | evaluate (source : String) (vars : List (String × Json)) (helpers : HelperTable)
  | compile (source : String)
  | load (source : String)
  | clear

/-- The source that is compiled or loaded. -/
def Request.source? : Request → Option String
  | .compile source | .load source => some source
  | .render .. | .evaluate .. | .clear => none

/-- No two of the sources have one digest. -/
def Distinguished (sources : List String) : Prop :=
  ∀ s ∈ sources, ∀ t ∈ sources, Digest.Sha256.hex s = Digest.Sha256.hex t → s = t

/-- Two results are the same error, or one value with identities from different places on. -/
def SameButIdentities {α : Type} (rename : (Identity → Identity) → α → α)
    (r r' : Except HelperError α) : Prop :=
  ∃ (common : Except HelperError α) (ρ ρ' : Identity → Identity),
    IsShift ρ ∧ IsShift ρ' ∧ r = common.map (rename ρ) ∧ r' = common.map (rename ρ')

namespace Engine

/-- The engine that a request leaves. -/
def after (e : Engine) : Request → Engine
  | .render template vars helpers options => (e.render template vars helpers options).2
  | .evaluate source vars helpers => (e.evaluate source vars helpers).2
  | .compile source => (e.compile source).2
  | .load source => (e.load source).2
  | .clear => e.clearCaches

/-- Every entry of the caches is what it stands for: what its key is parsed to, or what one of the
sources with its digest is compiled or loaded to by an engine like `start`. -/
structure Sound (start : Engine) (sources : List String) (e : Engine) : Prop where
  config : e.config = start.config
  host : e.host = start.host
  next : Globals.firstIdentity ≤ e.next
  expressions : e.caches.expressions.Holds fun source body => parseProgram source = .ok body
  helpers : e.caches.helpers.Holds fun digest helper =>
    ∃ source ∈ sources, Digest.Sha256.hex source = digest ∧ ∃ id, Globals.firstIdentity ≤ id ∧
      Helper.ofSource start.helperBounds id source = .ok helper
  modules : e.caches.modules.Holds fun digest table =>
    ∃ source ∈ sources, Digest.Sha256.hex source = digest ∧ ∃ next, Globals.firstIdentity ≤ next ∧
      (HelperTable.ofModule start.moduleBounds start.config.limits start.host next source).1 =
        .ok table

variable {start e e' : Engine} {sources : List String}

/-- An engine without entries is sound. -/
theorem sound_ofConfig (config : Config) (host : Host) {next : Identity}
    (hnext : Globals.firstIdentity ≤ next) :
    Sound (ofConfig config host) sources { ofConfig config host with next } where
  config := rfl
  host := rfl
  next := hnext
  expressions := Cache.Lru.holds_empty _
  helpers := Cache.Lru.holds_empty _
  modules := Cache.Lru.holds_empty _

namespace Sound
variable (h : Sound start sources e)
include h

theorem helperBounds_eq : e.helperBounds = start.helperBounds := by
  rw [helperBounds, helperBounds, h.config]

theorem moduleBounds_eq : e.moduleBounds = start.moduleBounds := by
  rw [moduleBounds, moduleBounds, h.config]

theorem clearCaches : Sound start sources e.clearCaches where
  config := h.config
  host := h.host
  next := h.next
  expressions := Cache.Lru.holds_clear _
  helpers := Cache.Lru.holds_clear _
  modules := Cache.Lru.holds_clear _

theorem startOf (options : RenderOptions) : Sound start sources (e.startOf options) := by
  unfold Engine.startOf
  split
  · exact h.clearCaches
  · exact h

/-- A parsed expression is the same whether or not it is in the cache. -/
theorem parsed (source : String) :
    (e.parsed source).1 = parseProgram source ∧ Sound start sources (e.parsed source).2 := by
  have hcache := h.expressions.get source
  unfold Engine.parsed
  rcases hget : e.caches.expressions.get source with ⟨hit, cache⟩
  rw [hget] at hcache
  cases hit with
  | some body =>
    have hbody := h.expressions.hit (congrArg Prod.fst hget)
    exact ⟨hbody.symm, { h with expressions := hcache }⟩
  | none =>
    dsimp only
    cases hparse : parseProgram source with
    | ok body => exact ⟨rfl, { h with expressions := hcache.insert hparse }⟩
    | error err => exact ⟨rfl, { h with expressions := hcache }⟩

/-- What is compiled is what the source is compiled to with some identity. -/
theorem compile {source : String} (hsource : source ∈ sources) :
    Sound start sources (e.compile source).2 ∧
      (Distinguished sources → ∃ id, Globals.firstIdentity ≤ id ∧
        (e.compile source).1 = Helper.ofSource start.helperBounds id source) := by
  have hcache := h.helpers.get (Digest.Sha256.hex source)
  unfold Engine.compile
  rw [h.helperBounds_eq]
  rcases hget : e.caches.helpers.get (Digest.Sha256.hex source) with ⟨hit, cache⟩
  rw [hget] at hcache
  dsimp only
  rw [hget]
  cases hit with
  | some helper =>
    refine ⟨{ h with helpers := hcache }, fun hdistinct => ?_⟩
    obtain ⟨t, ht, hdigest, id, hid, hhelper⟩ := h.helpers.hit (congrArg Prod.fst hget)
    obtain rfl := hdistinct t ht source hsource hdigest
    exact ⟨id, hid, hhelper.symm⟩
  | none =>
    dsimp only
    cases hhelper : Helper.ofSource start.helperBounds e.next source with
    | error err => exact ⟨{ h with helpers := hcache }, fun _ => ⟨e.next, h.next, hhelper.symm⟩⟩
    | ok helper =>
      refine ⟨{ h with next := ?_, helpers := ?_ }, fun _ => ⟨e.next, h.next, hhelper.symm⟩⟩
      · exact Nat.le_succ_of_le h.next
      · exact hcache.insert ⟨source, hsource, rfl, e.next, h.next, hhelper⟩

/-- What is loaded is what the source is loaded to with identities from somewhere on. -/
theorem load {source : String} (hsource : source ∈ sources) :
    Sound start sources (e.load source).2 ∧
      (Distinguished sources → ∃ next, Globals.firstIdentity ≤ next ∧
        (e.load source).1 = (HelperTable.ofModule start.moduleBounds start.config.limits start.host
          next source).1) := by
  have hcache := h.modules.get (Digest.Sha256.hex source)
  have hload : HelperTable.ofModule e.moduleBounds e.config.limits e.host e.next source =
      HelperTable.ofModule start.moduleBounds start.config.limits start.host e.next source := by
    rw [h.moduleBounds_eq, h.config, h.host]
  unfold Engine.load
  rw [hload]
  rcases hget : e.caches.modules.get (Digest.Sha256.hex source) with ⟨hit, cache⟩
  rw [hget] at hcache
  dsimp only
  rw [hget]
  cases hit with
  | some table =>
    refine ⟨{ h with modules := hcache }, fun hdistinct => ?_⟩
    obtain ⟨t, ht, hdigest, next, hnext, htable⟩ := h.modules.hit (congrArg Prod.fst hget)
    obtain rfl := hdistinct t ht source hsource hdigest
    exact ⟨next, hnext, htable.symm⟩
  | none =>
    dsimp only
    -- A run leaves no identity behind the first one that it was given.
    obtain ⟨hle, -⟩ := HelperTable.ofModule_shift (isShift_shiftBy 0) start.moduleBounds
      start.config.limits start.host h.next source
    rcases hmodule : HelperTable.ofModule start.moduleBounds start.config.limits start.host e.next
      source with ⟨err | table, next⟩ <;> rw [hmodule] at hle
    · exact ⟨{ h with next := Nat.le_trans h.next hle, modules := hcache }, fun _ =>
        ⟨e.next, h.next, by rw [hmodule]⟩⟩
    · refine ⟨{ h with next := Nat.le_trans h.next hle, modules := ?_ }, fun _ =>
        ⟨e.next, h.next, by rw [hmodule]⟩⟩
      exact hcache.insert ⟨source, hsource, rfl, e.next, h.next, by rw [hmodule]⟩

theorem evaluateIn (s : RenderScope) (settings : RenderSettings) (source : String) :
    Sound start sources (e.evaluateIn s settings source).2 := by
  obtain ⟨-, hparsed⟩ := h.parsed source
  unfold Engine.evaluateIn
  dsimp only
  split
  · exact h
  · rcases hrun : e.parsed source with ⟨_ | _, e₁⟩ <;> rw [hrun] at hparsed <;> exact hparsed

theorem expressionText (s : RenderScope) (settings : RenderSettings) (source : String) :
    Sound start sources (Engine.expressionText s settings source e).2 := by
  have hevaluated := h.evaluateIn s settings source
  unfold Engine.expressionText
  rcases hrun : e.evaluateIn s settings source with ⟨r, e₁⟩
  rw [hrun] at hevaluated
  dsimp only
  split <;> exact hevaluated

end Sound

/-! ## Evaluating and rendering on sound engines -/

section Pair
variable {sources' : List String} (h : Sound start sources e) (h' : Sound start sources' e')
include h h'

theorem execute_eq (s : RenderScope) (timeout : Nat) (body : List Stmt) :
    e'.execute s timeout body = e.execute s timeout body := by
  rw [execute, execute, context, context, h.config, h'.config, h.host, h'.host]

/-- An expression is evaluated to the same, whatever is in the caches. -/
theorem evaluateIn_eq (s : RenderScope) (settings : RenderSettings) (source : String) :
    (e'.evaluateIn s settings source).1 = (e.evaluateIn s settings source).1 := by
  obtain ⟨hparsed, hsound⟩ := h.parsed source
  obtain ⟨hparsed', hsound'⟩ := h'.parsed source
  unfold Engine.evaluateIn
  dsimp only
  split
  · rfl
  · rcases hrun : e.parsed source with ⟨r, e₁⟩
    rcases hrun' : e'.parsed source with ⟨r', e₁'⟩
    rw [hrun] at hparsed hsound
    rw [hrun'] at hparsed' hsound'
    obtain rfl : r' = r := hparsed'.trans hparsed.symm
    cases r' with
    | ok body =>
      exact congrArg (Except.mapError fun err => Diagnosis.ofScript err (some source))
        (execute_eq hsound hsound' s settings.timeout body)
    | error err => rfl

/-- Both evaluations of an expression show the same text. -/
theorem expressionText_eq (s : RenderScope) (settings : RenderSettings) (source : String) :
    (expressionText s settings source e').1 = (expressionText s settings source e).1 := by
  have hvalue := evaluateIn_eq h h' s settings source
  unfold expressionText
  rcases hrun : e.evaluateIn s settings source with ⟨r, e₁⟩
  rcases hrun' : e'.evaluateIn s settings source with ⟨r', e₁'⟩
  rw [hrun, hrun'] at hvalue
  obtain rfl : r' = r := hvalue
  dsimp only
  split <;> rfl

theorem renderScope_eq (hnext : e'.next = e.next) (vars : List (String × Json))
    (helpers : HelperTable) : e'.renderScope vars helpers = e.renderScope vars helpers := by
  rw [renderScope, renderScope, hnext, h.host, h'.host]

theorem evaluate_eq (hnext : e'.next = e.next) (source : String) (vars : List (String × Json))
    (helpers : HelperTable) :
    (e'.evaluate source vars helpers).1 = (e.evaluate source vars helpers).1 := by
  unfold evaluate
  rw [renderScope_eq h h' hnext, h.config, h'.config]
  exact evaluateIn_eq h h' ..

/-- A template is rendered to the same, whatever is in the caches, and both engines stay sound. -/
theorem render_eq (hnext : e'.next = e.next) (template : String) (vars : List (String × Json))
    (helpers : HelperTable) (options : RenderOptions) :
    (e'.render template vars helpers options).1 = (e.render template vars helpers options).1 ∧
      Sound start sources (e.render template vars helpers options).2 ∧
      Sound start sources' (e'.render template vars helpers options).2 := by
  unfold render
  rw [h.config, h'.config]
  dsimp only
  split
  · exact ⟨rfl, h, h'⟩
  · have hnext : (e'.startOf options).next = (e.startOf options).next := by
      unfold Engine.startOf
      split <;> exact hnext
    have hscope : (e'.startOf options).renderScope vars helpers =
        (e.startOf options).renderScope vars helpers :=
      renderScope_eq (h.startOf options) (h'.startOf options) hnext vars helpers
    let settings :=
      RenderSettings.resolve start.config options template.utf8ByteSize
    let r : Template.Renderer Engine :=
      { maxDepth := settings.maxDepth
        maxIterations := settings.maxIterations
        debug := settings.debug
        evaluate := expressionText ((e.startOf options).renderScope vars helpers) settings }
    have hrespects : r.Respects fun e e' => Sound start sources e ∧ Sound start sources' e' :=
      fun source _ _ hboth =>
        ⟨expressionText_eq hboth.1 hboth.2 _ _ source, hboth.1.expressionText _ _ source,
          hboth.2.expressionText _ _ source⟩
    obtain ⟨hout, hsound⟩ := Template.Renderer.render_alike hrespects
      ⟨h.startOf options, h'.startOf options⟩ (Template.substitute vars settings.debug template)
    have hstart : ∀ e : Engine, (if options.clearCache = true then e.clearCaches else e) =
        e.startOf options := fun _ => rfl
    rw [hstart, hstart, hscope, (h.startOf options).config, (h'.startOf options).config]
    exact ⟨congrArg Except.ok hout, hsound⟩

end Pair

/-! ## Runs -/

/-- Every request leaves a sound engine sound. -/
theorem Sound.after (h : Sound start sources e) {request : Request}
    (hsources : ∀ source ∈ request.source?, source ∈ sources) :
    Sound start sources (e.after request) := by
  cases request with
  | render template vars helpers options =>
    exact (render_eq h h rfl template vars helpers options).2.1
  | evaluate source vars helpers => exact h.evaluateIn _ _ _
  | compile source => exact (h.compile (hsources source rfl)).1
  | load source => exact (h.load (hsources source rfl)).1
  | clear => exact h.clearCaches

theorem Sound.run (h : Sound start sources e) {requests : List Request}
    (hsources : ∀ source ∈ requests.filterMap Request.source?, source ∈ sources) :
    Sound start sources (requests.foldl Engine.after e) := by
  induction requests generalizing e with
  | nil => exact h
  | cons request rest ih =>
    have hfirst : ∀ source ∈ request.source?, source ∈ sources := fun source hsource =>
      hsources source (List.mem_filterMap.mpr ⟨request, List.mem_cons_self, hsource⟩)
    refine ih (h.after hfirst) fun source hsource => hsources source ?_
    obtain ⟨r, hr, hsource⟩ := List.mem_filterMap.mp hsource
    exact List.mem_filterMap.mpr ⟨r, List.mem_cons_of_mem _ hr, hsource⟩

/-- Results that shift with the place where their identities start are the same but for
identities. -/
theorem sameButIdentities_of_shift {α : Type} {rename : (Identity → Identity) → α → α}
    (result : Identity → Except HelperError α)
    (hresult : ∀ ρ, IsShift ρ → ∀ next, Globals.firstIdentity ≤ next →
      result (ρ next) = (result next).map (rename ρ)) {next next' : Identity}
    (h : Globals.firstIdentity ≤ next) (h' : Globals.firstIdentity ≤ next') :
    SameButIdentities rename (result next) (result next') := by
  have hreach : ∀ {next : Identity}, Globals.firstIdentity ≤ next →
      result next = (result Globals.firstIdentity).map
        (rename (shiftBy (next - Globals.firstIdentity))) := by
    intro next h
    rw [← hresult _ (isShift_shiftBy _) _ (Nat.le_refl _), shiftBy_of_le (Nat.le_refl _),
      Nat.add_sub_cancel' h]
  exact ⟨result Globals.firstIdentity, _, _, isShift_shiftBy _, isShift_shiftBy _, hreach h,
    hreach h'⟩

/-- **Caches are transparent.**  Whatever an engine was asked for, and whatever the capacities of
its caches, it renders every template to the same text and evaluates every expression to the same
value, or fails with the same error, as an engine of the same configuration with empty caches.  A source
that it compiles or loads gives the same helper or the same table, but for the identities in them,
or the same error, as long as no two of the sources that were compiled or loaded have one digest. -/
theorem caches_transparent (config : Config) (host : Host) (requests : List Request) :
    let e := requests.foldl after (ofConfig config host)
    let fresh := fun next => { ofConfig config host with next }
    (∀ template vars helpers options, (e.render template vars helpers options).1 =
      ((fresh e.next).render template vars helpers options).1) ∧
    (∀ source vars helpers, (e.evaluate source vars helpers).1 =
      ((fresh e.next).evaluate source vars helpers).1) ∧
    ∀ source, Distinguished (source :: requests.filterMap Request.source?) →
      ∀ next, Globals.firstIdentity ≤ next →
        SameButIdentities Helper.rename (e.compile source).1 ((fresh next).compile source).1 ∧
        SameButIdentities HelperTable.rename (e.load source).1 ((fresh next).load source).1 := by
  intro e fresh
  have hsound : ∀ sources : List String,
      (∀ source ∈ requests.filterMap Request.source?, source ∈ sources) →
        Sound (ofConfig config host) sources e := fun sources hsources =>
    (sound_ofConfig config host (Nat.le_refl _)).run hsources
  have hfresh : ∀ (sources : List String) (next : Identity), Globals.firstIdentity ≤ next →
      Sound (ofConfig config host) sources (fresh next) := fun _ _ => sound_ofConfig config host
  refine ⟨?_, ?_, ?_⟩
  · intro template vars helpers options
    have he := hsound _ fun _ => id
    exact (render_eq (hfresh [] _ he.next) he rfl template vars helpers options).1
  · intro source vars helpers
    have he := hsound _ fun _ => id
    exact evaluate_eq (hfresh [] _ he.next) he rfl source vars helpers
  · intro source hdistinct next hnext
    have he := hsound _ fun s hs => List.mem_cons_of_mem source hs
    have hfresh := hfresh (source :: requests.filterMap Request.source?) next hnext
    constructor
    · obtain ⟨id, hid, hcompiled⟩ := (he.compile List.mem_cons_self).2 hdistinct
      obtain ⟨id', hid', hcompiled'⟩ := (hfresh.compile List.mem_cons_self).2 hdistinct
      rw [hcompiled, hcompiled']
      exact sameButIdentities_of_shift (Helper.ofSource _ · source)
        (fun ρ _ id _ => Helper.ofSource_shift ρ _ id source) hid hid'
    · obtain ⟨id, hid, hloaded⟩ := (he.load List.mem_cons_self).2 hdistinct
      obtain ⟨id', hid', hloaded'⟩ := (hfresh.load List.mem_cons_self).2 hdistinct
      rw [hloaded, hloaded']
      exact sameButIdentities_of_shift (HelperTable.ofModule _ _ _ · source |>.1)
        (fun ρ hρ id hid => congrArg Prod.fst (HelperTable.ofModule_shift hρ _ _ _ hid source).2)
        hid hid'

/-- The second helper does not come between the first one and its entry. -/
theorem caches_transparent_of_two :
    let double := "function double(x) { return 2 * x }"
    let square := "function square(x) { return x * x }"
    let e := [Request.compile double, .compile square].foldl after (ofConfig {} {})
    Distinguished [double, double, square] ∧
      SameButIdentities Helper.rename (e.compile double).1 ((ofConfig {} {}).compile double).1 := by
  intro double square e
  have hdistinct : Distinguished [double, double, square] := by
    unfold Distinguished
    decide +kernel
  exact ⟨hdistinct, ((caches_transparent {} {} [.compile double, .compile square]).2.2 double
    hdistinct Globals.firstIdentity (Nat.le_refl _)).1⟩

end Engine
end Stencil
