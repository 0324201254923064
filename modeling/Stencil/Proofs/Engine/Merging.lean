import Stencil.Engine.Registry
import Stencil.Proofs.Engine.Caches

/-! # Sources are merged as a whole or not at all

What is added to a registry comes from the host, from a text, from a file or from an address
(`Addition`).  Whichever it is, there are helpers that it defines, or an error for which it defines
none (`Addition.defines`); the answer and the registry that the addition leaves are told by that
alone.  The helpers are laid over the table, and nothing else is there to be seen; or the table and
the caches stay as they are, and one rejection is noted (`Registry.Settled`).  Only an address that
the host never answers (`Addition.Unanswered`) defines nothing and leaves no answer; who waits for it
gives up some time, and the registry is what it was.

A source is not compiled or loaded again if its digest is in a cache.  What is found there is what
the source defines, since the engine of a registry is sound (`Registry.sound_ofHistory`) as long as no
two sources have one digest.  So it is all or nothing **after every history of additions**
(`Registry.all_or_nothing`), and no later addition takes a rejection back.
-/
namespace Stencil
open Script

/-! ## Tables -/

namespace HelperTable

/-- The table with other helpers laid over it, one after the other. -/
def overlay (table found : HelperTable) : HelperTable :=
  found.foldl (fun table (name, h) => Json.insertMember name h table) table

/-- A name stands for the last helper that was laid over it, or for what it stood for before. -/
theorem lookup_overlay (table found : HelperTable) (name : String) :
    (table.overlay found).lookup name = (found.reverse.lookup name).or (table.lookup name) := by
  induction found generalizing table with
  | nil => rfl
  | cons p rest ih =>
    obtain ⟨k, h⟩ := p
    show (overlay (Json.insertMember k h table) rest).lookup name = _
    rw [ih, lookup_insertMember, List.reverse_cons, List.lookup_append, lookup_cons_ite,
      List.lookup_nil, Option.or_assoc]
    split <;> rfl

end HelperTable

/-! ## What is added -/

/-- What can be added to a registry.  A file is given with its text, or with the reason why it cannot
be read. -/
inductive Addition where
  | host (name : String) (arity : Nat)
  | source (name text : String)
  | module (text : String)
  | helperFile (path : String) (content : Except String String)
  | moduleFile (path : String) (content : Except String String)
  | url (address : String)

/-- What a registry answers: nothing, whether there is a helper, or the number of helpers. -/
inductive Acceptance where
  | silent
  | whether (accepted : Bool)
  | number (n : Nat)
  deriving DecidableEq

/-- The text behind an address, or why there is none, if the host ever answers. -/
def Script.Host.text? (host : Host) (address : String) : Option (Except HelperError String) :=
  match host.fetch with
  | none => some (.error (.unavailable "fetching is not enabled"))
  | some fetch =>
    match fetch address with
    | .body text => some (.ok text)
    | .failure why => some (.error (.unavailable why))
    | .pending => none

/-- The table of the one helper that a text defines, known under a name. -/
def Engine.named (e : Engine) (next : Identity) (name text : String) :
    Except HelperError HelperTable :=
  (Helper.ofSource e.helperBounds next text).map fun h => [(name, { h with name })]

/-- The helpers that the text of a module defines. -/
def Engine.modular (e : Engine) (next : Identity) (text : String) :
    Except HelperError HelperTable :=
  (HelperTable.ofModule e.moduleBounds e.config.limits e.host next text).1

namespace Addition

/-- The helpers that are defined, with identities from `next` on, or why there are none, if the host
answers; nothing is taken from a cache. -/
def defines (e : Engine) (next : Identity) : Addition → Option (Except HelperError HelperTable)
  | .host name arity => some (.ok [(name, .ofHost next name arity)])
  | .source name text => some (e.named next name text)
  | .module text => some (e.modular next text)
  | .helperFile path content =>
    some ((content.mapError .unavailable).bind (e.named next (Registry.fileStem path)))
  | .moduleFile _ content => some ((content.mapError .unavailable).bind (e.modular next))
  | .url address => (e.host.text? address).map fun content => content.bind (e.modular next)

/-- Where identities start makes no difference to a text that does not compile. -/
theorem defines_error {e : Engine} {id : Identity} {text : String}
    (h : (Helper.ofSource e.helperBounds id text).toBool = false) (next : Identity)
    (name : String) : ∃ err, (source name text).defines e next = some (.error err) := by
  have hshift := Helper.ofSource_shift (fun _ => next) e.helperBounds id text
  cases hsource : Helper.ofSource e.helperBounds id text with
  | ok helper =>
    rw [hsource] at h
    cases h
  | error err =>
    rw [hsource] at hshift
    exact ⟨err, congrArg (some ∘ Except.map _) hshift⟩

/-- The text that is compiled or loaded, if there is one. -/
def text? (host : Host) : Addition → Option String
  | .host .. => none
  | .source _ text | .module text => some text
  | .helperFile _ content | .moduleFile _ content => content.toOption
  | .url address => (host.text? address).bind Except.toOption

/-- Where a rejected source came from.  The text of a file with one helper is known by the name that
the helper would have got. -/
def origin : Addition → String
  | .host name _ | .source name _ => name
  | .module _ => "<inline module>"
  | .helperFile path (.ok _) => Registry.fileStem path
  | .helperFile path (.error _) | .moduleFile path _ => path
  | .url address => address

/-- It is an address that the host never answers. -/
def Unanswered (host : Host) (a : Addition) : Prop :=
  ∃ address fetch, a = .url address ∧ host.fetch = some fetch ∧ fetch address = .pending

theorem unanswered_url {host : Host} {address : String} :
    (url address).Unanswered host ↔ host.text? address = none := by
  unfold Unanswered Host.text?
  constructor
  · rintro ⟨_, fetch, heq, hfetch, hpending⟩
    cases heq
    rw [hfetch]
    dsimp only
    rw [hpending]
  · intro h
    cases hfetch : host.fetch with
    | none =>
      rw [hfetch] at h
      cases h
    | some fetch =>
      rw [hfetch] at h
      dsimp only at h
      refine ⟨address, fetch, rfl, rfl, ?_⟩
      cases hanswer : fetch address with
      | pending => rfl
      | _ =>
        rw [hanswer] at h
        cases h

/-- The answer, told by what is defined. -/
def answer (found : Except HelperError HelperTable) : Addition → Acceptance
  | .host .. => .silent
  | .source .. | .helperFile .. => .whether found.toBool
  | .module _ | .moduleFile .. | .url _ => .number (found.toOption.getD []).length

end Addition

/-! ## Errors and caches -/

namespace Engine

/-- The entries of the caches for helpers and modules are the same on both engines. -/
def SameEntries (e e' : Engine) : Prop :=
  e'.caches.helpers.entries = e.caches.helpers.entries ∧
    e'.caches.modules.entries = e.caches.modules.entries

variable {e : Engine} {text : String} {err : HelperError}

/-- A text that does not compile was not found in the cache, and is not put there. -/
theorem sameEntries_compile (h : (e.compile text).1 = .error err) :
    e.SameEntries (e.compile text).2 := by
  unfold compile at h ⊢
  rcases hget : e.caches.helpers.get (Digest.Sha256.hex text) with ⟨_ | helper, cache⟩
  · have hentries : cache.entries = e.caches.helpers.entries := by
      have := Cache.Lru.entries_get_of_none (congrArg Prod.fst hget)
      rwa [hget] at this
    simp only [hget] at h ⊢
    cases hhelper : Helper.ofSource e.helperBounds e.next text with
    | ok helper => simp [hhelper] at h
    | error err => exact ⟨hentries, rfl⟩
  · simp [hget] at h

/-- A module that does not load was not found in the cache, and is not put there. -/
theorem sameEntries_load (h : (e.load text).1 = .error err) : e.SameEntries (e.load text).2 := by
  unfold load at h ⊢
  rcases hget : e.caches.modules.get (Digest.Sha256.hex text) with ⟨_ | table, cache⟩
  · have hentries : cache.entries = e.caches.modules.entries := by
      have := Cache.Lru.entries_get_of_none (congrArg Prod.fst hget)
      rwa [hget] at this
    simp only [hget] at h ⊢
    rcases hmodule : HelperTable.ofModule e.moduleBounds e.config.limits e.host e.next text with
      ⟨err | table, next⟩
    · exact ⟨rfl, hentries⟩
    · simp [hmodule] at h
  · simp [hget] at h

end Engine

/-! ## One addition -/

namespace Registry
variable {start : Engine} {sources : List String} {r : Registry}

/-- The answer to an addition and the registry after it, if there is an answer. -/
def add (r : Registry) : Addition → Option (Acceptance × Registry)
  | .host name arity => some (.silent, r.addHost name arity)
  | .source name text => some ((r.addSource name text).map .whether id)
  | .module text => some ((r.addModule text).map .number id)
  | .helperFile path content => some ((r.addHelperFile path content).map .whether id)
  | .moduleFile path content => some ((r.addModuleFile path content).map .number id)
  | .url address => (r.addUrl address).map (Prod.map .number id)

/-- The registry after an addition, which is the same as before it if there is no answer. -/
def after (r : Registry) (a : Addition) : Registry :=
  (r.add a).elim r Prod.snd

theorem after_of_add {a : Addition} {answer : Acceptance} {r' : Registry}
    (h : r.add a = some (answer, r')) : r.after a = r' := by
  rw [after, h]
  rfl

theorem after_of_add_eq_none {a : Addition} (h : r.add a = none) : r.after a = r := by
  rw [after, h]
  rfl


/-- **All or nothing**: the helpers that were found are laid over the table and nothing is noted; or,
if there are none for some reason, this is noted, and the table and the entries of the caches for
helpers and modules are the same as before. -/
def Settled (origin : String) (r r' : Registry) : Except HelperError HelperTable → Prop
  | .ok found => r'.table = r.table.overlay found ∧ r'.rejections = r.rejections
  | .error e =>
    r'.table = r.table ∧ r'.rejections = r.rejections ++ [⟨origin, e⟩] ∧
      r.engine.SameEntries r'.engine

theorem Settled.rejections_prefix {origin : String} {r r' : Registry}
    {found : Except HelperError HelperTable} (h : Settled origin r r' found) :
    r.rejections <+: r'.rejections := by
  cases found with
  | ok found => exact h.2 ▸ List.prefix_refl r.rejections
  | error e => exact h.2.1 ▸ List.prefix_append r.rejections [⟨origin, e⟩]

/-- Putting in helpers one after the other lays them over the table and changes nothing else. -/
theorem foldl_put (r : Registry) (found : HelperTable) :
    found.foldl (fun r (name, h) => r.put name h) r =
      { r with table := r.table.overlay found } := by
  induction found generalizing r with
  | nil => rfl
  | cons p rest ih => exact ih (r.put p.1 p.2)

/-- A text is compiled and added: what it defines decides the answer and the registry. -/
theorem addSource_settled (h : Engine.Sound start sources r.engine) (name : String) {text : String}
    (htext : text ∈ sources) : ∃ found : Except HelperError HelperTable,
      (Distinguished sources → ∃ next, Globals.firstIdentity ≤ next ∧
        found = start.named next name text) ∧
      (r.addSource name text).1 = found.toBool ∧
      Settled name r (r.addSource name text).2 found ∧
      Engine.Sound start sources (r.addSource name text).2.engine := by
  obtain ⟨hsound, hcold⟩ := h.compile htext
  have hentries := fun err => @Engine.sameEntries_compile r.engine text err
  unfold addSource
  rcases hcompile : r.engine.compile text with ⟨result, engine⟩
  rw [hcompile] at hsound hcold hentries
  refine ⟨result.map fun h => [(name, { h with name })], fun hdistinct => ?_, ?_⟩
  · obtain ⟨next, hnext, hresult⟩ := hcold hdistinct
    exact ⟨next, hnext, congrArg _ hresult⟩
  · cases result with
    | ok helper => exact ⟨rfl, ⟨rfl, rfl⟩, hsound⟩
    | error err => exact ⟨rfl, ⟨rfl, rfl, hentries err rfl⟩, hsound⟩

/-- Nothing is added by a text that cannot be had. -/
theorem settled_reject (r : Registry) (origin : String) (e : HelperError) :
    Settled origin r (r.reject origin e) (.error e) :=
  ⟨rfl, rfl, rfl, rfl⟩

/-- Adds the helpers of a module whose text may be missing; answers their number. -/
def addModuleText (r : Registry) (origin : String) : Except HelperError String → Nat × Registry
  | .ok text => r.addModuleFrom origin text
  | .error e => (0, r.reject origin e)

theorem addModuleFile_eq (r : Registry) (path : String) (content : Except String String) :
    r.addModuleFile path content = r.addModuleText path (content.mapError .unavailable) := by
  cases content <;> rfl

theorem addUrl_eq (r : Registry) (address : String) :
    r.addUrl address = (r.engine.host.text? address).map (r.addModuleText address) := by
  unfold addUrl Host.text?
  cases r.engine.host.fetch with
  | none => rfl
  | some fetch =>
    dsimp only
    cases fetch address <;> rfl

/-- A module is loaded and added: what it defines decides the answer and the registry. -/
theorem addModuleText_settled (h : Engine.Sound start sources r.engine) (origin : String)
    (content : Except HelperError String) (htext : ∀ text ∈ content.toOption, text ∈ sources) :
    ∃ found : Except HelperError HelperTable,
      (Distinguished sources → ∃ next, Globals.firstIdentity ≤ next ∧
        found = content.bind (start.modular next)) ∧
      (r.addModuleText origin content).1 = (found.toOption.getD []).length ∧
      Settled origin r (r.addModuleText origin content).2 found ∧
      Engine.Sound start sources (r.addModuleText origin content).2.engine := by
  cases content with
  | error e => exact ⟨.error e, fun _ => ⟨_, h.next, rfl⟩, rfl, r.settled_reject origin e, h⟩
  | ok text =>
    obtain ⟨hsound, hcold⟩ := h.load (htext text rfl)
    have hentries := fun err => @Engine.sameEntries_load r.engine text err
    rw [show r.addModuleText origin (.ok text) = r.addModuleFrom origin text from rfl, addModuleFrom]
    rcases hload : r.engine.load text with ⟨result, engine⟩
    rw [hload] at hsound hcold hentries
    refine ⟨result, hcold, ?_⟩
    cases result with
    | error err => exact ⟨rfl, ⟨rfl, rfl, hentries err rfl⟩, hsound⟩
    | ok found =>
      dsimp only
      rw [foldl_put]
      exact ⟨rfl, ⟨rfl, rfl⟩, hsound⟩

/-- The way in which an addition ends, with an answer and a registry, is told by what it defines, and
the engine stays sound. -/
structure Ends (start : Engine) (sources : List String) (r : Registry) (a : Addition)
    (answer : Acceptance) (r' : Registry) (found : Except HelperError HelperTable) : Prop where
  defined : Distinguished sources → ∃ next, Globals.firstIdentity ≤ next ∧
    a.defines start next = some found
  answer : answer = a.answer found
  settled : Settled a.origin r r' found
  sound : Engine.Sound start sources r'.engine

/-- What an addition defines is told by what was found for it. -/
theorem Ends.of_found {a : Addition} {answer : Acceptance} {r' : Registry}
    {found : Except HelperError HelperTable} {define : Identity → Except HelperError HelperTable}
    (hdefine : ∀ next, a.defines start next = some (define next))
    (hfound : Distinguished sources → ∃ next, Globals.firstIdentity ≤ next ∧ found = define next)
    (hanswer : answer = a.answer found) (hsettled : Settled a.origin r r' found)
    (hsound : Engine.Sound start sources r'.engine) : Ends start sources r a answer r' found := by
  refine ⟨fun hdistinct => ?_, hanswer, hsettled, hsound⟩
  obtain ⟨next, hnext, rfl⟩ := hfound hdistinct
  exact ⟨next, hnext, hdefine next⟩

/-- Whatever is added, and wherever it fails, it ends as what it defines tells. -/
theorem exists_ends (h : Engine.Sound start sources r.engine) {a : Addition}
    (htext : ∀ text ∈ a.text? start.host, text ∈ sources) {answer : Acceptance} {r' : Registry}
    (hadd : r.add a = some (answer, r')) : ∃ found, Ends start sources r a answer r' found := by
  cases a with
  | host name arity =>
    cases hadd
    exact ⟨.ok [(name, .ofHost r.engine.next name arity)], fun _ => ⟨_, h.next, rfl⟩, rfl,
      ⟨rfl, rfl⟩, { h with next := Nat.le_succ_of_le h.next }⟩
  | source name text =>
    cases hadd
    obtain ⟨found, hfound, hanswer, hsettled, hsound⟩ := addSource_settled h name (htext text rfl)
    exact ⟨found, .of_found (fun _ => rfl) hfound (congrArg _ hanswer) hsettled hsound⟩
  | helperFile path content =>
    cases hadd
    cases content with
    | ok text =>
      obtain ⟨found, hfound, hanswer, hsettled, hsound⟩ :=
        addSource_settled h (fileStem path) (htext text rfl)
      exact ⟨found, .of_found (fun _ => rfl) hfound (congrArg _ hanswer) hsettled hsound⟩
    | error why =>
      exact ⟨.error (.unavailable why), fun _ => ⟨_, h.next, rfl⟩, rfl, r.settled_reject path _, h⟩
  | module text =>
    cases hadd
    obtain ⟨found, hfound, hanswer, hsettled, hsound⟩ :=
      addModuleText_settled h "<inline module>" (.ok text) htext
    exact ⟨found, .of_found (fun _ => rfl) hfound (congrArg _ hanswer) hsettled hsound⟩
  | moduleFile path content =>
    cases hadd
    have htext' : ∀ text ∈ (content.mapError HelperError.unavailable).toOption, text ∈ sources := by
      cases content <;> exact htext
    obtain ⟨found, hfound, hanswer, hsettled, hsound⟩ := addModuleText_settled h path _ htext'
    rw [← addModuleFile_eq] at hanswer hsettled hsound
    exact ⟨found, .of_found (fun _ => rfl) hfound (congrArg _ hanswer) hsettled hsound⟩
  | url address =>
    rw [add, addUrl_eq, h.host] at hadd
    cases hcontent : start.host.text? address with
    | none =>
      rw [hcontent] at hadd
      cases hadd
    | some content =>
      rw [hcontent] at hadd
      cases hadd
      have htext' : ∀ text ∈ content.toOption, text ∈ sources := fun text hmem =>
        htext text (by rw [Addition.text?, hcontent]; exact hmem)
      obtain ⟨found, hfound, hanswer, hsettled, hsound⟩ := addModuleText_settled h address _ htext'
      exact ⟨found, .of_found (fun _ => congrArg (Option.map _) hcontent) hfound
        (congrArg _ hanswer) hsettled hsound⟩

/-- There is an answer to everything but an address that the host never answers. -/
theorem add_eq_none_iff {a : Addition} : r.add a = none ↔ a.Unanswered r.engine.host := by
  cases a with
  | url address =>
    rw [Addition.unanswered_url, add, addUrl_eq, Option.map_eq_none_iff, Option.map_eq_none_iff]
  | _ =>
    refine iff_of_false (Option.some_ne_none _) ?_
    rintro ⟨_, _, heq, -⟩
    cases heq

/-! ## Histories -/

/-- The registry that a history of additions leaves, which has its last addition in front. -/
def ofHistory (e : Engine) : List Addition → Registry
  | [] => { engine := e }
  | a :: earlier => (ofHistory e earlier).after a

/-- The engine of a registry stays sound. -/
theorem sound_ofHistory {e : Engine} (h : Engine.Sound start sources e) {history : List Addition}
    (htexts : ∀ a ∈ history, ∀ text ∈ a.text? start.host, text ∈ sources) :
    Engine.Sound start sources (ofHistory e history).engine := by
  induction history with
  | nil => exact h
  | cons a earlier ih =>
    obtain ⟨ha, hearlier⟩ := List.forall_mem_cons.mp htexts
    have hsound := ih hearlier
    rw [ofHistory]
    cases hadd : (ofHistory e earlier).add a with
    | none => rwa [after_of_add_eq_none hadd]
    | some ended =>
      obtain ⟨found, hends⟩ := exists_ends hsound ha hadd
      rw [after_of_add hadd]
      exact hends.sound

/-- No addition takes a rejection back. -/
theorem rejections_prefix {e : Engine} (h : Engine.Sound start sources e)
    {later history : List Addition}
    (htexts : ∀ a ∈ later ++ history, ∀ text ∈ a.text? start.host, text ∈ sources) :
    (ofHistory e history).rejections <+: (ofHistory e (later ++ history)).rejections := by
  induction later with
  | nil => exact List.prefix_refl _
  | cons a later ih =>
    obtain ⟨ha, hrest⟩ := List.forall_mem_cons.mp htexts
    refine (ih hrest).trans ?_
    rw [List.cons_append, ofHistory]
    cases hadd : (ofHistory e (later ++ history)).add a with
    | none => exact (after_of_add_eq_none hadd).symm ▸ List.prefix_refl _
    | some ended =>
      obtain ⟨found, hends⟩ := exists_ends (sound_ofHistory h hrest) ha hadd
      rw [after_of_add hadd]
      exact hends.settled.rejections_prefix

/-- **Merging is all or nothing.**  Whatever an engine was asked for, and whatever has been added to
a registry since, one more addition is answered, if it is no address that the host never answers, and
then it either lays the helpers that it found over the table, or notes one rejection, and the answer
accords with that.  What it found is what the addition defines, but for the place where identities
start, as long as no two of the texts have one digest.  Rejections stay as they are, whatever is added
later. -/
theorem all_or_nothing (config : Config) (host : Host) (requests : List Request)
    (history : List Addition) (a : Addition) :
    let start := Engine.ofConfig config host
    let registry := ofHistory (requests.foldl Engine.after start)
    let r := registry history
    (r.add a = none ↔ a.Unanswered host) ∧
    (∀ answer r', r.add a = some (answer, r') → ∃ found,
      (Distinguished (requests.filterMap Request.source? ++
          (a :: history).filterMap (Addition.text? host)) →
        ∃ next, Globals.firstIdentity ≤ next ∧ a.defines start next = some found) ∧
      answer = a.answer found ∧ Settled a.origin r r' found) ∧
    ∀ later, r.rejections <+: (registry (later ++ history)).rejections := by
  intro start registry r
  have hsound : ∀ sources, (∀ text ∈ requests.filterMap Request.source?, text ∈ sources) →
      Engine.Sound start sources (requests.foldl Engine.after start) := fun sources hsources =>
    (Engine.sound_ofConfig config host (Nat.le_refl _)).run hsources
  have hmem : ∀ additions : List Addition, ∀ b ∈ additions, ∀ text ∈ b.text? host,
      text ∈ requests.filterMap Request.source? ++ additions.filterMap (Addition.text? host) :=
    fun additions b hb text htext =>
      List.mem_append_right _ (List.mem_filterMap.mpr ⟨b, hb, htext⟩)
  obtain ⟨ha, hhistory⟩ := List.forall_mem_cons.mp (hmem (a :: history))
  have hr := sound_ofHistory (hsound _ fun text => List.mem_append_left
    ((a :: history).filterMap (Addition.text? host))) hhistory
  refine ⟨?_, fun answer r' hadd => ?_, ?_⟩
  · rw [add_eq_none_iff, hr.host]
    rfl
  · obtain ⟨found, hends⟩ := exists_ends hr ha hadd
    exact ⟨found, hends.defined, hends.answer, hends.settled⟩
  · intro later
    have he := hsound _ fun text => List.mem_append_left
      ((later ++ history).filterMap (Addition.text? host))
    exact rejections_prefix he (hmem (later ++ history))

/-- A definition that breaks off is not merged: the helper of the same name stays. -/
theorem all_or_nothing_of_broken :
    let double := Addition.source "double" "function double(x) { return 2 * x }"
    let broken := Addition.source "double" "function double(x) \x7b"
    let r := ofHistory (Engine.ofConfig {}) [double]
    Distinguished ([broken, double].filterMap (Addition.text? {})) ∧
      ∃ r', r.add broken = some (.whether false, r') ∧ r'.table = r.table ∧
        ∃ e, r'.rejections = r.rejections ++ [⟨"double", e⟩] := by
  intro double broken r
  have hdistinct : Distinguished ([broken, double].filterMap (Addition.text? {})) := by
    unfold Distinguished
    decide +kernel
  have hfails : (Helper.ofSource (Engine.ofConfig {}).helperBounds 0
      "function double(x) \x7b").toBool = false := by
    decide +kernel
  obtain ⟨-, hends, -⟩ := all_or_nothing {} {} [] [double] broken
  obtain ⟨found, hdefined, hanswer, hsettled⟩ := hends _ _ rfl
  obtain ⟨next, hnext, hfound⟩ := hdefined hdistinct
  obtain ⟨e, he⟩ := Addition.defines_error hfails next "double"
  obtain rfl := Option.some.inj (he.symm.trans hfound)
  refine ⟨hdistinct, _, congrArg some (Prod.ext hanswer rfl), hsettled.1, e, hsettled.2.1⟩

end Registry
end Stencil
