import Stencil.Proofs.Helper.Scanned
import Stencil.Proofs.Script.Promise

/-! # What is discarded

A helper whose function promises no value is refused, and a module gives no helper for a function
that promises none.  Nothing is lost by that: **what is discarded never answers with a value**
(`promisesValue_sound`), since the functions come out of the parser, and there the check goes
together with what calls can give.  All other functions that a module binds or exports become
helpers.
-/
namespace Stencil
open Stencil.Script

namespace Helper

theorem mapError_eq_error {ε α : Type} {x : Except ε α} {f : ε → HelperError} {e : HelperError} :
    x.mapError f = .error e ↔ ∃ e', x = .error e' ∧ f e' = e := by
  cases x <;> simp [Except.mapError]

theorem mapError_eq_ok {ε α : Type} {x : Except ε α} {f : ε → HelperError} {a : α} :
    x.mapError f = .ok a ↔ x = .ok a := by
  cases x <;> simp [Except.mapError]

theorem bind_eq_error {α β : Type} {x : Except HelperError α} {f : α → Except HelperError β}
    {e : HelperError} :
    (x >>= f) = .error e ↔ x = .error e ∨ ∃ a, x = .ok a ∧ f a = .error e := by
  cases x with
  | error e' => simp [bind, Except.bind]
  | ok a => simp [bind, Except.bind]

/-- The function that a statement defines is written in it. -/
theorem mem_functions_of_definition {name : String} {f : FunctionDef} (s : Stmt)
    (h : definition s = .ok (name, f)) : f ∈ s.functions := by
  fun_induction definition s with
  | case1 g | case2 g | case3 g =>
    cases h
    exact FunctionDef.mem_functions _
  | case4 inner ih => exact ih h
  | case5 kind bound g =>
    cases h
    exact List.mem_append_left _ (FunctionDef.mem_functions _)
  | case7 op bound g =>
    cases h
    exact List.mem_append_right _ (FunctionDef.mem_functions _)
  | _ => cases h

theorem mem_functions_of_single {body : List Stmt} {name : String} {f : FunctionDef}
    (h : singleDefinition body = .ok (name, f)) : f ∈ Stmt.functionsOf body := by
  unfold singleDefinition at h
  split at h
  · rename_i s hs
    have hmem : s ∈ body.filter (!isEmptyStmt ·) := hs ▸ List.mem_singleton_self s
    exact Stmt.mem_functionsOf.mpr
      ⟨s, List.mem_of_mem_filter hmem, mem_functions_of_definition s h⟩
  · cases h
  · cases h

/-- What defines no function is refused for that. -/
theorem definition_error (s : Stmt) {e : HelperError} (h : definition s = .error e) :
    ∃ why, e = .notFunction why := by
  fun_induction definition s with
  | case4 inner ih => exact ih h
  | _ => cases h <;> exact ⟨_, rfl⟩

theorem singleDefinition_error {body : List Stmt} {e : HelperError}
    (h : singleDefinition body = .error e) : ∃ why, e = .notFunction why := by
  unfold singleDefinition at h
  split at h
  · exact definition_error _ h
  · cases h
    exact ⟨_, rfl⟩
  · cases h
    exact ⟨_, rfl⟩

/-- A source is refused for a missing `return` if its one function promises no value. -/
theorem ofSource_noReturn {bounds : Bounds} {id : Identity} {source name : String}
    (h : ofSource bounds id source = .error (.noReturn name)) :
    ∃ body f, parseDeclarations source = .ok body ∧ singleDefinition body = .ok (name, f) ∧
      f.promisesValue = false := by
  unfold ofSource at h
  by_cases hsize : bounds.maxBytes < source.utf8ByteSize
  · rw [if_pos hsize] at h
    cases h
  rw [if_neg hsize] at h
  rcases bind_eq_error.mp h with hscan | ⟨_, -, h⟩
  · obtain ⟨_, -, h⟩ := mapError_eq_error.mp hscan
    cases h
  rcases bind_eq_error.mp h with hparse | ⟨body, hbody, h⟩
  · obtain ⟨_, -, h⟩ := mapError_eq_error.mp hparse
    cases h
  rcases bind_eq_error.mp h with hsingle | ⟨⟨name', f⟩, hsingle, h⟩
  · obtain ⟨_, h⟩ := singleDefinition_error hsingle
    cases h
  dsimp only at h
  split at h
  · cases h
  · split at h
    · rename_i hpromise
      cases h
      exact ⟨body, f, mapError_eq_ok.mp hbody, hsingle, Bool.not_eq_true' _ ▸ hpromise⟩
    · cases h

end Helper

namespace HelperTable

/-- What a module puts out when it is loaded: what the run of its permitted statements leaves. -/
def Harvests (bounds : Helper.Bounds) (limits : Limits) (host : Host) (next : Identity)
    (source : String) (h : Harvest) : Prop :=
  h.digest = Digest.Sha256.hex source ∧ ∃ body next', permitted source = .ok body ∧
    runModule { limits, budget := { limit := bounds.timeout }, host := { host with fetch := none } }
      next body = (.ok h.output, next')

/-- A module that is accepted gives the helpers of its harvest. -/
theorem exists_harvest {bounds : Helper.Bounds} {limits : Limits} {host : Host}
    {next next' : Identity} {source : String} {table : HelperTable}
    (h : ofModule bounds limits host next source = (.ok table, next')) :
    ∃ harvest next₁, Harvests bounds limits host next source harvest ∧
      table = (harvest.table next₁).1 := by
  unfold ofModule at h
  split at h
  · cases h
  split at h
  · cases h
  · rename_i body hbody
    dsimp only at h
    split at h
    · rename_i output next₁ hrun
      cases h
      exact ⟨_, next₁, ⟨rfl, body, next₁, hbody, hrun⟩, rfl⟩
    · cases h

/-- A function of a script that promises a value becomes a helper, with the names of the module. -/
theorem Harvest.mem_table {h : Harvest} {name : String} {id : Identity} {f : FunctionDef}
    {captured : List (String × Value)} {outer : Siblings}
    (hv : (name, .closure id f captured outer) ∈ h.candidates) (hf : f.promisesValue = true)
    (next : Identity) : ∃ helper id', (name, helper) ∈ (h.table next).1 ∧
      helper.function = .closure id' f (h.rescope captured) h.siblings := by
  obtain ⟨i, hi⟩ := List.mem_iff_getElem?.mp hv
  let helper : Helper :=
    ⟨name, f.params.length, .closure (next + i) f (h.rescope captured) h.siblings, h.digest⟩
  have hhelper : h.helper? h.siblings (next + i) name (.closure id f captured outer) =
      some helper := if_pos hf
  refine ⟨helper, next + i, List.mem_filterMap.mpr ?_, rfl⟩
  refine ⟨((name, .closure id f captured outer), i), ?_, ?_⟩
  · exact List.mk_mem_zipIdx_iff_getElem?.mpr hi
  · exact congrArg (Option.map _) hhelper

/-- The functions of a script that a module binds or exports are written in its statements. -/
theorem mem_functions_of_candidate {bounds : Helper.Bounds} {limits : Limits} {host : Host}
    {next : Identity} {source : String} {h : Harvest}
    (hh : Harvests bounds limits host next source h) {name : String} {id : Identity}
    {f : FunctionDef} {captured : List (String × Value)} {siblings : Siblings}
    (hv : (name, .closure id f captured siblings) ∈ h.candidates) :
    ∃ parts, splitDeclarations source = .ok parts ∧
      ∃ part ∈ parts, f ∈ part.statement.functions := by
  obtain ⟨-, body, next', hbody, hrun⟩ := hh
  obtain ⟨parts, hparts, rfl⟩ := permitted_eq_ok hbody
  obtain ⟨hbindings, hexports⟩ := within_runModule rfl hrun
  have hwithin := List.forall_mem_append.mpr
    ⟨hexports, fun p hp => hbindings p (List.mem_filter.mp hp).1⟩ _ hv
  obtain ⟨s, hs, hf⟩ := Stmt.mem_functionsOf.mp (Value.within_closure.mp hwithin).1
  obtain ⟨part, hpart, rfl⟩ := List.mem_map.mp hs
  exact ⟨parts, hparts, part, List.mem_of_mem_filter hpart, hf⟩

end HelperTable

/-- **What is discarded never answers with a value.**  A function of a source that promises no value
gives `undefined` or fails, however it is called; so does the one function of a source that is
refused for its missing `return`; and if a module is accepted, every function of a script that it
binds or exports is in the table, unless it is of that kind. -/
theorem promisesValue_sound :
    (∀ source body, (parseProgram source = .ok body ∨ parseDeclarations source = .ok body) →
      ∀ f ∈ Stmt.functionsOf body, f.promisesValue = false → f.NeverAnswers) ∧
    (∀ bounds id source name, Helper.ofSource bounds id source = .error (.noReturn name) →
      ∃ body f, parseDeclarations source = .ok body ∧
        Helper.singleDefinition body = .ok (name, f) ∧ f.NeverAnswers) ∧
    ∀ bounds limits host next source table next',
      HelperTable.ofModule bounds limits host next source = (.ok table, next') →
      ∃ harvest, HelperTable.Harvests bounds limits host next source harvest ∧
        ∀ name id f captured siblings,
          (name, .closure id f captured siblings) ∈ harvest.candidates →
          f.NeverAnswers ∨ ∃ helper id', (name, helper) ∈ table ∧
            helper.function = .closure id' f (harvest.rescope captured) harvest.siblings := by
  refine ⟨fun source body h f hf => FunctionDef.keepsPromise h hf, ?_, ?_⟩
  · intro bounds id source name h
    obtain ⟨body, f, hbody, hsingle, hnone⟩ := Helper.ofSource_noReturn h
    have hf := Helper.mem_functions_of_single hsingle
    exact ⟨body, f, hbody, hsingle, FunctionDef.keepsPromise (.inr hbody) hf hnone⟩
  · intro bounds limits host next source table next' h
    obtain ⟨harvest, next₁, hharvest, rfl⟩ := HelperTable.exists_harvest h
    refine ⟨harvest, hharvest, fun name id f captured siblings hv => ?_⟩
    cases hpromise : f.promisesValue with
    | false =>
      obtain ⟨parts, hparts, part, hpart, hf⟩ :=
        HelperTable.mem_functions_of_candidate hharvest hv
      have h := TreeLogic.silence.ofParts (fun _ _ _ _ => trivial) hparts part hpart
      exact .inl (h.1 f hf hpromise)
    | true =>
      exact .inr (HelperTable.Harvest.mem_table hv hpromise next₁)

/-! ### A function that is discarded -/

/-- A loop around a `return` without a value. -/
def silentSource : String :=
  "f(x){while(x)return}"

/-- Whether a source is refused because its function, of this name, promises no value. -/
def Helper.lacksReturn (name : String) : Except HelperError Helper → Bool
  | .error (.noReturn refused) => refused == name
  | _ => false

theorem Helper.ofSource_silent :
    Helper.ofSource ⟨1000, 1000⟩ 0 silentSource = .error (.noReturn "f") := by
  have h : lacksReturn "f" (Helper.ofSource ⟨1000, 1000⟩ 0 silentSource) = true := by
    decide +kernel
  generalize Helper.ofSource ⟨1000, 1000⟩ 0 silentSource = x at h
  unfold lacksReturn at h
  split at h
  · rw [beq_iff_eq.mp h]
  · cases h

theorem promisesValue_sound_silent : ∃ body f,
    Helper.ofSource ⟨1000, 1000⟩ 0 silentSource = .error (.noReturn "f") ∧
      parseDeclarations silentSource = .ok body ∧
      Helper.singleDefinition body = .ok ("f", f) ∧ f.NeverAnswers := by
  obtain ⟨body, f, hbody, hsingle, hf⟩ :=
    promisesValue_sound.2.1 _ _ _ _ Helper.ofSource_silent
  exact ⟨body, f, Helper.ofSource_silent, hbody, hsingle, hf⟩

end Stencil
