import Stencil.Helper.Module
import Stencil.Proofs.Script.Activations
import Stencil.Proofs.Script.Parser.Parts

/-! # What is scanned is what runs

A module is scanned part by part: a statement runs if the text of its part holds no forbidden code.
The scan sees texts and the evaluator sees trees, but the parts make up the whole text, and each of
them reads as the one statement that it is paired with.  While the module runs, the machine holds no
functions but those written in the statements that run.  So **every function of a loaded helper is
written in a statement whose text has passed the scan** (`ofModule_scanned`), wherever the helper
holds it: as its own definition, as a name of its module, or inside of what it captured.
-/
namespace Stencil.HelperTable
open Stencil.Script
variable {D : FunctionDef → Prop} {N : Native → Prop}

namespace Harvest

theorem within_rescope {h : Harvest} {captured : List (String × Value)}
    (hc : ∀ p ∈ captured, p.2.Within D N) : ∀ p ∈ h.rescope captured, p.2.Within D N :=
  fun p hp => hc p (List.mem_filter.mp hp).1

theorem within_sibling {h : Harvest} {v : Value} (hv : v.Within D N) :
    (h.sibling v).Within D N := by
  unfold sibling
  split
  · obtain ⟨hf, hcaptured, -⟩ := Value.within_closure.mp hv
    exact ModuleBinding.within_function.mpr ⟨hf, within_rescope hcaptured⟩
  · exact hv

/-- A helper holds no functions but those that the module binds or exports. -/
theorem within_table {h : Harvest} (hb : ∀ p ∈ h.output.bindings, p.2.Within D N)
    (he : ∀ p ∈ h.output.exports, p.2.Within D N) (next : Identity) :
    ∀ p ∈ (h.table next).1, p.2.function.Within D N := by
  have hsiblings : ∀ p ∈ h.siblings, p.2.Within D N := by
    intro p hp
    obtain ⟨q, hq, rfl⟩ := List.mem_map.mp hp
    exact within_sibling (hb q hq)
  have hcandidates : ∀ p ∈ h.candidates, p.2.Within D N :=
    List.forall_mem_append.mpr ⟨he, fun p hp => hb p (List.mem_filter.mp hp).1⟩
  intro p hp
  obtain ⟨⟨⟨name, v⟩, i⟩, hmem, hp⟩ := List.mem_filterMap.mp hp
  obtain ⟨helper, hhelper, rfl⟩ := Option.map_eq_some_iff.mp hp
  have hv : v.Within D N := hcandidates (name, v) (List.fst_mem_of_mem_zipIdx hmem)
  unfold helper? at hhelper
  split at hhelper
  · split at hhelper
    · cases hhelper
      obtain ⟨hf, hcaptured, -⟩ := Value.within_closure.mp hv
      exact Value.within_closure.mpr ⟨hf, within_rescope hcaptured, hsiblings⟩
    · cases hhelper
  · cases hhelper
    exact hv
  · cases hhelper

end Harvest

theorem permitted_eq_ok {source : String} {body : List Stmt} (h : permitted source = .ok body) :
    ∃ parts, splitDeclarations source = .ok parts ∧
      body = (parts.filter (isPermitted source)).map (·.statement) := by
  obtain ⟨parts, hparts, hbody⟩ := Parser.bind_eq_ok.mp h
  exact ⟨parts, hparts, (Except.ok.inj hbody).symm⟩

/-- A module that sees no names but the global ones ends with no functions but its own. -/
theorem within_runModule {c : Context} {body : List Stmt} {next next' : Identity}
    {output : ModuleOutput} (hscope : c.scope = {})
    (h : runModule c next body = (.ok output, next')) :
    (∀ p ∈ output.bindings, p.2.Within (· ∈ Stmt.functionsOf body) (∃ b, · = .builtin b)) ∧
      ∀ p ∈ output.exports, p.2.Within (· ∈ Stmt.functionsOf body) (∃ b, · = .builtin b) := by
  have hc : c.Within (· ∈ Stmt.functionsOf body) (∃ b, · = .builtin b) := by
    refine ⟨?_, ?_, ?_, ?_⟩
    iterate 3
      rw [hscope]
      exact List.forall_mem_nil _
    rintro id name arity args v ⟨b, hb⟩
    cases hb
  have hempty : Machine.Within (· ∈ Stmt.functionsOf body) (∃ b, · = .builtin b) { next } := by
    refine ⟨⟨?_, List.forall_mem_nil _, List.forall_mem_nil _⟩, List.forall_mem_nil _,
      Value.within_undefined, nofun⟩
    exact List.forall_mem_singleton.mpr (List.forall_mem_nil _)
  have hmodule := Keeping.module body hc (fun f hf g hg => Stmt.functionsOf_trans hg body hf)
    (fun b => ⟨b, rfl⟩) (fun _ hf => hf) _ hempty
  rw [runModule, Eval.runFrom_eq] at h
  exact hmodule.2.2 output (congrArg Prod.fst h)

/-- The helpers of a module hold no functions but those of the statements that run. -/
theorem ofModule_eq_ok {bounds : Helper.Bounds} {limits : Limits} {host : Host}
    {next next' : Identity} {source : String} {table : HelperTable}
    (h : ofModule bounds limits host next source = (.ok table, next')) :
    ∃ body, permitted source = .ok body ∧ ∀ p ∈ table,
      p.2.function.Within (· ∈ Stmt.functionsOf body) (∃ b, · = .builtin b) := by
  unfold ofModule at h
  split at h
  · cases h
  split at h
  · cases h
  · rename_i body hbody
    refine ⟨body, hbody, ?_⟩
    dsimp only at h
    split at h
    · rename_i output next'' hrun
      obtain ⟨hbindings, hexports⟩ := within_runModule rfl hrun
      cases h
      exact Harvest.within_table hbindings hexports next''
    · cases h

/-- The parts of a source make it up, and the functions of a table come from those parts that are
free of forbidden code. -/
structure Scanned (source : String) (parts : List Located) (table : HelperTable) : Prop where
  split : splitDeclarations source = .ok parts
  first : ∀ part ∈ parts.head?, ∃ tokens, tokenize source = .ok tokens ∧
    tokens.head?.map Token.offset = some part.start
  consecutive : parts.IsChain fun a b => a.stop = b.start
  last : ∀ part ∈ parts.getLast?, part.stop = source.utf8ByteSize
  alone : ∀ part ∈ parts, ∃ text, part.text? source = some text ∧
    parseDeclarations text = .ok [part.statement]
  functions : ∀ p ∈ table, p.2.function.Within
    (fun f => ∃ part ∈ parts, f ∈ part.statement.functions ∧
      ∃ text, part.text? source = some text ∧ Security.violation? text = none)
    (∃ b, · = .builtin b)

/-- **What is scanned is what runs.**  If a module is accepted, the parts of its source follow each
other from its first token to its end, each part reads on its own as the one statement that it is
paired with, and every function of a script that a helper holds, at any depth, is written in a
statement whose part is free of forbidden code. -/
theorem ofModule_scanned {bounds : Helper.Bounds} {limits : Limits} {host : Host}
    {next next' : Identity} {source : String} {table : HelperTable}
    (h : ofModule bounds limits host next source = (.ok table, next')) :
    ∃ parts, Scanned source parts table := by
  obtain ⟨body, hbody, htable⟩ := ofModule_eq_ok h
  obtain ⟨parts, hparts, rfl⟩ := permitted_eq_ok hbody
  obtain ⟨a, p, tokens, htokens, hhead, hsource, hoffset, hsliced⟩ :=
    splitDeclarations_sliced hparts
  have htexts := hsliced.exists_text hsource hoffset
  have hsize : p.offset + Text.byteLength p.rest = source.utf8ByteSize := by
    rw [← String.ofList_toList (s := source), Text.utf8ByteSize_ofList, hsource,
      Text.byteLength_append, hoffset]
  refine ⟨parts, hparts, ?_, hsliced.consecutive, ?_, htexts, ?_⟩
  · intro part hpart
    exact ⟨tokens, htokens, by rw [hhead, hsliced.head_start part hpart]⟩
  · intro part hpart
    rw [hsliced.last_stop part hpart, hsize]
  · intro q hq
    refine Value.Within.mono (fun f hf => ?_) (fun _ h => h) _ (htable q hq)
    obtain ⟨s, hs, hf⟩ := Stmt.mem_functionsOf.mp hf
    obtain ⟨part, hpart, rfl⟩ := List.mem_map.mp hs
    obtain ⟨hpart, hpermitted⟩ := List.mem_filter.mp hpart
    obtain ⟨text, htext, -⟩ := htexts part hpart
    unfold isPermitted at hpermitted
    rw [htext] at hpermitted
    exact ⟨part, hpart, hf, text, htext, Option.isNone_iff_eq_none.mp hpermitted⟩

/-! ### A module of which one statement does not run -/

/-- A function, a comment, and a statement with forbidden code. -/
def mixedSource : String :=
  "f(x){return x}//i\nprocess"

/-- Whether what has been read is one named function. -/
def isFunction (name : String) : Except ScriptError (List Stmt) → Bool
  | .ok [.function f] => f.name == some name
  | _ => false

theorem exists_permitted_mixed :
    ∃ f, permitted mixedSource = .ok [.function f] ∧ f.name = some "f" := by
  have h : isFunction "f" (permitted mixedSource) = true := by decide +kernel
  generalize permitted mixedSource = x at h
  unfold isFunction at h
  split at h
  · exact ⟨_, rfl, beq_iff_eq.mp h⟩
  · cases h

open Script.Eval in
/-- A module that only declares a function binds its name. -/
theorem exists_outcome_module {c : Context} {f : FunctionDef} (hf : f.name = some "f")
    (hdepth : c.limits.valueDepth = 256) : ∃ v,
    ((Eval.module [.function f]).outcome c { next := 0 }).1 = .ok ⟨[("f", v)], []⟩ := by
  have hcheck : Value.checkHeights 256 1
      [.object 0 [], .object 1 [("exports", .object 0 [])]] = .ok () := by
    simp [Value.checkHeights, Value.measureItems, Value.measureMembers, Value.measure, Value.known,
      Value.noted, Except.map]
  simp [Eval.module, outcome_bind, plainObject, declare, program, programWith, hoist,
    declaredFunction?, hf, newClosure, snapshot, onInnermost, Json.insertMember, programStmts, stmt,
    outcome_tick, hdepth, hcheck, takeCompletion, framed, pollInterval, collect, exportedMembers,
    moduleExports, overlay, List.lookup_cons, List.lookup_nil, Value.members?, Except.map]

theorem ofModule_scanned_mixed : ∃ table next' parts,
    ofModule ⟨1000, 1000⟩ {} {} 0 mixedSource = (.ok table, next') ∧
      Scanned mixedSource parts table := by
  obtain ⟨f, hf, hname⟩ := exists_permitted_mixed
  obtain ⟨v, hv⟩ := exists_outcome_module (c := { limits := {}, budget := { limit := 1000 } })
    hname rfl
  have h : ∃ table next',
      ofModule ⟨1000, 1000⟩ {} {} 0 mixedSource = (.ok table, next') := by
    unfold ofModule
    rw [if_neg (by decide), hf]
    dsimp only
    rw [runModule, Eval.runFrom_eq, hv]
    exact ⟨_, _, rfl⟩
  obtain ⟨table, next', h⟩ := h
  obtain ⟨parts, hparts⟩ := ofModule_scanned h
  exact ⟨table, next', parts, h, hparts⟩

end Stencil.HelperTable
