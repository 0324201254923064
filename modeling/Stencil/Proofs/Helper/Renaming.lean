import Stencil.Helper.Module
import Stencil.Proofs.Script.Supply

/-! # Helpers up to identities

Compiling a helper and loading a module give identities to functions, and loading runs the module,
which gives identities to more.  Where those identities start makes no difference but for the
identities themselves: what is compiled or loaded with identities from elsewhere on is **the same
helper, or the same table, renamed** (`Helper.ofSource_shift`, `HelperTable.ofModule_shift`), or the
same error.  A renaming leaves the names, the arities, the digests and the definitions as they are.
-/
namespace Stencil
open Stencil.Script

/-- A helper with other identities. -/
def Helper.rename (ρ : Identity → Identity) (h : Helper) : Helper :=
  { h with function := h.function.rename ρ }

/-- Helpers with other identities. -/
def HelperTable.rename (ρ : Identity → Identity) (table : HelperTable) : HelperTable :=
  mapMembers (Helper.rename ρ) table

/-- The identity of a helper is that of its function; compiling gives no other one. -/
theorem Helper.ofSource_shift (ρ : Identity → Identity) (bounds : Helper.Bounds) (id : Identity)
    (source : String) :
    Helper.ofSource bounds (ρ id) source =
      (Helper.ofSource bounds id source).map (Helper.rename ρ) := by
  unfold Helper.ofSource
  by_cases hsize : bounds.maxBytes < source.utf8ByteSize
  · simp only [if_pos hsize]
    rfl
  · simp only [if_neg hsize]
    cases Security.scan source with
    | error violation => rfl
    | ok u =>
      cases parseDeclarations source with
      | error e => rfl
      | ok body =>
        change (Helper.singleDefinition body >>= _) =
          (Helper.singleDefinition body >>= _).map (Helper.rename ρ)
        cases Helper.singleDefinition body with
        | error e => rfl
        | ok definition =>
          by_cases htimeout : bounds.timeout = 0
          · simp only [if_pos htimeout]
            rfl
          · simp only [if_neg htimeout, bind, Except.bind]
            cases definition.2.promisesValue <;> rfl

namespace HelperTable
variable {ρ : Identity → Identity}

namespace Harvest
variable (h : Harvest)

/-- What a module put out, with other identities. -/
def rename (ρ : Identity → Identity) (h : Harvest) : Harvest :=
  { h with output := h.output.rename ρ }

@[simp]
theorem isTop_rename (name : String) : (h.rename ρ).isTop name = h.isTop name := by
  simp only [isTop, rename, ModuleOutput.rename, lookup_mapMembers, Option.isSome_map]

theorem rescope_rename (captured : List (String × Value)) :
    (h.rename ρ).rescope (mapMembers (Value.rename ρ) captured) =
      mapMembers (Value.rename ρ) (h.rescope captured) := by
  simp only [rescope, isTop_rename, mapMembers, List.filter_map]
  rfl

theorem sibling_rename (v : Value) :
    (h.rename ρ).sibling (v.rename ρ) = (h.sibling v).rename ρ := by
  cases v with
  | closure id f captured siblings => simp [sibling, rescope_rename]
  | array | object => simp [sibling]
  | undefined | null | bool | number | string | date | native => rfl

theorem siblings_rename :
    (h.rename ρ).siblings = mapMembers (ModuleBinding.rename ρ) h.siblings := by
  simp only [siblings, rename, ModuleOutput.rename, mapMembers, List.map_map]
  refine List.map_congr_left fun p _ => Prod.ext rfl ?_
  exact h.sibling_rename p.2

theorem candidates_rename :
    (h.rename ρ).candidates = mapMembers (Value.rename ρ) h.candidates := by
  simp only [candidates, rename, ModuleOutput.rename, mapMembers_append, lookup_mapMembers,
    Option.isNone_map]
  rw [mapMembers, mapMembers, mapMembers, List.filter_map]
  congr 3
  funext p
  simp

theorem helper?_rename (siblings : Siblings) (id : Identity) (name : String) (v : Value) :
    (h.rename ρ).helper? (mapMembers (ModuleBinding.rename ρ) siblings) (ρ id) name (v.rename ρ) =
      (h.helper? siblings id name v).map (Helper.rename ρ) := by
  cases v with
  | closure old f captured outer =>
    rw [Value.rename_closure, helper?, helper?, rescope_rename]
    split
    · simp [Helper.rename, rename]
    · rfl
  | array | object => simp [helper?]
  | undefined | null | bool | number | string | date | native => rfl

/-- The helpers of a module get identities one after the other. -/
theorem table_rename (hρ : IsShift ρ) {next : Identity} (hnext : Globals.firstIdentity ≤ next) :
    (h.rename ρ).table (ρ next) =
      ((h.table next).1.rename ρ, ρ (h.table next).2) := by
  have hfound : ((mapMembers (Value.rename ρ) h.candidates).zipIdx.filterMap
      fun p => ((h.rename ρ).helper?
        (mapMembers (ModuleBinding.rename ρ) h.siblings) (ρ next + p.2) p.1.1 p.1.2).map
          fun helper => (p.1.1, helper)) =
      mapMembers (Helper.rename ρ) (h.candidates.zipIdx.filterMap fun p =>
        (h.helper? h.siblings (next + p.2) p.1.1 p.1.2).map fun helper => (p.1.1, helper)) := by
    have hzip : (mapMembers (Value.rename ρ) h.candidates).zipIdx =
        h.candidates.zipIdx.map fun p => ((p.1.1, p.1.2.rename ρ), p.2) := List.zipIdx_map ..
    have hmap : ∀ table : HelperTable, mapMembers (Helper.rename ρ) table =
        table.map fun p => (p.1, p.2.rename ρ) := fun _ => rfl
    rw [hzip, hmap, List.map_filterMap, List.filterMap_map]
    congr 1
    funext p
    dsimp only [Function.comp_apply]
    rw [← hρ.shiftsFrom.add hnext, helper?_rename, Option.map_map, Option.map_map]
    rfl
  unfold table HelperTable.rename
  rw [candidates_rename, siblings_rename, length_mapMembers, hρ.shiftsFrom.add hnext]
  exact Prod.ext hfound rfl

end Harvest

/-- **A module that is loaded with identities from elsewhere on gives the same table, renamed.** -/
theorem ofModule_shift (hρ : IsShift ρ) (bounds : Helper.Bounds) (limits : Limits) (host : Host)
    {next : Identity} (hnext : Globals.firstIdentity ≤ next) (source : String) :
    next ≤ (ofModule bounds limits host next source).2 ∧
      ofModule bounds limits host (ρ next) source =
        ((ofModule bounds limits host next source).1.map (HelperTable.rename ρ),
          ρ (ofModule bounds limits host next source).2) := by
  unfold ofModule
  split
  · exact ⟨Nat.le_refl _, rfl⟩
  · cases permitted source with
    | error e => exact ⟨Nat.le_refl _, rfl⟩
    | ok body =>
      let context : Context :=
        { limits, budget := { limit := bounds.timeout }, host := { host with fetch := none } }
      obtain ⟨hle, hrun⟩ := runModule_shift (c := context) hρ rfl hnext body
      dsimp only
      rw [hrun]
      rcases hmodule : runModule context next body with ⟨e | output, next'⟩ <;>
        rw [hmodule] at hle <;> dsimp only at hle ⊢
      · exact ⟨hle, rfl⟩
      · dsimp only [Except.map]
        have htable := Harvest.table_rename ⟨output, Digest.Sha256.hex source⟩ hρ
          (Nat.le_trans hnext hle)
        rw [Harvest.rename] at htable
        rw [htable]
        exact ⟨Nat.le_trans hle (Nat.le_add_right _ _), rfl⟩

end HelperTable
end Stencil
