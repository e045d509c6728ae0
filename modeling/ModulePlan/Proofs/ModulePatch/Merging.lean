/-
Patch files that are merged into a patch one after another.

What a patch file changes is merged twice: directive by directive while the file is read, and
file by file into the patch.  Both put names behind those that are there, and a package where it
first occurs.  So reading more directives and merging another file come to the same, but for the
two requests for the test dependencies, which are always those of the last file.
-/

import ModulePlan.ModulePatch
import ModulePlan.Proofs.KeyedList

namespace ModulePlan

open Patch

namespace ModulePatch

/-! ### Packages and their targets -/

/-- The targets of one package when others are put behind those that are there. -/
def joinTargets (present : Option NameSet) : Option NameSet → Option NameSet
  | none => present
  | some names => some ((present.getD .empty).union names)

theorem get?_addTargets (targets : Targets) (package other : String) (names : NameSet) :
    (addTargets targets package names).get? other =
      joinTargets (targets.get? other) (if other = package then some names else none) := by
  unfold addTargets
  rw [KeyedList.get?_alter]
  by_cases same : other = package
  · rw [if_pos same, if_pos same, same]
    rfl
  · rw [if_neg same, if_neg same]
    rfl

/-- Takes packages with targets in one after another. -/
def addEach (targets : Targets) (entries : List (String × NameSet)) : Targets :=
  entries.foldl (fun merged entry => addTargets merged entry.1 entry.2) targets

theorem addEach_cons (targets : Targets) (entry : String × NameSet)
    (rest : List (String × NameSet)) :
    addEach targets (entry :: rest) = addEach (addTargets targets entry.1 entry.2) rest :=
  rfl

theorem distinctKeys_addTargets (targets : Targets) (package : String) (names : NameSet) :
    (addTargets targets package names).distinctKeys = targets.distinctKeys.insert package :=
  KeyedList.distinctKeys_alter targets package _

private theorem distinctKeys_addEach (targets : Targets) (entries : List (String × NameSet)) :
    (addEach targets entries).distinctKeys =
      (entries.map Prod.fst).foldl .insert targets.distinctKeys := by
  induction entries generalizing targets with
  | nil => rfl
  | cons entry rest ih =>
      rw [addEach_cons, ih, distinctKeys_addTargets, List.map_cons, List.foldl_cons]

theorem distinctKeys_mergeTargets (targets others : Targets) :
    (mergeTargets targets others).distinctKeys =
      targets.distinctKeys.union others.distinctKeys :=
  distinctKeys_addEach targets others.entries

private theorem get?_addEach {entries : List (String × NameSet)}
    (distinct : (entries.map Prod.fst).Nodup) (targets : Targets) (package : String) :
    (addEach targets entries).get? package =
      joinTargets (targets.get? package) (entries.lookup package) := by
  induction entries generalizing targets with
  | nil => rfl
  | cons entry rest ih =>
      obtain ⟨fresh, distinct⟩ := List.nodup_cons.mp distinct
      rw [addEach_cons, ih distinct, get?_addTargets, List.lookup_cons]
      by_cases same : package = entry.1
      · have absent : rest.lookup package = none := by
          rw [List.lookup_eq_none_iff]
          intro later present
          rw [bne_iff_ne, same]
          intro again
          apply fresh
          rw [again]
          exact List.mem_map_of_mem present
        rw [absent, if_pos same, beq_iff_eq.mpr same]
        rfl
      · rw [if_neg same, beq_false_of_ne same]
        rfl

theorem get?_mergeTargets (targets others : Targets) (package : String) :
    (mergeTargets targets others).get? package =
      joinTargets (targets.get? package) (others.get? package) :=
  get?_addEach others.keys_nodup targets package

/-- Putting targets behind what is merged is merging with these targets behind. -/
theorem mergeTargets_addTargets (targets others : Targets) (package : String) (names : NameSet) :
    mergeTargets targets (addTargets others package names) =
      addTargets (mergeTargets targets others) package names := by
  apply KeyedList.eq_of_get?
  · rw [distinctKeys_mergeTargets, distinctKeys_addTargets, distinctKeys_addTargets,
      distinctKeys_mergeTargets, DistinctList.union_insert]
  · intro other
    rw [get?_mergeTargets, get?_addTargets, get?_addTargets, get?_mergeTargets]
    by_cases same : other = package
    · rw [if_pos same]
      cases others.get? other with
      | none => exact congrArg (some <| DistinctList.union _ ·) (DistinctList.empty_union names)
      | some held => exact congrArg some (DistinctList.union_union _ held names).symm
    · rw [if_neg same]
      rfl

private theorem mergeTargets_addEach (targets others : Targets)
    (entries : List (String × NameSet)) :
    mergeTargets targets (addEach others entries) =
      addEach (mergeTargets targets others) entries := by
  induction entries generalizing others with
  | nil => rfl
  | cons entry rest ih => rw [addEach_cons, ih, mergeTargets_addTargets, addEach_cons]

theorem mergeTargets_mergeTargets (targets others more : Targets) :
    mergeTargets (mergeTargets targets others) more =
      mergeTargets targets (mergeTargets others more) :=
  (mergeTargets_addEach targets others more.entries).symm

end ModulePatch

/-! ### The directives of two files -/

namespace Patch.Overrides

/-- What two patch files change together. -/
def append (overrides others : Overrides) : Overrides where
  addModules := overrides.addModules.union others.addModules
  limitModules := overrides.limitModules.union others.limitModules
  addReads := overrides.addReads.union others.addReads
  addExports := ModulePatch.mergeTargets overrides.addExports others.addExports
  addOpens := ModulePatch.mergeTargets overrides.addOpens others.addOpens
  addTestModules := overrides.addTestModules || others.addTestModules
  readTestModules := overrides.readTestModules || others.readTestModules
  exportsToTest := overrides.exportsToTest.union others.exportsToTest

theorem append_empty (overrides : Overrides) : overrides.append {} = overrides := by
  unfold append
  rw [Bool.or_false, Bool.or_false]
  rfl

theorem append_add (overrides others : Overrides) (directive : Directive) :
    overrides.append (others.add directive) = (overrides.append others).add directive := by
  cases directive with
  | addModules names =>
      simp only [append, add, DistinctList.union_union, Bool.or_assoc]
  | limitModules names =>
      simp only [append, add, DistinctList.union_union]
  | addReads names =>
      simp only [append, add, DistinctList.union_union, Bool.or_assoc]
  | addExports package targets =>
      simp only [append, add, ModulePatch.mergeTargets_addTargets]
      split
      · rw [DistinctList.union_insert]
      · rfl
  | addOpens package targets =>
      simp only [append, add, ModulePatch.mergeTargets_addTargets]

theorem append_foldl_add (overrides others : Overrides) (directives : List Directive) :
    overrides.append (directives.foldl add others) =
      directives.foldl add (overrides.append others) := by
  induction directives generalizing others with
  | nil => rfl
  | cons directive rest ih => rw [List.foldl_cons, ih, append_add, List.foldl_cons]

end Patch.Overrides

theorem Patch.Declaration.overrides_append (module : String) (directives others : List Directive) :
    (⟨module, directives ++ others⟩ : Declaration).overrides =
      (⟨module, directives⟩ : Declaration).overrides.append
        (⟨module, others⟩ : Declaration).overrides := by
  unfold Declaration.overrides
  rw [List.foldl_append, Overrides.append_foldl_add, Overrides.append_empty]

/-- Two files of one module change a patch as one file with the directives of both does.  Only
the requests for the test dependencies are those of the second file alone. -/
theorem ModulePatch.apply_apply (patch : ModulePatch) (module : String)
    (directives others : List Directive) :
    (patch.apply ⟨module, directives⟩).apply ⟨module, others⟩ =
      { patch.apply ⟨module, directives ++ others⟩ with
        addTestModules := (⟨module, others⟩ : Declaration).overrides.addTestModules
        readTestModules := (⟨module, others⟩ : Declaration).overrides.readTestModules } := by
  simp only [ModulePatch.apply, Declaration.overrides_append, Overrides.append,
    DistinctList.union_union, ModulePatch.mergeTargets_mergeTargets]

end ModulePlan
