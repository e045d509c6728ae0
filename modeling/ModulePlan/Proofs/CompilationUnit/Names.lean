/-
The names in patches.

What the default name of a module, a patch file and the test dependencies put into a patch are
names.  Every change of a patch keeps it so; the word for the test dependencies never gets in.
-/

import ModulePlan.Proofs.CompilationUnit
import ModulePlan.Proofs.Patch.ProperNames

namespace ModulePlan

/-! ### Patches -/

namespace ModulePatch

theorem areTargets_mergeTargets {special : List String} {targets others : Targets}
    (here : AreTargets special targets) (there : AreTargets special others) :
    AreTargets special (mergeTargets targets others) := by
  apply List.foldlRecOn _ _ here
  intro merged sound entry present
  exact areTargets_addTargets sound (there entry present).1 (there entry present).2

/-- What a patch lists are names, whatever module it is for. -/
structure HoldsNames (patch : ModulePatch) : Prop where
  limitModules : AreNames [] patch.limitModules
  addReads : AreNames [allUnnamed] patch.addReads
  addExports : AreTargets [allUnnamed] patch.addExports
  addOpens : AreTargets [] patch.addOpens
  testModules : AreNames [allUnnamed] patch.testModules

/-- The module of a patch has a valid name, if there is one, and what is listed are names. -/
structure IsWellNamed (patch : ModulePatch) : Prop extends patch.HoldsNames where
  module : ∀ module, patch.module = some module → isValidName module = true

theorem holdsNames_create (module : Option String) : (ModulePatch.create module).HoldsNames where
  limitModules := areNames_empty
  addReads := areNames_empty
  addExports := areTargets_empty
  addOpens := areTargets_empty
  testModules := areNames_empty

/-- A blank name is none. -/
theorem isWellNamed_create {module : Option String}
    (named : ∀ name ∈ module, Text.isBlankText name = true ∨ isValidName name = true) :
    (ModulePatch.create module).IsWellNamed where
  toHoldsNames := holdsNames_create module
  module := by
    intro name kept
    obtain ⟨given, visible⟩ := Option.filter_eq_some_iff.mp kept
    rcases named name given with blank | valid
    · rw [blank] at visible
      cases visible
    · exact valid

/-- A patch file names the module anew and adds its names to those that are there. -/
theorem isWellNamed_apply {patch : ModulePatch} (sound : patch.HoldsNames)
    {declaration : Patch.Declaration} (proper : declaration.IsProper) :
    (patch.apply declaration).IsWellNamed := by
  have said := Patch.Overrides.areWellNamed_of_proper proper
  exact {
    limitModules := areNames_union sound.limitModules said.limitModules
    addReads := areNames_union sound.addReads (said.addReads.mono (List.nil_subset _))
    addExports := areTargets_mergeTargets sound.addExports said.addExports
    addOpens := areTargets_mergeTargets sound.addOpens said.addOpens
    testModules := sound.testModules
    module := by
      intro name named
      cases named
      exact proper.1 }

/-- Also with the modules of the test dependencies, the targets of a package are names. -/
theorem areNames_exportTargets {patch : ModulePatch} (sound : patch.HoldsNames)
    {entry : String × NameSet} (present : entry ∈ patch.addExports.entries) :
    AreNames [allUnnamed] (patch.exportTargets entry.1 entry.2) := by
  have own := (sound.addExports entry present).2
  unfold exportTargets
  split
  · exact areNames_union own sound.testModules
  · exact own

end ModulePatch

/-! ### Passes of test dependencies -/

namespace TestModulePath

/-- The artifacts that are modules have valid names. -/
def HaveNames (answers : List Answer) : Prop :=
  ∀ answer ∈ answers, ∀ module, answer.descriptor = some module →
    isValidName module.name = true

variable {answers : List Answer}

private theorem isName_exportName (named : HaveNames answers) {answer : Answer}
    (present : answer ∈ answers) :
    isValidName (Progress.exportName answer.descriptor) = true ∨
      Progress.exportName answer.descriptor ∈ [allUnnamed] := by
  cases described : answer.descriptor with
  | none => exact Or.inr List.mem_cons_self
  | some module => exact Or.inl (named answer present module described)

theorem areNames_absorb_roots (named : HaveNames answers) {roots : RootModules}
    (sound : AreNames [allModulePath] roots.names) (patch : ModulePatch) :
    AreNames [allModulePath] (absorb answers roots patch).1.names := by
  intro name present
  rcases Progress.origin_of_mem_names_run present with before | ⟨_, answer, given, module, here⟩
  · exact sound name before
  · obtain ⟨described, rfl⟩ := here
    exact Or.inl (named answer given module described)

theorem isWellNamed_absorb (named : HaveNames answers) (roots : RootModules)
    {patch : ModulePatch} (sound : patch.IsWellNamed) :
    (absorb answers roots patch).2.IsWellNamed :=
  { sound with
    addReads := by
      intro name present
      rcases Progress.origin_of_mem_reads_run present with before | ⟨_, answer, given, rfl⟩
      · exact sound.addReads name before
      · exact isName_exportName named given
    testModules := by
      intro name present
      rcases Progress.origin_of_mem_testModules_run present with before | ⟨_, answer, given, rfl⟩
      · exact sound.testModules name before
      · exact isName_exportName named given }

end TestModulePath

end ModulePlan
