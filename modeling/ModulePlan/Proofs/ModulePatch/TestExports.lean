/-
Exports to the modules of the test dependencies.

A package that a patch file exports to the test modules is exported to all of them, behind its
declared targets, whichever of them the pass has left out of the modules added and read.  The
other packages are exported to their declared targets.
-/

import ModulePlan.Proofs.ModulePatch.Recovery
import ModulePlan.Proofs.TestModulePath.Takings

namespace ModulePlan

open Patch
open TestModulePath (testAnswers IsReadable)
open TestModulePath.Progress (exportName)

/-! ### What is to be exported -/

/-- The names under which the artifacts on the test module path are exported to, in their
order. -/
def DependencyView.exportNames (inspection : Inspection) (view : DependencyView)
    (runtime : Bool) : List String :=
  (view.applicable runtime).filterMap fun entry =>
    (view.describe inspection entry.2).toOption.map exportName

namespace Patch.Declaration

/-- The targets of a package's exports, where these are the names of the test dependencies. -/
def exportTargets (declaration : Declaration) (testNames : List String) (package : String) :
    List String :=
  let targets := targetsOf package (declaration.targets .addExports)
  if "TEST-MODULE-PATH" ∈ targets then (firstNames targets ++ testNames).eraseDups
  else firstNames targets

end Patch.Declaration

/-- The option for a package; without targets there is none. -/
def exportOption (module package : String) (targets : List String) : List Offer :=
  if targets = [] then []
  else [("--add-exports", module ++ "/" ++ package ++ "=" ++ Text.joinFields "," targets)]

/-- The export options of a patch file, its packages in the order in which they first occur. -/
def Patch.Declaration.exportOptions (declaration : Declaration) (testNames : List String) :
    List Offer :=
  ((declaration.targets .addExports).map Prod.fst).eraseDups.flatMap fun package =>
    exportOption declaration.module package (declaration.exportTargets testNames package)

/-! ### The test dependencies -/

theorem exportNames_of_readable {inspection : Inspection} {view : DependencyView}
    {runtime : Bool} (readable : IsReadable inspection view runtime) :
    (testAnswers inspection view runtime).map (fun answer => exportName answer.descriptor) =
      view.exportNames inspection runtime := by
  have answered := Survey.descriptors_of_take
    ((Survey.take_completes_iff inspection view (view.applicable runtime)).mpr readable)
  have named := congrArg (List.filterMap fun told => told.toOption.map exportName) answered
  rw [List.filterMap_map, List.filterMap_map] at named
  unfold DependencyView.exportNames
  exact (named.trans (congrFun List.filterMap_eq_map' _)).symm

theorem requests_exports {patch : ModulePatch} {package : String}
    (asked : package ∈ patch.exportsToTest) :
    (TestModulePath.Request.ofPatch patch).exports = true := by
  unfold TestModulePath.Request.ofPatch DistinctList.isEmpty
  rw [Bool.not_eq_true']
  exact List.isEmpty_eq_false_iff.mpr (List.ne_nil_of_mem asked)

/-- A pass into a patch with anything to export to them collects the names of all test
dependencies. -/
theorem testModules_expand {inspection : Inspection} {view : DependencyView} {runtime : Bool}
    {roots : RootModules} {patch : ModulePatch} (fresh : patch.testModules = .empty)
    {package : String} (asked : package ∈ patch.exportsToTest)
    (completes :
      (TestModulePath.expand inspection view runtime roots patch).report.result = .ok ()) :
    (TestModulePath.expand inspection view runtime roots patch).patch.testModules =
      .ofList (view.exportNames inspection runtime) := by
  have exports := requests_exports asked
  have readable : IsReadable inspection view runtime := by
    apply (TestModulePath.expand_completes_iff _ _ _ _ _).mp completes
    unfold TestModulePath.Request.isAny
    rw [exports, Bool.or_true]
  rw [TestModulePath.patch_expand, TestModulePath.Progress.testModules_run, exports, if_pos rfl,
    exportNames_of_readable readable]
  exact congrArg (fun start : NameSet => (view.exportNames inspection runtime).foldl .insert start)
    fresh

/-! ### What is written -/

private theorem union_ofList_names (names : NameSet) (others : List String) :
    (names.union (.ofList others)).toList = (names.toList ++ others).eraseDups := by
  have listed : names = .ofList names.toList := (DistinctList.empty_union names).symm
  rw [← DistinctList.toList_ofList, ← DistinctList.union_ofList, ← listed]

private theorem toList_exportTargets {patch : ModulePatch} {package : String}
    {testNames : List String}
    (taken : package ∈ patch.exportsToTest → patch.testModules = .ofList testNames)
    (targets : NameSet) :
    (patch.exportTargets package targets).toList =
      if package ∈ patch.exportsToTest then (targets.toList ++ testNames).eraseDups
      else targets.toList := by
  unfold ModulePatch.exportTargets
  by_cases asked : package ∈ patch.exportsToTest
  · rw [if_pos asked, if_pos asked, taken asked, union_ofList_names]
  · rw [if_neg asked, if_neg asked]

private theorem kept_offer_exports (module package : String) (names : NameSet) :
    kept (offer "add-exports" (some (module ++ "/" ++ package)) names) =
      exportOption module package names.toList := by
  unfold exportOption
  cases listed : names.toList with
  | nil =>
      rw [offer_eq_nil_iff.mpr listed, if_pos rfl]
      rfl
  | cons name rest =>
      rw [offer_some_of_mem (DistinctList.mem_of_toList_eq_cons listed), listed,
        if_neg (List.cons_ne_nil name rest)]
      exact kept_of_visible (visible_keyed _ _) _

private def isExport (pair : Offer) : Bool :=
  pair.1 = "--add-exports"

private theorem filter_offer_of_ne {option : String} (other : "--" ++ option ≠ "--add-exports")
    (key : Option String) (names : NameSet) : (offer option key names).filter isExport = [] := by
  rw [List.filter_eq_nil_iff]
  intro pair present
  unfold isExport
  rw [option_of_mem_offer present, decide_eq_true_eq]
  exact other

private theorem filter_offer_exports (key : Option String) (names : NameSet) :
    (offer "add-exports" key names).filter isExport = offer "add-exports" key names := by
  rw [List.filter_eq_self]
  intro pair present
  unfold isExport
  rw [option_of_mem_offer present]
  rfl

/-- The export options of a full patch are those of its packages. -/
private theorem exports_of_write (unit : CompilationUnit) {index : Nat} {module : String}
    (named : (unit.patch index).module = some module) (opens : Bool) :
    (unit.write opens (.full index)).1.filter isExport =
      (unit.patch index).addExports.entries.flatMap fun (package, targets) =>
        offer "add-exports" (some (module ++ "/" ++ package))
          ((unit.patch index).exportTargets package targets) := by
  have roots : unit.roots.offers.filter isExport = [] := by
    unfold RootModules.offers
    split
    · rfl
    · exact filter_offer_of_ne (by decide) _ _
  have limits := @filter_offer_of_ne "limit-modules" (by decide) none
  have reads := @filter_offer_of_ne "add-reads" (by decide) (some module)
  have opened : (if opens then (unit.patch index).addOpens.entries.flatMap
      fun (package, targets) => offer "add-opens" (some (module ++ "/" ++ package)) targets
      else []).filter isExport = [] := by
    split
    · rw [List.filter_flatMap, List.flatMap_eq_nil_iff]
      exact fun entry _ => filter_offer_of_ne (by decide) _ _
    · rfl
  unfold CompilationUnit.write ModulePatch.offers ModulePatch.namedOffers
  simp only [named, List.filter_append, roots, limits, reads, opened, List.nil_append,
    List.append_nil, List.filter_flatMap, filter_offer_exports]

/-! ### Patch files -/

theorem mem_exportsToTest_iff {overrides : Overrides} {declaration : Declaration}
    (follow : overrides.Follow declaration) (package : String) :
    package ∈ overrides.exportsToTest ↔
      "TEST-MODULE-PATH" ∈ targetsOf package (declaration.targets .addExports) := by
  rw [← DistinctList.mem_toList, follow.exportsToTest, List.mem_eraseDups]
  unfold targetsOf
  simp only [List.mem_map, List.mem_filter, List.mem_flatMap, decide_eq_true_eq]
  constructor
  · rintro ⟨pair, ⟨among, asked⟩, same⟩
    exact ⟨pair, ⟨among, same⟩, asked⟩
  · rintro ⟨pair, ⟨among, same⟩, asked⟩
    exact ⟨pair, ⟨among, asked⟩, same⟩

/-- The packages of a patch with its declared exports, and the test modules where they are
asked for, make the export options of the file. -/
private theorem kept_exports {patch : ModulePatch} {declaration : Declaration}
    (proper : declaration.IsProper) (declared : patch.addExports = declaration.overrides.addExports)
    (asks : patch.exportsToTest = declaration.overrides.exportsToTest) {testNames : List String}
    (taken : ∀ package ∈ patch.exportsToTest, patch.testModules = .ofList testNames) :
    kept (patch.addExports.entries.flatMap fun (package, targets) =>
      offer "add-exports" (some (declaration.module ++ "/" ++ package))
        (patch.exportTargets package targets)) = declaration.exportOptions testNames := by
  have follow := Overrides.follow_of_proper proper
  let option (entry : String × List String) : List Offer :=
    exportOption declaration.module entry.1
      (if entry.1 ∈ patch.exportsToTest then (entry.2 ++ testNames).eraseDups else entry.2)
  calc
    _ = patch.addExports.entries.flatMap fun entry => option (entry.1, entry.2.toList) := by
        unfold kept
        rw [List.filter_flatMap]
        apply List.flatMap_congr
        intro entry _
        have one := kept_offer_exports declaration.module entry.1
          (patch.exportTargets entry.1 entry.2)
        rw [toList_exportTargets (taken entry.1)] at one
        exact one
    _ = (firstTargets (declaration.targets .addExports)).flatMap option := by
        rw [← follow.addExports, ← declared, List.flatMap_map]
    _ = declaration.exportOptions testNames := by
        unfold firstTargets Declaration.exportOptions
        rw [List.flatMap_map]
        apply List.flatMap_congr
        intro package _
        have asked := mem_exportsToTest_iff follow package
        rw [← asks] at asked
        simp only [option, Declaration.exportTargets, asked]

/-- The fresh patch of a unit, with a patch file read and a pass made. -/
private theorem patch_of_expand (unit : CompilationUnit) (module : Option String)
    (declaration : Declaration) (inspection : Inspection) (view : DependencyView)
    (runtime : Bool) :
    let fresh := unit.create module
    let loaded := fresh.2.apply fresh.1.index declaration
    let pass := TestModulePath.expand inspection view runtime loaded.roots
      ((ModulePatch.create module).apply declaration)
    (loaded.expand inspection view runtime fresh.1.index).report = pass.report ∧
      (loaded.expand inspection view runtime fresh.1.index).unit.patch fresh.1.index =
        pass.patch := by
  intro fresh loaded pass
  have patches : loaded.patches =
      unit.patches ++ [(ModulePatch.create module).apply declaration] :=
    CompilationUnit.modify_at_length unit.patches [] (.create module) (·.apply declaration)
  have own : loaded.patch fresh.1.index = (ModulePatch.create module).apply declaration :=
    CompilationUnit.patch_at_length patches
  have expanded : (loaded.expand inspection view runtime fresh.1.index).unit.patches =
      unit.patches ++ [pass.patch] := by
    unfold CompilationUnit.expand CompilationUnit.modify
    rw [own, patches]
    exact CompilationUnit.modify_at_length unit.patches [] _ _
  constructor
  · unfold CompilationUnit.expand
    rw [own]
  · exact CompilationUnit.patch_at_length expanded

/-- What a patch file exports is written as it says, with the modules of all test dependencies
for the word that stands for them, also of those that the pass has passed over. -/
theorem exports_of_load {text : String} {declaration : Declaration}
    (read : Declaration.ofText text = .ok declaration) (unit : CompilationUnit)
    (module : Option String) (inspection : Inspection) (view : DependencyView)
    (runtime opens : Bool) :
    let fresh := unit.create module
    ∃ loaded, fresh.2.load fresh.1.index text = .ok loaded ∧
      let expansion := loaded.expand inspection view runtime fresh.1.index
      (IsReadable inspection view runtime → expansion.report.result = .ok ()) ∧
      (expansion.report.result = .ok () →
        (CompilerOptions.addAll {} (expansion.unit.write opens fresh.1).1).pairs.filter
            (·.1 = "--add-exports") =
          declaration.exportOptions (view.exportNames inspection runtime)) := by
  intro fresh
  obtain ⟨_, proper, _⟩ := Declaration.ofText_eq_ok.mp read
  let loaded := fresh.2.apply fresh.1.index declaration
  have accepted : fresh.2.load fresh.1.index text = .ok loaded := by
    rw [CompilationUnit.load_eq, read]
    rfl
  refine ⟨loaded, accepted, ?_⟩
  intro expansion
  obtain ⟨report, own⟩ := patch_of_expand unit module declaration inspection view runtime
  rw [report]
  refine ⟨?_, ?_⟩
  · intro readable
    exact (TestModulePath.expand_completes_iff _ _ _ _ _).mpr fun _ => readable
  intro completes
  have start := apply_create module declaration
  let pass := TestModulePath.expand inspection view runtime loaded.roots
    ((ModulePatch.create module).apply declaration)
  have changed : pass.patch = { (ModulePatch.create module).apply declaration with
      addReads := pass.patch.addReads, testModules := pass.patch.testModules } :=
    (TestModulePath.expand_isExplained _ _ _ _ _).otherFields
  have named : (expansion.unit.patch fresh.1.index).module = some declaration.module := by
    rw [own, changed]
    rfl
  have declared : pass.patch.addExports = declaration.overrides.addExports := by
    rw [changed, start]
  have asks : pass.patch.exportsToTest = declaration.overrides.exportsToTest := by
    rw [changed, start]
  have taken : ∀ package ∈ pass.patch.exportsToTest,
      pass.patch.testModules = .ofList (view.exportNames inspection runtime) := by
    intro package asked
    rw [changed] at asked
    exact testModules_expand (by rw [start]) asked completes
  calc
    _ = kept ((expansion.unit.write opens (.full fresh.1.index)).1.filter isExport) := by
        rw [CompilerOptions.pairs_addAll]
        exact List.filter_comm _ _ _
    _ = declaration.exportOptions (view.exportNames inspection runtime) := by
        rw [exports_of_write expansion.unit named opens, own]
        exact kept_exports proper declared asks taken

def exportingText : String :=
  "patch-module app \x7b add-modules TEST-MODULE-PATH; add-exports p to base, TEST-MODULE-PATH; " ++
    "add-exports q to tool; add-exports r to TEST-MODULE-PATH; \x7d"

private theorem read_exportingText :
    Declaration.ofText exportingText = .ok ⟨"app", [.addModules [testModulePath],
      .addExports "p" ["base", testModulePath], .addExports "q" ["tool"],
      .addExports "r" [testModulePath]]⟩ :=
  ok_of_toOption (by decide +kernel)

theorem exports_of_load_passedOver :
    let fresh := ({} : CompilationUnit).create none
    ∃ loaded, fresh.2.load fresh.1.index exportingText = .ok loaded ∧
      let expansion := loaded.expand TestModulePath.noInspection TestModulePath.mixedView false
        fresh.1.index
      expansion.report.result = .ok () ∧ expansion.unit.roots.names.toList = ["junit"] ∧
        (CompilerOptions.addAll {} (expansion.unit.write true fresh.1).1).pairs.filter
            (·.1 = "--add-exports") =
          [("--add-exports", "app/p=base,junit,ALL-UNNAMED"), ("--add-exports", "app/q=tool"),
            ("--add-exports", "app/r=junit,ALL-UNNAMED,base")] := by
  intro fresh
  obtain ⟨loaded, accepted, _, written⟩ := exports_of_load read_exportingText {} none
    TestModulePath.noInspection TestModulePath.mixedView false true
  refine ⟨loaded, accepted, ?_⟩
  rw [CompilationUnit.load_eq, read_exportingText] at accepted
  cases accepted
  intro expansion
  have completes : expansion.report.result = .ok () := ok_of_toOption (by decide +kernel)
  exact ⟨completes, by decide +kernel, (written completes).trans (by decide +kernel)⟩

end ModulePlan
