/-
The modules that a plan adds to the compilation.

Patch files list modules while they are loaded, and the test dependencies add more while they
are taken in; both go to the modules of the compilation.  Only then are the options written,
and the first patch of all is a full one: it carries the modules, and none of them is lost.
-/

import Mathlib.Data.List.Count
import Mathlib.Data.List.Nodup
import ModulePlan.Proofs.Patch.ProperNames
import ModulePlan.Proofs.Plan.Making
import ModulePlan.Proofs.TestModulePath.Additions

namespace ModulePlan

namespace TestModulePath

/-- The modules that passes into some patches, one after another, add. -/
def additionsAll (answers : List Answer) (roots : RootModules) : List ModulePatch → List String
  | [] => []
  | patch :: rest =>
    additions answers roots patch ++ additionsAll answers (absorb answers roots patch).1 rest

theorem roots_absorb (answers : List Answer) (roots : RootModules) (patch : ModulePatch) :
    (absorb answers roots patch).1 =
      { roots with names := (additions answers roots patch).foldl .insert roots.names } := by
  unfold absorb Progress.finish
  rw [Progress.names_run]
  rfl

theorem roots_absorbAll (answers : List Answer) (roots : RootModules)
    (patches : List ModulePatch) :
    (absorbAll answers roots patches).1 =
      { roots with names := (additionsAll answers roots patches).foldl .insert roots.names } := by
  induction patches generalizing roots with
  | nil => rfl
  | cons patch rest ih =>
      have later := ih (absorb answers roots patch).1
      unfold absorbAll additionsAll
      simp only [later, List.foldl_append]
      rw [roots_absorb]

theorem answer_of_mem_additionsAll {answers : List Answer} {roots : RootModules}
    {patches : List ModulePatch} {name : String}
    (present : name ∈ additionsAll answers roots patches) :
    ∃ answer ∈ answers, ∃ module, answer.descriptor = some module ∧ module.name = name := by
  induction patches generalizing roots with
  | nil => cases present
  | cons patch rest ih =>
      rcases List.mem_append.mp present with here | later
      · exact Progress.module_of_mem_additions here
      · exact ih later

end TestModulePath

namespace Plan

open TestModulePath

/-! ### The modules of the compilation -/

/-- The modules that the patch file of a module lists to be added. -/
def Member.listed (member : Member) : List String :=
  match member.declaration with
  | none => []
  | some declaration => (declaration.names .addModules).filter (· ≠ testModulePath)

/-- The modules that the test dependencies add to full patches. -/
def classified (host : Host) (view : Option DependencyView) (settings : PlanSettings)
    (members : List Member) : List String :=
  additionsAll (takenAnswers host view settings) (addedRoots {} members)
    ((owners false members).map Member.patch)

/-- The modules of patch files and then those of test dependencies, each where it first
occurs. -/
def rootNames (host : Host) (view : Option DependencyView) (settings : PlanSettings)
    (members : List Member) : List String :=
  (members.flatMap Member.listed ++ classified host view settings members).eraseDups

theorem isProper_of_memberOf {host : Host} {patchFile name : String} {roots : List FilePath}
    {member : Member} (made : memberOf host patchFile name roots = .ok member)
    {declaration : Patch.Declaration} (declared : member.declaration = some declaration) :
    declaration.IsProper := by
  unfold memberOf at made
  obtain ⟨found, _, made⟩ := exceptBind_eq_ok.mp made
  cases found with
  | none =>
      cases made
      cases declared
  | some path =>
      obtain ⟨other, read, made⟩ := exceptBind_eq_ok.mp made
      cases made
      cases declared
      unfold declarationAt at read
      obtain ⟨text, _, parsed⟩ := exceptBind_eq_ok.mp read
      cases result : Patch.Declaration.ofText text with
      | error fault =>
          rw [result] at parsed
          cases parsed
      | ok declaration =>
          rw [result] at parsed
          cases parsed
          exact (Patch.Declaration.ofText_eq_ok.mp result).2.1

variable {host : Host} {directories : List SourceDirectory} {view : Option DependencyView}
  {settings : PlanSettings} {plan : Plan} {members : List Member}

theorem Parts.isProper (parts : Parts host directories view settings plan members)
    {member : Member} (present : member ∈ members) {declaration : Patch.Declaration}
    (declared : member.declaration = some declaration) : declaration.IsProper := by
  obtain ⟨entry, _, made⟩ := (made_of_mapM parts.found).1 member present
  exact isProper_of_memberOf made declared

private theorem addAll_listed {member : Member}
    (proper : ∀ declaration, member.declaration = some declaration → declaration.IsProper)
    (roots : RootModules) :
    roots.addAll member.addedModules =
      { roots with names := member.listed.foldl .insert roots.names } := by
  unfold Member.addedModules Member.listed RootModules.addAll
  cases declared : member.declaration with
  | none => rfl
  | some declaration =>
      have follows := Patch.Overrides.follow_of_proper (proper declaration declared)
      have names : declaration.overrides.addModules =
          .ofList ((declaration.names .addModules).filter (· ≠ testModulePath)) := by
        apply DistinctList.eq_of_toList
        rw [DistinctList.toList_ofList, follows.addModules]
        rfl
      have merged := DistinctList.foldl_insert_toList_ofList roots.names
        ((declaration.names .addModules).filter (· ≠ testModulePath))
      rw [← names] at merged
      exact congrArg (fun names => { roots with names := names }) merged

theorem addedRoots_eq
    (proper : ∀ member ∈ members, ∀ declaration, member.declaration = some declaration →
      declaration.IsProper) (roots : RootModules) :
    addedRoots roots members =
      { roots with
        names := (members.flatMap Member.listed).foldl .insert roots.names } := by
  induction members generalizing roots with
  | nil => rfl
  | cons member rest ih =>
      obtain ⟨here, later⟩ := List.forall_mem_cons.mp proper
      have others := ih later (roots.addAll member.addedModules)
      unfold addedRoots at others ⊢
      rw [List.foldl_cons, others, addAll_listed here, List.flatMap_cons, List.foldl_append]

/-- Before the options are written, no module that was listed or added is lost. -/
theorem roots_takenUnit (parts : Parts host directories view settings plan members) :
    (takenUnit host view settings members).roots =
      { names := .ofList (members.flatMap Member.listed ++
          classified host view settings members)
        written := false } := by
  have proper : ∀ member ∈ members, ∀ declaration, member.declaration = some declaration →
      declaration.IsProper :=
    fun member present declaration declared => parts.isProper present declared
  have added := addedRoots_eq proper {}
  change (absorbAll _ _ _).1 = _
  rw [roots_absorbAll, DistinctList.ofList_append]
  unfold classified
  rw [added]
  rfl

theorem isListable_of_listed (parts : Parts host directories view settings plan members)
    {name : String} (present : name ∈ members.flatMap Member.listed) : IsListable name := by
  obtain ⟨member, among, listed⟩ := List.mem_flatMap.mp present
  unfold Member.listed at listed
  cases declared : member.declaration with
  | none =>
      rw [declared] at listed
      cases listed
  | some declaration =>
      rw [declared] at listed
      exact Patch.isListable_of_added (parts.isProper among declared)
        (List.mem_eraseDups.mpr listed)

theorem artifact_of_classified {name : String}
    (present : name ∈ classified host view settings members) :
    ∃ asked ∈ view, ∃ module,
      asked.IsTestArtifact (Artifact.describe host) settings.runtime (some module) ∧
        module.name = name := by
  obtain ⟨answer, given, module, described, named⟩ := answer_of_mem_additionsAll present
  obtain ⟨asked, known, artifact⟩ := artifact_of_takenAnswers given
  rw [described] at artifact
  exact ⟨asked, known, module, artifact, named⟩

/-! ### The options -/

/-- The options of a plan behind the one for the modules of the compilation. -/
def laterPairs (settings : PlanSettings) (members : List Member) (unit : CompilationUnit) :
    List Offer :=
  kept ((refs 0 none members).flatMap fun (ref, _) => unit.refOffers settings.test ref) ++
    if settings.test then
      kept ((refs 0 none members).flatMap fun (ref, roots) =>
        patchModuleOffer (unit.module ref) roots)
    else []

private theorem writeAll_takenUnit (host : Host) (view : Option DependencyView)
    (settings : PlanSettings) (members : List Member) :
    let unit := takenUnit host view settings members
    let after := unit.writeAll settings.test ((refs 0 none members).map Prod.fst)
    (after.1 = unit.roots.offers ++
        (refs 0 none members).flatMap fun (ref, _) => unit.refOffers settings.test ref) ∧
      (unit.roots.written = false → after.2.roots.names = .empty) := by
  intro unit after
  cases members with
  | nil => exact ⟨rfl, fun _ => rfl⟩
  | cons member rest =>
      have written : after = _ := writeAll_refs unit settings.test member rest
      rw [written]
      refine ⟨rfl, ?_⟩
      intro unwritten
      change unit.roots.afterWriting.names = .empty
      unfold RootModules.afterWriting
      rw [if_neg (by rw [unwritten]; exact Bool.false_ne_true)]

private theorem pairs_optionsOf (settings : PlanSettings)
    (patches : List (PatchRef × List FilePath)) (unit : CompilationUnit) :
    (optionsOf settings patches unit).pairs =
      kept (unit.writeAll settings.test (patches.map Prod.fst)).1 ++
        if settings.test then
          kept (patches.flatMap fun (ref, roots) =>
            patchModuleOffer
              ((unit.writeAll settings.test (patches.map Prod.fst)).2.module ref) roots)
        else [] := by
  unfold optionsOf
  simp only
  rw [← patchModuleOffers_eq]
  split
  · rw [CompilerOptions.pairs_addAll, CompilerOptions.pairs_addAll, List.nil_append]
  · rw [CompilerOptions.pairs_addAll, List.nil_append, List.append_nil]

/-- The option for the modules of the compilation comes first. -/
theorem Parts.pairs (parts : Parts host directories view settings plan members) :
    plan.options.pairs =
      kept (takenUnit host view settings members).roots.offers ++
        laterPairs settings members (takenUnit host view settings members) := by
  have offers := (writeAll_takenUnit host view settings members).1
  have modules := CompilationUnit.module_congr (CompilationUnit.patches_writeAll
    (takenUnit host view settings members) settings.test ((refs 0 none members).map Prod.fst))
  rw [parts.options, pairs_optionsOf, offers, modules, kept_append, List.append_assoc]
  rfl

/-- Each option comes from the modules of the compilation, from what is offered of a patch, or
from the roots of a module. -/
theorem Parts.origin_of_mem_pairs (parts : Parts host directories view settings plan members)
    {pair : Offer} (present : pair ∈ plan.options.pairs) :
    pair ∈ (takenUnit host view settings members).roots.offers ∨
    ∃ entry ∈ refs 0 none members,
      pair ∈ (takenUnit host view settings members).refOffers settings.test entry.1 ∨
      pair ∈ patchModuleOffer ((takenUnit host view settings members).module entry.1) entry.2 := by
  rw [parts.pairs] at present
  rcases List.mem_append.mp present with roots | later
  · exact Or.inl (mem_kept.mp roots).1
  · right
    rcases List.mem_append.mp later with own | patched
    · obtain ⟨entry, among, offered⟩ := List.mem_flatMap.mp (mem_kept.mp own).1
      exact ⟨entry, among, Or.inl offered⟩
    · split at patched
      · obtain ⟨entry, among, offered⟩ := List.mem_flatMap.mp (mem_kept.mp patched).1
        exact ⟨entry, among, Or.inr offered⟩
      · cases patched

theorem option_of_mem_patchModuleOffer {module : Option String} {roots : List FilePath}
    {pair : Offer} (present : pair ∈ patchModuleOffer module roots) :
    pair.1 = "--patch-module" := by
  cases module with
  | none => cases present
  | some name =>
      unfold patchModuleOffer at present
      simp only at present
      split at present
      · cases present
      · rw [List.mem_singleton.mp present]

theorem option_of_mem_laterPairs {unit : CompilationUnit} {pair : Offer}
    (present : pair ∈ laterPairs settings members unit) : pair.1 ≠ "--add-modules" := by
  rcases List.mem_append.mp present with own | patched
  · obtain ⟨ref, _, offered⟩ := List.mem_flatMap.mp (mem_kept.mp own).1
    exact ne_of_mem_of_not_mem (CompilationUnit.option_of_mem_refOffers offered) (by decide)
  · split at patched
    · obtain ⟨ref, _, offered⟩ := List.mem_flatMap.mp (mem_kept.mp patched).1
      rw [option_of_mem_patchModuleOffer offered]
      decide
    · cases patched

private theorem isListable_of_rootName
    (parts : Parts host directories view settings plan members)
    (listable : ∀ asked ∈ view, ∀ module,
      asked.IsTestArtifact (Artifact.describe host) settings.runtime (some module) →
        IsListable module.name)
    {name : String} (present : name ∈ rootNames host view settings members) :
    IsListable name := by
  rcases List.mem_append.mp (List.mem_eraseDups.mp present) with listed | added
  · exact isListable_of_listed parts listed
  · obtain ⟨asked, given, module, artifact, rfl⟩ := artifact_of_classified added
    exact listable asked given module artifact

/-- Names that are listed in one value are found in it again, each as often as it was listed. -/
private theorem count_fields_joinFields {names : List String}
    (listable : ∀ name ∈ names, IsListable name) {name : String} (present : name ∈ names) :
    (Text.fields ',' (Text.joinFields "," names).toList).count name.toList =
      names.count name := by
  have cut : Text.fields ',' (Text.joinFields "," names).toList = names.map String.toList :=
    Text.fields_joinFields rfl (List.ne_nil_of_mem present)
      fun part given => (listable part given).whole
  rw [cut, List.count_map_of_injective _ _ fun _ _ same => String.toList_inj.mp same]

/-- No module is lost: what patch files list and what the test dependencies add is all in the
first option, each once and in the order in which it came in, and nothing is left to be
written.  Without such modules there is no such option. -/
theorem root_modules_of_make
    (made : (make host directories view settings).result = .ok plan)
    (listable : ∀ asked ∈ view, ∀ module,
      asked.IsTestArtifact (Artifact.describe host) settings.runtime (some module) →
        IsListable module.name) :
    ∃ members,
      (moduleRoots settings.defaultModule directories).entries.mapM
        (fun entry => memberOf host settings.patchFile entry.1 entry.2.toList) = .ok members ∧
      (∃ others, plan.options.pairs = rootOption (rootNames host view settings members) ++ others ∧
        ∀ pair ∈ others, pair.1 ≠ "--add-modules") ∧
      ((∃ value, ("--add-modules", value) ∈ plan.options.pairs) ↔
        ∃ name, name ∈ members.flatMap Member.listed ++ classified host view settings members) ∧
      (∀ name ∈ members.flatMap Member.listed ++ classified host view settings members,
        (Text.fields ',' (Text.joinFields "," (rootNames host view settings members)).toList).count
          name.toList = 1) ∧
      plan.unit.roots.names = .empty := by
  obtain ⟨members, parts⟩ := parts_of_make made
  let names := rootNames host view settings members
  let others := laterPairs settings members (takenUnit host view settings members)
  have mem_names : ∀ {name}, name ∈ names ↔
      name ∈ members.flatMap Member.listed ++ classified host view settings members :=
    List.mem_eraseDups
  have listableNames : ∀ name ∈ names, IsListable name :=
    fun name present => isListable_of_rootName parts listable present
  have roots := roots_takenUnit parts
  have same : (takenUnit host view settings members).roots.names.toList = names := by
    rw [roots]
    exact DistinctList.toList_ofList _
  have pairs : plan.options.pairs = rootOption names ++ others := by
    have visible : ∀ name ∈ (takenUnit host view settings members).roots.names,
        Text.isBlankText name = false := by
      intro name present
      rw [← DistinctList.mem_toList, same] at present
      exact (listableNames name present).visible
    rw [parts.pairs, ← same, ← kept_offer_roots visible, roots]
    rfl
  have other : ∀ pair ∈ others, pair.1 ≠ "--add-modules" :=
    fun pair present => option_of_mem_laterPairs present
  refine ⟨members, parts.found, ⟨others, pairs, other⟩, ?_, ?_, ?_⟩
  · simp only [pairs, ← mem_names]
    rw [← exists_mem_rootOption_iff]
    constructor
    · intro given
      rcases given with ⟨value, present⟩
      rcases List.mem_append.mp present with first | later
      · exact ⟨value, first⟩
      · exact absurd rfl (other _ later)
    · intro given
      rcases given with ⟨value, first⟩
      exact ⟨value, List.mem_append_left _ first⟩
  · intro name present
    have among : name ∈ names := mem_names.mpr present
    have distinct : names.Nodup := by
      rw [← same]
      exact DistinctList.nodup _
    rw [count_fields_joinFields listableNames among]
    exact List.count_eq_one_of_mem distinct among
  · rw [parts.unit]
    exact (writeAll_takenUnit host view settings members).2 (by rw [roots])

/-- A module whose patch file lists another one, and a module without a patch file. -/
def listingHost : Host where
  files := ⟨.ofList [(["app", "patch"], .file (.bytes
    "patch-module app \x7b add-modules listed, TEST-MODULE-PATH; \x7d".toUTF8.toList)),
    (["lib"], .directory)]⟩

def listingDirectories : List SourceDirectory :=
  [.create ⟨.relative, ["app"]⟩ ⟨.relative, ["out"]⟩ (some "app") none .source,
    .create ⟨.relative, ["lib"]⟩ ⟨.relative, ["out"]⟩ (some "lib") none .source]

def listingView : DependencyView :=
  DependencyView.add {} ⟨"dep", .test⟩ ⟨.absolute, ["dep.jar"]⟩ (some { name := "dep" }) false

def listingSettings : PlanSettings where
  test := true
  patchFile := "patch"

private theorem listing_options :
    (make listingHost listingDirectories (some listingView) listingSettings).result.toOption.map
        (·.options.pairs) =
      some [("--add-modules", "listed,dep"), ("--add-reads", "lib=dep"),
        ("--patch-module", "app=app"), ("--patch-module", "lib=lib")] := by
  decide +kernel

theorem root_modules_of_make_listing : ∃ plan members others,
    (make listingHost listingDirectories (some listingView) listingSettings).result = .ok plan ∧
    plan.options.pairs =
      rootOption (rootNames listingHost (some listingView) listingSettings members) ++ others ∧
    plan.options.pairs.head? = some ("--add-modules", "listed,dep") ∧
    plan.unit.roots.names = .empty := by
  have listable : ∀ asked ∈ some listingView, ∀ module,
      asked.IsTestArtifact (Artifact.describe listingHost) listingSettings.runtime
        (some module) → IsListable module.name := by
    intro asked given module artifact
    obtain rfl := Option.mem_some_iff.mp given
    obtain ⟨entry, present, described⟩ := artifact
    obtain rfl := List.mem_singleton.mp present
    cases described
    exact ⟨by decide, by decide⟩
  have options := listing_options
  cases made : (make listingHost listingDirectories (some listingView) listingSettings).result with
  | error fault =>
      rw [made] at options
      cases options
  | ok plan =>
      rw [made] at options
      obtain ⟨members, _, ⟨others, pairs, _⟩, _, _, empty⟩ := root_modules_of_make made listable
      have first : plan.options.pairs.head? = _ := congrArg List.head? (Option.some.inj options)
      exact ⟨plan, members, others, rfl, pairs, first, empty⟩

end Plan

end ModulePlan
