/-
The forms of the options of a plan.

Where the modules and the test dependencies have proper names, every option that is written has
the form that the compiler expects: behind the key of the option stand names with commas between
them, and only words that the compiler knows.
-/

import ModulePlan.Proofs.CompilationUnit.Names
import ModulePlan.Proofs.Plan.RootModules

namespace ModulePlan

/-! ### Options of a patch -/

/-- Names with commas between them: at least one, none of them twice, and each valid or a special
word.  The word for the test dependencies is not among them. -/
def IsNameList (special : List String) (text : String) : Prop :=
  ∃ names : List String, text = Text.joinFields "," names ∧ names ≠ [] ∧ names.Nodup ∧
    testModulePath ∉ names ∧ ∀ name ∈ names, isValidName name = true ∨ name ∈ special

/-- The forms of the options of a patch: two that are for the whole compilation, and those for
the module of the patch, if it has one.  Only known roots are patched into a module. -/
inductive IsWellFormed (known : List FilePath) : Option String → Offer → Prop where
  | addModules {module : Option String} {names : String}
      (listed : IsNameList [allModulePath] names) :
      IsWellFormed known module ("--add-modules", names)
  | limitModules {module : Option String} {names : String} (listed : IsNameList [] names) :
      IsWellFormed known module ("--limit-modules", names)
  | addReads {module names : String} (valid : isValidName module = true)
      (listed : IsNameList [allUnnamed] names) :
      IsWellFormed known (some module) ("--add-reads", module ++ "=" ++ names)
  | addExports {module package names : String} (valid : isValidName module = true)
      (packageValid : isValidName package = true) (listed : IsNameList [allUnnamed] names) :
      IsWellFormed known (some module)
        ("--add-exports", module ++ "/" ++ package ++ "=" ++ names)
  | addOpens {module package names : String} (valid : isValidName module = true)
      (packageValid : isValidName package = true) (listed : IsNameList [] names) :
      IsWellFormed known (some module) ("--add-opens", module ++ "/" ++ package ++ "=" ++ names)
  | patchModule {module : String} {roots : List FilePath} (valid : isValidName module = true)
      (rooted : roots ≠ []) (inside : roots ⊆ known) :
      IsWellFormed known (some module)
        ("--patch-module", module ++ "=" ++ Text.joinFields ":" (roots.map (·.toText)))

theorem isNameList_of_names {special : List String} {names : NameSet}
    (named : AreNames special names) (plain : testModulePath ∉ special)
    (some : ∃ name, name ∈ names) : IsNameList special (Text.joinFields "," names.toList) := by
  obtain ⟨name, present⟩ := some
  refine ⟨names.toList, rfl, List.ne_nil_of_mem present, names.nodup, ?_, named⟩
  intro word
  rcases named testModulePath word with valid | listed
  · exact absurd valid (by decide)
  · exact plain listed

variable {known : List FilePath}

theorem isWellFormed_rootOffers {roots : RootModules}
    (named : AreNames [allModulePath] roots.names) {pair : Offer} (present : pair ∈ roots.offers)
    (module : Option String) : IsWellFormed known module pair := by
  obtain ⟨some, rfl⟩ := mem_offer.mp (RootModules.mem_offers present)
  exact .addModules (isNameList_of_names named (by decide) some)

/-- What is offered of a patch that holds names is well formed. -/
theorem isWellFormed_offers {patch : ModulePatch} (sound : patch.IsWellNamed) {opens : Bool}
    {pair : Offer} (present : pair ∈ patch.offers opens) :
    IsWellFormed known patch.module pair := by
  rcases ModulePatch.mem_offers present with limited | ⟨module, named, own⟩
  · obtain ⟨some, rfl⟩ := mem_offer.mp limited
    exact .limitModules (isNameList_of_names sound.limitModules (by decide) some)
  · have valid := sound.module module named
    rw [named]
    rcases own with read | ⟨entry, among, exported⟩ | ⟨entry, among, opened⟩
    · obtain ⟨some, rfl⟩ := mem_offer.mp read
      exact .addReads valid (isNameList_of_names sound.addReads (by decide) some)
    · obtain ⟨some, rfl⟩ := mem_offer.mp exported
      have targets := ModulePatch.areNames_exportTargets sound.toHoldsNames among
      exact .addExports valid (sound.addExports entry among).1
        (isNameList_of_names targets (by decide) some)
    · obtain ⟨some, rfl⟩ := mem_offer.mp opened
      obtain ⟨packageValid, targets⟩ := sound.addOpens entry among
      exact .addOpens valid packageValid (isNameList_of_names targets (by decide) some)

namespace Plan

open TestModulePath

/-! ### The roots of the modules -/

variable {host : Host} {directories : List SourceDirectory} {view : Option DependencyView}
  {settings : PlanSettings} {plan : Plan} {members : List Member}

/-- A module is that of a directory, and its roots are those of its directories. -/
theorem mem_moduleRoots {defaultModule : Option String}
    {entry : String × DistinctList FilePath}
    (present : entry ∈ (moduleRoots defaultModule directories).entries) :
    (∃ directory ∈ directories, effectiveModule defaultModule directory = entry.1) ∧
      ∀ root, root ∈ entry.2 ↔ ∃ directory ∈ directories,
        effectiveModule defaultModule directory = entry.1 ∧ directory.root = root := by
  have listed := List.mem_map_of_mem (f := fun entry => (entry.1, DistinctList.toList entry.2))
    present
  rw [entries_moduleRoots] at listed
  obtain ⟨name, named, same⟩ := List.mem_map.mp listed
  obtain ⟨rfl, roots⟩ := Prod.mk.inj same
  refine ⟨List.mem_map.mp (List.mem_eraseDups.mp named), ?_⟩
  intro root
  rw [← DistinctList.mem_toList, ← roots]
  unfold rootsOf
  simp only [List.mem_eraseDups, List.mem_map, List.mem_filter, decide_eq_true_eq, and_assoc]

theorem Parts.module_of_member (parts : Parts host directories view settings plan members)
    {member : Member} (present : member ∈ members) :
    (∃ directory ∈ directories,
        effectiveModule settings.defaultModule directory = member.name) ∧
      member.roots ≠ [] ∧ member.roots ⊆ directories.map (·.root) := by
  obtain ⟨entry, among, made⟩ := (made_of_mapM parts.found).1 member present
  obtain ⟨named, rooted⟩ := made_of_memberOf made
  obtain ⟨⟨directory, given, same⟩, roots⟩ := mem_moduleRoots among
  rw [named, rooted]
  refine ⟨⟨directory, given, same⟩, ?_, ?_⟩
  · exact List.ne_nil_of_mem ((roots directory.root).mpr ⟨directory, given, same, rfl⟩)
  · intro root inside
    obtain ⟨other, otherGiven, _, rfl⟩ := (roots root).mp inside
    exact List.mem_map_of_mem otherGiven

/-! ### Names -/

/-- The modules of the directories have valid names, or none. -/
def HaveProperModules (settings : PlanSettings) (directories : List SourceDirectory) : Prop :=
  ∀ directory ∈ directories,
    Text.isBlankText (effectiveModule settings.defaultModule directory) = true ∨
      isValidName (effectiveModule settings.defaultModule directory) = true

private theorem isWellNamed_patch (parts : Parts host directories view settings plan members)
    (named : HaveProperModules settings directories) {member : Member}
    (present : member ∈ members) : member.patch.IsWellNamed := by
  obtain ⟨⟨directory, given, same⟩, _⟩ := parts.module_of_member present
  unfold Member.patch
  cases declared : member.declaration with
  | none =>
      apply ModulePatch.isWellNamed_create
      intro name own
      cases own
      rw [← same]
      exact named directory given
  | some declaration =>
      exact ModulePatch.isWellNamed_apply (ModulePatch.holdsNames_create _)
        (parts.isProper present declared)

private theorem areNames_added (parts : Parts host directories view settings plan members)
    {member : Member} (present : member ∈ members) :
    AreNames [allModulePath] member.addedModules := by
  unfold Member.addedModules
  cases declared : member.declaration with
  | none => exact areNames_empty
  | some declaration =>
      have proper := parts.isProper present declared
      exact (Patch.Overrides.areWellNamed_of_proper proper).addModules

private theorem areNames_roots (parts : Parts host directories view settings plan members)
    (answered : HaveNames (takenAnswers host view settings)) :
    AreNames [allModulePath] (takenUnit host view settings members).roots.names := by
  have added : AreNames [allModulePath] (addedRoots {} members).names := by
    apply List.foldlRecOn (motive := fun roots : RootModules =>
      AreNames [allModulePath] roots.names) _ _ areNames_empty
    intro roots sound member present
    exact areNames_union sound (areNames_added parts present)
  exact @roots_absorbAll_induction (fun roots => AreNames [allModulePath] roots.names) _
    (fun roots patch sound => areNames_absorb_roots answered sound patch) _ added _

/-- Every patch that is written holds names only. -/
private theorem isWellNamed_asWritten (parts : Parts host directories view settings plan members)
    (named : HaveProperModules settings directories)
    (answered : HaveNames (takenAnswers host view settings))
    {entry : PatchRef × List FilePath} (present : entry ∈ refs 0 none members) :
    ((takenUnit host view settings members).asWritten entry.1).IsWellNamed := by
  have untouched : (ModulePatch.create none).IsWellNamed :=
    ModulePatch.isWellNamed_create fun name absent => by cases absent
  apply forall_asWritten _ _ untouched _ present
  · exact fun member among => isWellNamed_patch parts named among
  · exact fun roots patch sound => isWellNamed_absorb answered roots sound
  · intro member among visible patch sound
    have valid : isValidName member.name = true := by
      obtain ⟨⟨directory, given, same⟩, _⟩ := parts.module_of_member among
      rcases named directory given with blank | valid
      · rw [same, visible] at blank
        cases blank
      · rw [← same]
        exact valid
    exact {
      limitModules := areNames_empty
      addReads := sound.addReads
      addExports := areTargets_empty
      addOpens := areTargets_empty
      testModules := areNames_empty
      module := by
        intro name own
        cases own
        exact valid }

/-! ### Options of a plan -/

private theorem isWellFormed_patchModuleOffer {known : List FilePath} {module : Option String}
    (valid : ∀ name, module = some name → isValidName name = true) {roots : List FilePath}
    (rooted : roots ≠ []) (inside : roots ⊆ known) {pair : Offer}
    (present : pair ∈ patchModuleOffer module roots) : IsWellFormed known module pair := by
  unfold patchModuleOffer at present
  cases named : module with
  | none =>
      rw [named] at present
      cases present
  | some name =>
      rw [named] at present
      simp only at present
      split at present
      · cases present
      · rw [List.mem_singleton.mp present]
        exact .patchModule (valid name named) rooted inside

private theorem global_of_no_module {unit : CompilationUnit} {ref : PatchRef}
    (unnamed : unit.module ref = none) {opens : Bool} {pair : Offer}
    (present : pair ∈ (unit.write opens ref).1) :
    pair.1 = "--add-modules" ∨ pair.1 = "--limit-modules" := by
  cases ref with
  | readsOnly module index => cases unnamed
  | full index =>
      have none : (unit.patch index).module = .none := unnamed
      rcases List.mem_append.mp present with roots | own
      · exact Or.inl (option_of_mem_offer (RootModules.mem_offers roots))
      · rcases ModulePatch.mem_offers own with limits | ⟨module, named, _⟩
        · exact Or.inr (option_of_mem_offer limits)
        · rw [none] at named
          cases named

/-- What comes from a patch has the form of an option for it. -/
private theorem isWellFormed_of_entry (parts : Parts host directories view settings plan members)
    (named : HaveProperModules settings directories)
    (answered : HaveNames (takenAnswers host view settings))
    {entry : PatchRef × List FilePath} (among : entry ∈ refs 0 none members) {pair : Offer}
    (present : pair ∈ (takenUnit host view settings members).refOffers settings.test entry.1 ∨
      pair ∈ patchModuleOffer ((takenUnit host view settings members).module entry.1) entry.2) :
    IsWellFormed (directories.map (·.root))
      ((takenUnit host view settings members).module entry.1) pair := by
  have sound := isWellNamed_asWritten parts named answered among
  rw [← CompilationUnit.module_asWritten] at present ⊢
  rcases present with own | patched
  · rw [CompilationUnit.refOffers_eq] at own
    exact isWellFormed_offers sound own
  · obtain ⟨member, given, same, _⟩ := origin_of_mem_refs among
    obtain ⟨_, rooted, inside⟩ := parts.module_of_member given
    rw [← same] at rooted inside
    exact isWellFormed_patchModuleOffer sound.module rooted inside patched

/-- If there is anything to add to the compilation, there is a patch. -/
private theorem exists_mem_refs (parts : Parts host directories view settings plan members)
    {pair : Offer} (present : pair ∈ (takenUnit host view settings members).roots.offers) :
    ∃ ref, ref ∈ plan.patches := by
  rw [parts.patches]
  cases members with
  | nil => cases present
  | cons member rest =>
      obtain ⟨others, first⟩ := refs_begin member rest
      rw [first]
      exact ⟨_, List.mem_cons_self⟩

/-- Where the directories and the test dependencies have valid names, every option of a plan has
the form of an option for one of its patches.  What is written of a patch without a module is for
the whole compilation. -/
theorem options_wellFormed (made : (make host directories view settings).result = .ok plan)
    (named : HaveProperModules settings directories)
    (proper : ∀ asked ∈ view, ∀ module,
      asked.IsTestArtifact (Artifact.describe host) settings.runtime (some module) →
        isValidName module.name = true) :
    (∀ pair ∈ plan.options.pairs, ∃ ref ∈ plan.patches,
      IsWellFormed (directories.map (·.root)) (plan.unit.module ref) pair) ∧
    ∀ (unit : CompilationUnit) (ref : PatchRef), unit.module ref = none →
      (∀ opens, ∀ pair ∈ (unit.write opens ref).1,
        pair.1 = "--add-modules" ∨ pair.1 = "--limit-modules") ∧
      ∀ roots, patchModuleOffers unit [(ref, roots)] = [] := by
  obtain ⟨members, parts⟩ := parts_of_make made
  have modules : plan.unit.module = (takenUnit host view settings members).module := by
    apply CompilationUnit.module_congr
    rw [parts.unit]
    exact CompilationUnit.patches_writeAll _ _ _
  have answered : HaveNames (takenAnswers host view settings) := by
    intro answer given module described
    obtain ⟨asked, known, artifact⟩ := artifact_of_takenAnswers given
    rw [described] at artifact
    exact proper asked known module artifact
  constructor
  · intro pair present
    rw [modules]
    rcases parts.origin_of_mem_pairs present with roots | ⟨entry, among, offered⟩
    · obtain ⟨ref, listed⟩ := exists_mem_refs parts roots
      exact ⟨ref, listed, isWellFormed_rootOffers (areNames_roots parts answered) roots _⟩
    · have listed : entry.1 ∈ plan.patches := by
        rw [parts.patches]
        exact List.mem_map_of_mem among
      exact ⟨entry.1, listed, isWellFormed_of_entry parts named answered among offered⟩
  · intro unit ref unnamed
    refine ⟨fun opens pair present => global_of_no_module unnamed present, ?_⟩
    intro roots
    simp only [patchModuleOffers_eq, List.flatMap_singleton, unnamed, patchModuleOffer]

/-- A module whose patch file exports to the test dependencies, and a directory without a
module. -/
def exportingHost : Host where
  files := ⟨.ofList [(["app", "patch"], .file (.bytes
    "patch-module app \x7b add-exports p to q, TEST-MODULE-PATH; \x7d".toUTF8.toList)),
    (["src"], .directory)]⟩

def exportingDirectories : List SourceDirectory :=
  [.create ⟨.relative, ["app"]⟩ ⟨.relative, ["out"]⟩ (some "app") none .source,
    .create ⟨.relative, ["src"]⟩ ⟨.relative, ["out"]⟩ none none .source]

def exportingView : DependencyView :=
  let view := DependencyView.add {} ⟨"dep", .test⟩ ⟨.absolute, ["dep.jar"]⟩
    (some { name := "dep" }) false
  view.add ⟨"old", .test⟩ ⟨.absolute, ["old.jar"]⟩ none false

def exportingSettings : PlanSettings where
  test := true
  patchFile := "patch"

private theorem exporting_options :
    (make exportingHost exportingDirectories (some exportingView)
      exportingSettings).result.toOption.map (·.options.pairs) =
      some [("--add-modules", "dep"), ("--add-exports", "app/p=q,dep,ALL-UNNAMED"),
        ("--patch-module", "app=app")] := by
  decide +kernel

private theorem exporting_proper : ∀ asked ∈ some exportingView, ∀ module,
    asked.IsTestArtifact (Artifact.describe exportingHost) exportingSettings.runtime
      (some module) → isValidName module.name = true := by
  intro asked given module artifact
  obtain rfl := Option.mem_some_iff.mp given
  obtain ⟨entry, present, described⟩ := artifact
  rcases List.mem_cons.mp present with rfl | last
  · cases described
    decide
  · obtain rfl := List.mem_singleton.mp last
    cases described

/-- The artifact that is no module stands for all classes outside modules. -/
theorem options_wellFormed_exporting : ∃ plan,
    (make exportingHost exportingDirectories (some exportingView) exportingSettings).result =
      .ok plan ∧
    ("--add-exports", "app/p=q,dep,ALL-UNNAMED") ∈ plan.options.pairs ∧
    ∀ pair ∈ plan.options.pairs, ∃ ref ∈ plan.patches,
      IsWellFormed (exportingDirectories.map (·.root)) (plan.unit.module ref) pair := by
  obtain ⟨plan, made, pairs⟩ := exists_ok_of_toOption exporting_options
  have named : HaveProperModules exportingSettings exportingDirectories := by
    unfold HaveProperModules
    decide
  refine ⟨plan, made, ?_, (options_wellFormed made named exporting_proper).1⟩
  rw [pairs]
  decide

end Plan

end ModulePlan
