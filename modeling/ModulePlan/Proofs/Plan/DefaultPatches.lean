/-
Default patch files make no difference.

A module without a patch file has the options that it would have with the default one.  The
file changes which patches are made and which of them ask for the test dependencies, but not
what a patch of its own for each module would come to.
-/

import ModulePlan.Proofs.Artifact
import ModulePlan.Proofs.Plan.DefaultFiles
import ModulePlan.Proofs.Plan.Making
import ModulePlan.Proofs.Source.Discovery
import ModulePlan.Proofs.TestModulePath.Reachability

namespace ModulePlan.Plan

open TestModulePath

/-- Can default patch files be put into a host at some sites? -/
structure CanGetDefaults (host : Host) (directories : List SourceDirectory)
    (settings : PlanSettings) (sites : List Site) : Prop where
  plain : IsPlainFile settings.patchFile
  suits : ∀ site ∈ sites,
    site.Suits host settings.patchFile (moduleRoots settings.defaultModule directories)

section Defaults

variable {host : Host} {directories : List SourceDirectory} {view : Option DependencyView}
  {settings : PlanSettings} {sites : List Site}

/-! ### The modules -/

private theorem same_atSites (fits : CanGetDefaults host directories settings sites)
    {members : List Member}
    (found : ((moduleRoots settings.defaultModule directories).entries.mapM fun entry =>
      memberOf host settings.patchFile entry.1 entry.2.toList) = .ok members) :
    ∀ member ∈ members, (member.atSites sites).patch = member.patch ∧
      (member.atSites sites).addedModules = member.addedModules ∧
      (member.atSites sites).roots = member.roots := by
  intro member present
  unfold Member.atSites
  by_cases atSite : member.name ∈ sites.map Site.module
  · obtain ⟨undeclared, valid⟩ :=
      undeclared_of_atSite fits.plain fits.suits found present atSite
    rw [if_pos atSite]
    refine ⟨?_, ?_, rfl⟩
    · unfold Member.patch
      rw [undeclared]
      exact Patch.apply_defaultDeclaration valid
    · unfold Member.addedModules
      rw [undeclared]
      rfl
  · rw [if_neg atSite]
    exact ⟨rfl, rfl, rfl⟩

private theorem asked_of_site (fits : CanGetDefaults host directories settings sites)
    {members : List Member}
    (found : ((moduleRoots settings.defaultModule directories).entries.mapM fun entry =>
      memberOf host settings.patchFile entry.1 entry.2.toList) = .ok members)
    {site : Site} (present : site ∈ sites) :
    (∃ member ∈ owners false members, member.asks = true) ∧
      ∃ member ∈ owners false (members.map (Member.atSites sites)), member.asks = true := by
  obtain ⟨member, among, named⟩ := exists_member_atSite found (fits.suits site present)
  have atSite : member.name ∈ sites.map Site.module := by
    rw [named]
    exact List.mem_map_of_mem present
  obtain ⟨undeclared, valid⟩ := undeclared_of_atSite fits.plain fits.suits found among atSite
  refine ⟨exists_asks_of_undeclared among undeclared, member.atSites sites, ?_, ?_⟩
  · apply mem_owners_of_declared (List.mem_map_of_mem among)
    unfold Member.atSites
    rw [if_pos atSite]
    rfl
  · unfold Member.asks
    rw [(same_atSites fits found member among).1]
    unfold Member.patch
    rw [undeclared]
    rfl

/-! ### The test dependencies -/

private theorem takenAnswers_of_asked {asked : DependencyView} (tested : settings.test = true) :
    takenAnswers host (some asked) settings =
      testAnswers (Artifact.describe host) asked settings.runtime := by
  unfold takenAnswers
  rw [tested]

private theorem takenAnswers_of_not_asked
    (unasked : ∀ asked, settings.test = true → view ≠ some asked) :
    takenAnswers host view settings = [] := by
  unfold takenAnswers
  cases tested : settings.test with
  | false => rfl
  | true =>
      cases view with
      | none => rfl
      | some asked => exact absurd rfl (unasked asked tested)

private theorem noneUnnamed_of_proper {inspection : Inspection} {asked : DependencyView}
    {runtime : Bool} (readable : IsReadable inspection asked runtime)
    (proper : asked.HasProperNames inspection runtime) :
    Progress.NoneUnnamed (testAnswers inspection asked runtime) := by
  intro answer present module described
  have artifact := (mem_testAnswers_iff readable (some module)).mp ⟨answer, present, described⟩
  exact proper module artifact

private theorem noneUnnamed_takenAnswers (can : CanBeAsked host view settings)
    (proper : ∀ asked ∈ view,
      asked.HasProperNames (Artifact.describe host) settings.runtime) :
    Progress.NoneUnnamed (takenAnswers host view settings) := by
  by_cases asks : settings.test = true ∧ ∃ asked, view = some asked
  · obtain ⟨tested, asked, rfl⟩ := asks
    rw [takenAnswers_of_asked tested]
    exact noneUnnamed_of_proper (can asked tested rfl) (proper asked rfl)
  · rw [takenAnswers_of_not_asked fun asked tested same => asks ⟨tested, asked, same⟩]
    intro answer absent
    cases absent

private theorem descriptors_withDefaults
    (fits : CanGetDefaults host directories settings sites)
    (refuses : Artifact.Refuses host (putDefaults settings.patchFile sites host.files)
      (defaultAt? settings.patchFile sites))
    (can : CanBeAsked host view settings)
    (canAgain : CanBeAsked (withDefaults host settings.patchFile sites) view settings) :
    (takenAnswers (withDefaults host settings.patchFile sites) view settings).map
        (·.descriptor) =
      (takenAnswers host view settings).map (·.descriptor) := by
  by_cases asks : settings.test = true ∧ ∃ asked, view = some asked
  · obtain ⟨tested, asked, rfl⟩ := asks
    have readable := can asked tested rfl
    have readableAgain := canAgain asked tested rfl
    rw [takenAnswers_of_asked tested, takenAnswers_of_asked tested]
    refine descriptors_congr rfl ?_ readable
    intro entry present
    obtain ⟨descriptor, described⟩ := readable entry present
    obtain ⟨other, again⟩ := readableAgain entry present
    rw [described, again]
    unfold DependencyView.describe at described again
    cases known : asked.descriptors.get? entry.2 with
    | some remembered =>
        rw [known] at described again
        exact again.symm.trans described
    | none =>
        rw [known] at described again
        exact congrArg Except.ok
          (Artifact.descriptor_gains (gains_putDefaults fits.suits) refuses described again)
  · have unasked : ∀ asked, settings.test = true → view ≠ some asked :=
      fun asked tested same => asks ⟨tested, asked, same⟩
    rw [takenAnswers_of_not_asked unasked, takenAnswers_of_not_asked unasked]

private theorem options_withDefaults (fits : CanGetDefaults host directories settings sites)
    (proper : ∀ asked ∈ view, asked.HasProperNames (Artifact.describe host) settings.runtime)
    (refuses : Artifact.Refuses host (putDefaults settings.patchFile sites host.files)
      (defaultAt? settings.patchFile sites))
    {plan other : Plan} (made : (make host directories view settings).result = .ok plan)
    (again : (make (withDefaults host settings.patchFile sites) directories view
      settings).result = .ok other) :
    other.options = plan.options := by
  cases listing : sites with
  | nil =>
      rw [listing] at again
      have same : plan = other := Except.ok.inj (made.symm.trans again)
      rw [same]
  | cons site rest =>
      have present : site ∈ sites := by
        rw [listing]
        exact List.mem_cons_self
      obtain ⟨members, found, asked, options⟩ := options_of_make made
      obtain ⟨membersAgain, foundAgain, askedAgain, optionsAgain⟩ := options_of_make again
      rw [members_withDefaults fits.plain fits.suits, found] at foundAgain
      cases foundAgain
      obtain ⟨asks, asksAgain⟩ := asked_of_site fits found present
      have can := asked asks
      have canAgain := askedAgain asksAgain
      have same := descriptors_withDefaults fits refuses can canAgain
      have named := noneUnnamed_takenAnswers can proper
      have namedAgain := (Progress.noneUnnamed_congr same).mpr named
      rw [options named, optionsAgain namedAgain]
      exact ownOptions_congr same (same_atSites fits found) settings.test

/-! ### Plans that can be made -/

private theorem releaseGroups_withDefaults
    (fits : CanGetDefaults host directories settings sites)
    (texts : Discovery.AreTexts settings.excludes) :
    (∃ groups, (releaseGroups (withDefaults host settings.patchFile sites) directories
        settings.excludes).result = .ok groups) ↔
      ∃ groups, (releaseGroups host directories settings.excludes).result = .ok groups := by
  have same : ∀ path, (withDefaults host settings.patchFile sites).isDirectory path =
      host.isDirectory path := Host.isDirectory_gains (gains_putDefaults fits.suits)
  rw [releaseGroups_completes_iff, releaseGroups_completes_iff,
    Discovery.sources_completes_iff texts, Discovery.sources_completes_iff texts]
  simp only [same]

private theorem warnOfDeclarations_withDefaults
    (fits : CanGetDefaults host directories settings sites) :
    (warnOfDeclarations (withDefaults host settings.patchFile sites) directories).result =
        .ok () ↔
      (warnOfDeclarations host directories).result = .ok () := by
  have same : ∀ path,
      (∃ file, (withDefaults host settings.patchFile sites).isFile path = .ok file) ↔
        ∃ file, host.isFile path = .ok file :=
    Host.isFile_completes_gains (gains_putDefaults fits.suits)
  rw [warnOfDeclarations_completes_iff, warnOfDeclarations_completes_iff]
  unfold ModuleDeclaration.isIn
  simp only [same]

/-- Is no artifact of a view one of the files that come in? -/
def IsApart (host : Host) (patchFile : String) (sites : List Site) (view : DependencyView) :
    Prop :=
  ∀ entry ∈ view.dependencies.entries, ∀ content,
    ¬ host.LeadsToFresh (putDefaults patchFile sites host.files) (defaultAt? patchFile sites)
      entry.2 content

private theorem canBeAsked_withDefaults
    (fits : CanGetDefaults host directories settings sites)
    (other : settings.patchFile ≠ Artifact.compiledDeclaration)
    (apart : ∀ asked ∈ view, IsApart host settings.patchFile sites asked) :
    CanBeAsked (withDefaults host settings.patchFile sites) view settings ↔
      CanBeAsked host view settings := by
  have undeclared : ∀ (path : FilePath) content,
      ¬ host.LeadsToFresh (putDefaults settings.patchFile sites host.files)
        (defaultAt? settings.patchFile sites) (path.join Artifact.compiledDeclaration)
        content := by
    intro path content leads
    have plain : IsPlainFile Artifact.compiledDeclaration := ⟨by decide, by decide⟩
    exact other (site_of_leadsToFresh fits.suits plain leads).1.symm
  have same : ∀ asked ∈ view, ∀ entry ∈ asked.applicable settings.runtime,
      ((∃ descriptor, asked.describe
          (Artifact.describe (withDefaults host settings.patchFile sites)) entry.2 =
            .ok descriptor) ↔
        ∃ descriptor, asked.describe (Artifact.describe host) entry.2 = .ok descriptor) := by
    intro asked given entry present
    unfold DependencyView.describe
    cases asked.descriptors.get? entry.2 with
    | some known => exact Iff.rfl
    | none =>
        have among := (List.mem_filter.mp present).1
        exact Artifact.describe_completes_gains_iff (gains_putDefaults fits.suits) undeclared
          (apart asked given entry among)
  constructor
  · intro can asked tested given entry present
    exact (same asked given entry present).mp (can asked tested given entry present)
  · intro can asked tested given entry present
    exact (same asked given entry present).mpr (can asked tested given entry present)

private theorem exists_make_withDefaults
    (fits : CanGetDefaults host directories settings sites)
    (texts : Discovery.AreTexts settings.excludes)
    (other : settings.patchFile ≠ Artifact.compiledDeclaration)
    (apart : ∀ asked ∈ view, IsApart host settings.patchFile sites asked) :
    (∃ plan, (make (withDefaults host settings.patchFile sites) directories view
        settings).result = .ok plan) ↔
      ∃ plan, (make host directories view settings).result = .ok plan := by
  cases listing : sites with
  | nil => exact Iff.rfl
  | cons site rest =>
      have present : site ∈ sites := by
        rw [listing]
        exact List.mem_cons_self
      rw [← listing, exists_make_iff, exists_make_iff, releaseGroups_withDefaults fits texts,
        warnOfDeclarations_withDefaults fits, members_withDefaults fits.plain fits.suits,
        canBeAsked_withDefaults fits other apart]
      cases found : (moduleRoots settings.defaultModule directories).entries.mapM
          fun entry => memberOf host settings.patchFile entry.1 entry.2.toList with
      | error fault => simp [Except.map]
      | ok members =>
          obtain ⟨asks, asksAgain⟩ := asked_of_site fits found present
          simp only [Except.map, Except.ok.injEq, exists_eq_left', asks, asksAgain,
            true_implies]

/-! ### The options -/

private theorem offers_of_shared {inspection : Inspection} {asked : DependencyView}
    {runtime : Bool} (readable : IsReadable inspection asked runtime)
    (proper : asked.HasProperNames inspection runtime) {unit : CompilationUnit} {index : Nat}
    {first : Option String} {name : String} (named : Text.isBlankText name = false)
    {roots others : RootModules}
    (shared : unit.patch index =
      (expand inspection asked runtime roots (.create first)).patch) (opens : Bool) :
    (unit.write opens (.readsOnly name index)).1 =
      (expand inspection asked runtime others (.create (some name))).patch.offers opens := by
  have fresh := noneUnnamed_of_proper readable proper
  have patch : ∀ (roots : RootModules) (module : Option String),
      (expand inspection asked runtime roots (.create module)).patch =
        { ModulePatch.create module with
          addReads := (Progress.alone (testAnswers inspection asked runtime)).reads } := by
    intro roots module
    have finished := congrArg Prod.snd
      (expand_eq_finish inspection asked runtime roots (.create module))
    have absorbed := congrArg Prod.snd (absorb_create fresh roots module)
    exact finished.trans absorbed
  rw [patch] at shared
  rw [patch, offers_of_reads named]
  exact congrArg (fun patch => offer "add-reads" (some name) patch.addReads) shared

/-- Whether a module has no patch file or the default one makes no difference to the options.
With exclude patterns that are texts, and unless a file is taken for a compiled declaration or
for an artifact, a plan can be made with the files exactly if it can be made without.  And what
is written of a module that shares the reads of another is what a full patch of its own comes
to. -/
theorem options_of_defaults (fits : CanGetDefaults host directories settings sites)
    (proper : ∀ asked ∈ view, asked.HasProperNames (Artifact.describe host) settings.runtime)
    (refuses : Artifact.Refuses host (putDefaults settings.patchFile sites host.files)
      (defaultAt? settings.patchFile sites)) :
    (∀ plan other, (make host directories view settings).result = .ok plan →
      (make (withDefaults host settings.patchFile sites) directories view settings).result =
        .ok other →
      other.options.pairs = plan.options.pairs) ∧
    (Discovery.AreTexts settings.excludes →
      settings.patchFile ≠ Artifact.compiledDeclaration →
      (∀ asked ∈ view, IsApart host settings.patchFile sites asked) →
      ((∃ other, (make (withDefaults host settings.patchFile sites) directories view
          settings).result = .ok other) ↔
        ∃ plan, (make host directories view settings).result = .ok plan)) ∧
    (∀ asked ∈ view, IsReadable (Artifact.describe host) asked settings.runtime →
      ∀ (unit : CompilationUnit) (index : Nat) (first : Option String) (name : String)
        (roots others : RootModules), Text.isBlankText name = false →
      unit.patch index = (expand (Artifact.describe host) asked settings.runtime roots
        (.create first)).patch →
      (unit.write settings.test (.readsOnly name index)).1 =
        (expand (Artifact.describe host) asked settings.runtime others
          (.create (some name))).patch.offers settings.test) := by
  refine ⟨?_, exists_make_withDefaults fits, ?_⟩
  · intro plan other made again
    rw [options_withDefaults fits proper refuses made again]
  · intro asked given readable unit index first name roots others named shared
    exact offers_of_shared readable (proper asked given) named shared settings.test

end Defaults

def twoModulesHost : Host where
  files := ⟨.ofList [(["app", "A.java"], .file (.bytes [])), (["lib"], .directory)]⟩
  javap := some fun target => ⟨1, "", "Error: could not open " ++ target⟩

def twoModulesDirectories : List SourceDirectory :=
  [.create ⟨.relative, ["app"]⟩ ⟨.relative, ["out"]⟩ (some "app") none .source,
    .create ⟨.relative, ["lib"]⟩ ⟨.relative, ["out"]⟩ (some "lib") none .source]

def twoModulesView : DependencyView :=
  DependencyView.add {} ⟨"dep", .test⟩ ⟨.absolute, ["dep.jar"]⟩ (some { name := "dep" }) false

def twoModulesSettings : PlanSettings where
  test := true
  patchFile := "patch"

def twoModulesSites : List Site :=
  [⟨"lib", ⟨.relative, ["lib"]⟩, ["lib"]⟩]

private theorem twoModules_fit : CanGetDefaults twoModulesHost twoModulesDirectories
    twoModulesSettings twoModulesSites where
  plain := ⟨by decide, by decide⟩
  suits := by
    intro site present
    obtain rfl := List.mem_singleton.mp present
    exact {
      valid := by decide
      undeclared := ⟨.ofList [⟨.relative, ["lib"]⟩], by decide, rfl, rfl⟩
      leads := by decide
      inside := by decide
      alone := by decide
      nameable := rfl
      free := by decide }

private theorem twoModules_proper : ∀ asked ∈ some twoModulesView,
    asked.HasProperNames (Artifact.describe twoModulesHost) twoModulesSettings.runtime := by
  intro asked given descriptor artifact
  obtain rfl := Option.mem_some_iff.mp given
  obtain ⟨entry, present, described⟩ := artifact
  obtain rfl := List.mem_singleton.mp present
  cases described
  decide

private theorem twoModules_apart : ∀ asked ∈ some twoModulesView,
    IsApart twoModulesHost twoModulesSettings.patchFile twoModulesSites asked := by
  intro asked given entry present content leads
  obtain rfl := Option.mem_some_iff.mp given
  obtain rfl := List.mem_singleton.mp present
  obtain ⟨place, _, found⟩ := leads
  have lost : (putDefaults twoModulesSettings.patchFile twoModulesSites
      twoModulesHost.files).find [] ⟨.absolute, ["dep.jar"]⟩ = .error .missing := by decide
  cases lost.symm.trans found

private theorem twoModules_made : ∃ plan,
    (make twoModulesHost twoModulesDirectories (some twoModulesView)
      twoModulesSettings).result = .ok plan ∧
    plan.options.pairs = [("--add-modules", "dep"), ("--add-reads", "app=dep"),
      ("--add-reads", "lib=dep"), ("--patch-module", "app=app"),
      ("--patch-module", "lib=lib")] := by
  have options : (make twoModulesHost twoModulesDirectories (some twoModulesView)
      twoModulesSettings).result.toOption.map (·.options.pairs) =
      some [("--add-modules", "dep"), ("--add-reads", "app=dep"), ("--add-reads", "lib=dep"),
        ("--patch-module", "app=app"), ("--patch-module", "lib=lib")] := by
    decide +kernel
  exact exists_ok_of_toOption options

theorem options_of_defaults_two_modules :
    CanGetDefaults twoModulesHost twoModulesDirectories twoModulesSettings twoModulesSites ∧
    ∃ other,
      (make (withDefaults twoModulesHost twoModulesSettings.patchFile twoModulesSites)
        twoModulesDirectories (some twoModulesView) twoModulesSettings).result = .ok other ∧
      other.options.pairs = [("--add-modules", "dep"), ("--add-reads", "app=dep"),
        ("--add-reads", "lib=dep"), ("--patch-module", "app=app"),
        ("--patch-module", "lib=lib")] := by
  have refuses : Artifact.Refuses twoModulesHost
      (putDefaults twoModulesSettings.patchFile twoModulesSites twoModulesHost.files)
      (defaultAt? twoModulesSettings.patchFile twoModulesSites) := by
    intro javap installed path content _
    cases installed
    exact Int.one_ne_zero
  have holds := options_of_defaults twoModules_fit twoModules_proper refuses
  have texts : Discovery.AreTexts twoModulesSettings.excludes := List.forall_mem_nil _
  obtain ⟨plan, made, options⟩ := twoModules_made
  obtain ⟨other, again⟩ := (holds.2.1 texts (by decide) twoModules_apart).mpr ⟨plan, made⟩
  exact ⟨twoModules_fit, other, again, (holds.1 plan other made again).trans options⟩

end ModulePlan.Plan
