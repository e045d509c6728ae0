/-
The module graph after a pass.

A pass leaves out modules that are required by a module it adds or reads.  The compiler
finds those by itself: the modules that can be reached from what is added, or from what is
read, are the same as if every test module had been added or read.  The order of the
dependencies therefore makes no difference to the graph.
-/

import Mathlib.Data.Set.Basic
import Mathlib.Logic.Relation
import ModulePlan.Proofs.TestModulePath.Pass

namespace ModulePlan

/-- The modules reached from some roots by following an arrow any number of times. -/
def reachableFrom (pointsTo : String → String → Prop) (roots : Set String) : Set String :=
  {name | ∃ root ∈ roots, Relation.ReflTransGen pointsTo root name}

section Reachable

variable {pointsTo : String → String → Prop}

theorem subset_reachableFrom (roots : Set String) : roots ⊆ reachableFrom pointsTo roots :=
  fun name present => ⟨name, present, .refl⟩

theorem reachableFrom_mono {roots wider : Set String} (within : roots ⊆ wider) :
    reachableFrom pointsTo roots ⊆ reachableFrom pointsTo wider := by
  intro name given
  rcases given with ⟨root, present, path⟩
  exact ⟨root, within present, path⟩

theorem reachableFrom_next {roots : Set String} {name next : String}
    (reached : name ∈ reachableFrom pointsTo roots) (arrow : pointsTo name next) :
    next ∈ reachableFrom pointsTo roots := by
  obtain ⟨root, present, path⟩ := reached
  exact ⟨root, present, path.tail arrow⟩

/-- Roots that can be reached anyway add nothing. -/
theorem reachableFrom_eq_of_covered {roots wider : Set String} (within : roots ⊆ wider)
    (covered : wider ⊆ reachableFrom pointsTo roots) :
    reachableFrom pointsTo roots = reachableFrom pointsTo wider := by
  apply Set.Subset.antisymm (reachableFrom_mono within)
  intro name given
  rcases given with ⟨root, present, path⟩
  obtain ⟨first, here, start⟩ := covered present
  exact ⟨first, here, start.trans path⟩

end Reachable

def NameSet.members (names : NameSet) : Set String :=
  {name | name ∈ names}

namespace DependencyView

/-- One module points to another when a dependency on the test module path is the first and
requires the second. -/
def PointsTo (inspection : Inspection) (view : DependencyView) (runtime : Bool)
    (module required : String) : Prop :=
  ∃ descriptor, view.IsTestArtifact inspection runtime (some descriptor) ∧
    descriptor.name = module ∧ required ∈ descriptor.requires

def testModules (inspection : Inspection) (view : DependencyView) (runtime : Bool) :
    Set String :=
  {name | ∃ descriptor, view.IsTestArtifact inspection runtime (some descriptor) ∧
    descriptor.name = name}

/-- No module on the test module path is named like the classes outside modules. -/
def HasProperNames (inspection : Inspection) (view : DependencyView) (runtime : Bool) : Prop :=
  ∀ descriptor, view.IsTestArtifact inspection runtime (some descriptor) →
    descriptor.name ≠ allUnnamed

/-- The same dependencies in another order. -/
structure IsReordering (reordered view : DependencyView) : Prop where
  permuted : reordered.dependencies.entries.Perm view.dependencies.entries
  descriptors : reordered.descriptors = view.descriptors

end DependencyView

namespace TestModulePath

/-! ### What is done can be reached -/

section Covered

variable {pointsTo : String → String → Prop}

private theorem covered_of_module {done later : NameSet} {roots grown : Set String}
    {module : ModuleDescriptor} (covered : done.members ⊆ reachableFrom pointsTo roots)
    (within : roots ⊆ grown) (here : module.name ∈ grown)
    (arrows : ∀ required ∈ module.requires, pointsTo module.name required)
    (origin : ∀ name ∈ later, name ∈ done ∨ name = module.name ∨ name ∈ module.requires) :
    later.members ⊆ reachableFrom pointsTo grown := by
  intro name present
  have reached : module.name ∈ reachableFrom pointsTo grown := subset_reachableFrom grown here
  rcases origin name present with before | same | required
  · exact reachableFrom_mono within (covered before)
  · subst same
    exact reached
  · exact reachableFrom_next reached (arrows name required)

def moduleNames (names : NameSet) : Set String :=
  names.members \ {allUnnamed}

/-- What is done can be reached from what is added and from what is read, as far as the
request goes. -/
structure Progress.Covered (pointsTo : String → String → Prop) (request : Request)
    (progress : Progress) : Prop where
  added : request.adds = true →
    progress.done.members ⊆ reachableFrom pointsTo progress.names.members
  read : request.reads = true →
    progress.done.members ⊆ reachableFrom pointsTo (moduleNames progress.reads)

/-- The module of an answer, if there is one, stands in the graph with what it requires. -/
def FitsGraph (pointsTo : String → String → Prop) (answer : Answer) : Prop :=
  ∀ module, answer.descriptor = some module →
    module.name ≠ allUnnamed ∧ ∀ required ∈ module.requires, pointsTo module.name required

private theorem moduleNames_mono {names grown : NameSet} (within : names.toList <+: grown.toList) :
    moduleNames names ⊆ moduleNames grown :=
  fun _ present => ⟨within.subset present.1, present.2⟩

theorem step_covered {request : Request} {progress : Progress} {answer : Answer}
    (covered : progress.Covered pointsTo request) (fits : FitsGraph pointsTo answer) :
    (progress.step request answer).Covered pointsTo request := by
  have grown := Progress.step_extends request progress answer
  cases described : answer.descriptor with
  | none =>
      have same : (progress.step request answer).done = progress.done := by
        rw [Progress.step_of_unnamed described]
      constructor
      · intro adds
        rw [same]
        exact (covered.added adds).trans (reachableFrom_mono grown.names.subset)
      · intro reads
        rw [same]
        exact (covered.read reads).trans (reachableFrom_mono (moduleNames_mono grown.reads))
  | some module =>
      obtain ⟨proper, arrows⟩ := fits module described
      by_cases isDone : module.name ∈ progress.done
      · rw [Progress.step_of_done described isDone]
        exact ⟨covered.added, covered.read⟩
      · have origin : ∀ name ∈ progress.doneAfter request module,
            name ∈ progress.done ∨ name = module.name ∨ name ∈ module.requires := by
          intro name present
          rcases (Progress.mem_doneAfter module name).mp present with before | same | required
          · exact Or.inl before
          · exact Or.inr (Or.inl same)
          · exact Or.inr (Or.inr required.2)
        rw [Progress.step_of_open described isDone] at grown ⊢
        constructor
        · intro adds
          exact covered_of_module (covered.added adds) grown.names.subset
            ((mem_insertIf _ _ _ _).mpr (Or.inr ⟨adds, rfl⟩)) arrows origin
        · intro reads
          exact covered_of_module (covered.read reads) (moduleNames_mono grown.reads)
            ⟨(mem_insertIf _ _ _ _).mpr (Or.inr ⟨reads, rfl⟩), proper⟩ arrows origin

theorem run_covered {request : Request} {progress : Progress} {answers : List Answer}
    (covered : progress.Covered pointsTo request)
    (fits : ∀ answer ∈ answers, FitsGraph pointsTo answer) :
    (progress.run request answers).Covered pointsTo request := by
  induction answers generalizing progress with
  | nil => exact covered
  | cons answer rest ih =>
      rw [List.forall_mem_cons] at fits
      exact ih (step_covered covered fits.1) fits.2

end Covered

/-! ### The graph after a pass -/

section Graph

variable {inspection : Inspection} {view : DependencyView} {runtime : Bool}
  {roots : RootModules} {patch : ModulePatch}

private theorem testAnswers_fit (readable : IsReadable inspection view runtime)
    (proper : view.HasProperNames inspection runtime) :
    ∀ answer ∈ testAnswers inspection view runtime,
      FitsGraph (view.PointsTo inspection runtime) answer := by
  intro answer present module named
  have artifact : view.IsTestArtifact inspection runtime (some module) :=
    (mem_testAnswers_iff readable (some module)).mp ⟨answer, present, named⟩
  exact ⟨proper module artifact, fun required listed => ⟨module, artifact, rfl, listed⟩⟩

private theorem final_covered (readable : IsReadable inspection view runtime)
    (proper : view.HasProperNames inspection runtime) :
    ((Progress.start roots patch).run (Request.ofPatch patch)
      (testAnswers inspection view runtime)).Covered (view.PointsTo inspection runtime)
      (Request.ofPatch patch) := by
  apply run_covered _ (testAnswers_fit readable proper)
  have nothing : (Progress.start roots patch).done.members = ∅ :=
    Set.eq_empty_of_forall_notMem fun name => DistinctList.not_mem_empty name
  constructor
  · intro _
    rw [nothing]
    exact Set.empty_subset _
  · intro _
    rw [nothing]
    exact Set.empty_subset _

private theorem testModules_done (readable : IsReadable inspection view runtime)
    (request : Request) (progress : Progress) :
    view.testModules inspection runtime ⊆
      (progress.run request (testAnswers inspection view runtime)).done.members := by
  intro name given
  rcases given with ⟨module, artifact, same⟩
  obtain ⟨answer, present, named⟩ := (mem_testAnswers_iff readable (some module)).mpr artifact
  rw [← same]
  exact Progress.mem_done_run present named request progress

theorem reachable_of_added (readable : IsReadable inspection view runtime)
    (proper : view.HasProperNames inspection runtime)
    (adds : patch.addTestModules = true) :
    reachableFrom (view.PointsTo inspection runtime)
        (expand inspection view runtime roots patch).roots.names.members =
      reachableFrom (view.PointsTo inspection runtime)
        (roots.names.members ∪ view.testModules inspection runtime) := by
  rw [roots_expand]
  apply reachableFrom_eq_of_covered
  · intro name present
    rcases Progress.origin_of_mem_names_run present with
      before | ⟨_, answer, here, module, named, same⟩
    · exact Or.inl before
    · exact Or.inr ⟨module, (mem_testAnswers_iff readable _).mp ⟨answer, here, named⟩, same⟩
  · apply Set.union_subset
    · intro name present
      exact subset_reachableFrom _ ((Progress.run_extends _ _ _).mem_names present)
    · exact (testModules_done readable _ _).trans ((final_covered readable proper).added adds)

theorem reachable_of_read (readable : IsReadable inspection view runtime)
    (proper : view.HasProperNames inspection runtime)
    (reads : patch.readTestModules = true) :
    reachableFrom (view.PointsTo inspection runtime)
        (moduleNames (expand inspection view runtime roots patch).patch.addReads) =
      reachableFrom (view.PointsTo inspection runtime)
        (moduleNames patch.addReads ∪ view.testModules inspection runtime) := by
  rw [patch_expand]
  apply reachableFrom_eq_of_covered
  · intro name given
    rcases given with ⟨present, isModule⟩
    rcases Progress.origin_of_mem_reads_run present with before | ⟨_, answer, here, same⟩
    · exact Or.inl ⟨before, isModule⟩
    · cases described : answer.descriptor with
      | none =>
          rw [described] at same
          exact False.elim (isModule same)
      | some module =>
          rw [described] at same
          exact Or.inr ⟨module, (mem_testAnswers_iff readable _).mp ⟨answer, here, described⟩,
            same.symm⟩
  · have grown := Progress.run_extends (Request.ofPatch patch) (Progress.start roots patch)
      (testAnswers inspection view runtime)
    apply Set.union_subset
    · exact (moduleNames_mono grown.reads).trans (subset_reachableFrom _)
    · exact (testModules_done readable _ _).trans ((final_covered readable proper).read reads)

theorem unnamed_mem_reads_iff (readable : IsReadable inspection view runtime)
    (proper : view.HasProperNames inspection runtime)
    (reads : patch.readTestModules = true) :
    allUnnamed ∈ (expand inspection view runtime roots patch).patch.addReads ↔
      allUnnamed ∈ patch.addReads ∨ view.IsTestArtifact inspection runtime none := by
  rw [patch_expand]
  constructor
  · intro present
    rcases Progress.origin_of_mem_reads_run present with before | ⟨_, answer, here, same⟩
    · exact Or.inl before
    · have artifact := (mem_testAnswers_iff readable answer.descriptor).mp ⟨answer, here, rfl⟩
      cases described : answer.descriptor with
      | none =>
          rw [described] at artifact
          exact Or.inr artifact
      | some module =>
          rw [described] at artifact same
          exact False.elim (proper module artifact same.symm)
  · intro given
    rcases given with before | artifact
    · exact (Progress.run_extends _ _ _).mem_reads before
    · obtain ⟨answer, here, unnamed⟩ := (mem_testAnswers_iff readable none).mpr artifact
      exact Progress.mem_reads_run_of_unnamed reads here unnamed _

/-! ### The order of the dependencies -/

section Reordered

variable {reordered : DependencyView} (reordering : reordered.IsReordering view)

include reordering

private theorem mem_applicable_reordered (entry : Dependency × FilePath) :
    entry ∈ reordered.applicable runtime ↔ entry ∈ view.applicable runtime :=
  (reordering.permuted.filter _).mem_iff

private theorem describe_reordered (path : FilePath) :
    reordered.describe inspection path = view.describe inspection path := by
  unfold DependencyView.describe
  rw [reordering.descriptors]

private theorem isTestArtifact_reordered :
    reordered.IsTestArtifact inspection runtime = view.IsTestArtifact inspection runtime := by
  funext descriptor
  unfold DependencyView.IsTestArtifact
  simp only [mem_applicable_reordered reordering, describe_reordered reordering]

private theorem isReadable_reordered :
    IsReadable inspection reordered runtime ↔ IsReadable inspection view runtime := by
  unfold IsReadable
  simp only [mem_applicable_reordered reordering, describe_reordered reordering]

private theorem hasProperNames_reordered (proper : view.HasProperNames inspection runtime) :
    reordered.HasProperNames inspection runtime := by
  unfold DependencyView.HasProperNames
  rw [isTestArtifact_reordered reordering]
  exact proper

private theorem pointsTo_reordered :
    reordered.PointsTo inspection runtime = view.PointsTo inspection runtime := by
  funext module required
  unfold DependencyView.PointsTo
  rw [isTestArtifact_reordered reordering]

private theorem testModules_reordered :
    reordered.testModules inspection runtime = view.testModules inspection runtime := by
  unfold DependencyView.testModules
  rw [isTestArtifact_reordered reordering]

end Reordered

/-- Leaving modules out changes nothing that can be reached, and neither does the order of
the dependencies. -/
theorem graph_of_expand
    (proper : view.HasProperNames inspection runtime)
    (completes : (expand inspection view runtime roots patch).report.result = .ok ()) :
    let pass := expand inspection view runtime roots patch
    (patch.addTestModules = true →
      reachableFrom (view.PointsTo inspection runtime) pass.roots.names.members =
        reachableFrom (view.PointsTo inspection runtime)
          (roots.names.members ∪ view.testModules inspection runtime)) ∧
    (patch.readTestModules = true →
      reachableFrom (view.PointsTo inspection runtime) (moduleNames pass.patch.addReads) =
        reachableFrom (view.PointsTo inspection runtime)
          (moduleNames patch.addReads ∪ view.testModules inspection runtime) ∧
      (allUnnamed ∈ pass.patch.addReads ↔
        allUnnamed ∈ patch.addReads ∨ view.IsTestArtifact inspection runtime none)) ∧
    ∀ reordered : DependencyView, reordered.IsReordering view →
      let other := expand inspection reordered runtime roots patch
      other.report.result = .ok () ∧
      (patch.addTestModules = true →
        reachableFrom (reordered.PointsTo inspection runtime) other.roots.names.members =
          reachableFrom (view.PointsTo inspection runtime) pass.roots.names.members) ∧
      (patch.readTestModules = true →
        reachableFrom (reordered.PointsTo inspection runtime)
            (moduleNames other.patch.addReads) =
          reachableFrom (view.PointsTo inspection runtime) (moduleNames pass.patch.addReads) ∧
        (allUnnamed ∈ other.patch.addReads ↔ allUnnamed ∈ pass.patch.addReads)) := by
  intro pass
  have readable := (expand_completes_iff inspection view runtime roots patch).mp completes
  have asksToAdd : patch.addTestModules = true → (Request.ofPatch patch).isAny = true := by
    intro adds
    simp only [Request.isAny, Request.ofPatch, adds, Bool.true_or]
  have asksToRead : patch.readTestModules = true → (Request.ofPatch patch).isAny = true := by
    intro reads
    simp only [Request.isAny, Request.ofPatch, reads, Bool.or_true, Bool.true_or]
  refine ⟨?added, ?read, ?reordered⟩
  case added =>
    intro adds
    exact reachable_of_added (readable (asksToAdd adds)) proper adds
  case read =>
    intro reads
    have found := readable (asksToRead reads)
    exact ⟨reachable_of_read found proper reads, unnamed_mem_reads_iff found proper reads⟩
  case reordered =>
    intro reordered reordering other
    have isReadable : IsReadable inspection reordered runtime ↔
        IsReadable inspection view runtime := isReadable_reordered reordering
    have proper' := hasProperNames_reordered reordering proper
    refine ⟨?_, ?_, ?_⟩
    · apply (expand_completes_iff inspection reordered runtime roots patch).mpr
      intro asked
      exact isReadable.mpr (readable asked)
    · intro adds
      have found := readable (asksToAdd adds)
      rw [reachable_of_added found proper adds,
        reachable_of_added (isReadable.mpr found) proper' adds,
        pointsTo_reordered reordering, testModules_reordered reordering]
    · intro reads
      have found := readable (asksToRead reads)
      rw [reachable_of_read found proper reads,
        reachable_of_read (isReadable.mpr found) proper' reads,
        unnamed_mem_reads_iff found proper reads,
        unnamed_mem_reads_iff (isReadable.mpr found) proper' reads,
        pointsTo_reordered reordering, testModules_reordered reordering,
        isTestArtifact_reordered reordering]
      exact ⟨rfl, Iff.rfl⟩

end Graph

/-- Two test modules that require a third one, which stands last, and an artifact that is no
module. -/
def diamondView : DependencyView :=
  let add := fun (view : DependencyView) (name : String) (descriptor : Option ModuleDescriptor) =>
    view.add ⟨name, .test⟩ ⟨.relative, [name]⟩ descriptor false
  let view := add {} "left" (some { name := "left", requires := ["base"] })
  let view := add view "right" (some { name := "right", requires := ["base", "left"] })
  let view := add view "classes" none
  add view "base" (some { name := "base" })

private theorem describe_diamondView :
    (diamondView.applicable false).map (fun entry =>
        diamondView.describe noInspection entry.2) =
      [.ok (some { name := "left", requires := ["base"] }),
        .ok (some { name := "right", requires := ["base", "left"] }), .ok none,
        .ok (some { name := "base" })] :=
  rfl

private theorem diamondView_properNames : diamondView.HasProperNames noInspection false := by
  intro descriptor artifact
  have told := List.mem_map.mpr artifact
  rw [describe_diamondView] at told
  simp only [List.mem_cons, Except.ok.injEq, Option.some.injEq, reduceCtorEq, false_or,
    List.not_mem_nil, or_false] at told
  rcases told with rfl | rfl | rfl <;> decide

theorem graph_of_expand_diamond :
    let pass := expand noInspection diamondView false {} (.create (some "app"))
    diamondView.HasProperNames noInspection false ∧ pass.report.result = .ok () ∧
    pass.roots.names.toList = ["left", "right"] ∧
    reachableFrom (diamondView.PointsTo noInspection false) pass.roots.names.members =
      reachableFrom (diamondView.PointsTo noInspection false)
        (NameSet.members .empty ∪ diamondView.testModules noInspection false) :=
  ⟨diamondView_properNames, rfl, rfl,
    (graph_of_expand diamondView_properNames rfl).1 rfl⟩

end TestModulePath

end ModulePlan
