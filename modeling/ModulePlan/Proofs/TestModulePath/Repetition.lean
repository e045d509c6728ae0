/-
A pass made twice.

The second pass finds the modules of the first one present, so it no longer passes over what
they require.  It adds and reads again only modules that the first pass left out for that
reason, and it changes nothing at all exactly when there are none.
-/

import ModulePlan.Proofs.TestModulePath.Pass

namespace ModulePlan.TestModulePath

namespace Progress

/-! ### Present and left out -/

def CameIn (earlier later : Progress) (name : String) : Prop :=
  (name ∈ later.names ∧ name ∉ earlier.names) ∨ (name ∈ later.reads ∧ name ∉ earlier.reads)

/-- A name is left out when a module that came in requires it. -/
def LeftOut (known : ModuleDescriptor → Prop) (start progress : Progress) (name : String) :
    Prop :=
  ∃ module, known module ∧ start.CameIn progress module.name ∧ name ∈ module.requires

variable {request : Request} {known : ModuleDescriptor → Prop} {start progress : Progress}

theorem CameIn.extends {later : Progress} {name : String} (came : start.CameIn progress name)
    (grown : progress.Extends later) : start.CameIn later name := by
  rcases came with ⟨present, absent⟩ | ⟨present, absent⟩
  · exact Or.inl ⟨grown.mem_names present, absent⟩
  · exact Or.inr ⟨grown.mem_reads present, absent⟩

/-- Whatever is done is present or left out. -/
def Explained (known : ModuleDescriptor → Prop) (request : Request)
    (start progress : Progress) : Prop :=
  ∀ name ∈ progress.done, progress.Has request name ∨ LeftOut known start progress name

private theorem explained_later {later : Progress} {name : String}
    (explained : progress.Has request name ∨ LeftOut known start progress name)
    (grown : progress.Extends later) :
    later.Has request name ∨ LeftOut known start later name := by
  rcases explained with has | ⟨module, isKnown, came, required⟩
  · exact Or.inl (has.extends grown)
  · exact Or.inr ⟨module, isKnown, came.extends grown, required⟩

private theorem cameIn_step {answer : Answer} {module : ModuleDescriptor}
    (sofar : start.Extends progress) (named : answer.descriptor = some module)
    (isOpen : module.name ∉ progress.done) (new : progress.isNew request module.name = true) :
    start.CameIn (progress.step request answer) module.name := by
  rw [step_of_open named isOpen]
  simp only [isNew, Bool.or_eq_true, Bool.and_eq_true, decide_eq_true_eq] at new
  rcases new with ⟨adds, absent⟩ | ⟨reads, absent⟩
  · refine Or.inl ⟨(mem_insertIf _ _ _ _).mpr (Or.inr ⟨adds, rfl⟩), ?_⟩
    intro before
    exact absent (sofar.mem_names before)
  · refine Or.inr ⟨(mem_insertIf _ _ _ _).mpr (Or.inr ⟨reads, rfl⟩), ?_⟩
    intro before
    exact absent (sofar.mem_reads before)

private theorem has_step {answer : Answer} {module : ModuleDescriptor}
    (named : answer.descriptor = some module) (isOpen : module.name ∉ progress.done) :
    (progress.step request answer).Has request module.name := by
  rw [step_of_open named isOpen]
  constructor
  · intro adds
    exact (mem_insertIf _ _ _ _).mpr (Or.inr ⟨adds, rfl⟩)
  · intro reads
    exact (mem_insertIf _ _ _ _).mpr (Or.inr ⟨reads, rfl⟩)

theorem step_explained {answer : Answer} (sofar : start.Extends progress)
    (explained : Explained known request start progress)
    (isKnown : ∀ module, answer.descriptor = some module → known module) :
    Explained known request start (progress.step request answer) := by
  have grown := step_extends request progress answer
  intro name isDone
  cases described : answer.descriptor with
  | none =>
      rw [step_of_unnamed described] at isDone
      exact explained_later (explained name isDone) grown
  | some module =>
      by_cases already : module.name ∈ progress.done
      · rw [step_of_done described already] at isDone
        exact explained_later (explained name isDone) grown
      · have origin := isDone
        rw [step_of_open described already] at origin
        rcases (mem_doneAfter module name).mp origin with before | same | ⟨new, required⟩
        · exact explained_later (explained name before) grown
        · subst same
          exact Or.inl (has_step described already)
        · exact Or.inr ⟨module, isKnown module described,
            cameIn_step sofar described already new, required⟩

theorem run_explained {answers : List Answer} (sofar : start.Extends progress)
    (explained : Explained known request start progress)
    (isKnown : ∀ answer ∈ answers, ∀ module, answer.descriptor = some module → known module) :
    Explained known request start (progress.run request answers) := by
  induction answers generalizing progress with
  | nil => exact explained
  | cons answer rest ih =>
      rw [List.forall_mem_cons] at isKnown
      exact ih (sofar.trans (step_extends request progress answer))
        (step_explained sofar explained isKnown.1) isKnown.2

theorem leftOut_of_run (fresh : start.done = .empty) {answers : List Answer} {answer : Answer}
    (isKnown : ∀ other ∈ answers, ∀ module, other.descriptor = some module → known module)
    (here : answer ∈ answers) {module : ModuleDescriptor}
    (named : answer.descriptor = some module)
    (absent : ¬(start.run request answers).Has request module.name) :
    LeftOut known start (start.run request answers) module.name := by
  have nothing : Explained known request start start := by
    intro name isDone
    rw [fresh] at isDone
    exact False.elim (DistinctList.not_mem_empty name isDone)
  have explained := run_explained (Extends.refl start) nothing isKnown
  exact (explained module.name (mem_done_run here named request start)).resolve_left absent

/-! ### When nothing changes -/

/-- Is nothing added or read between two states of a pass? -/
structure Unchanged (earlier later : Progress) : Prop where
  names : later.names = earlier.names
  reads : later.reads = earlier.reads

theorem has_congr (request : Request) {earlier later : Progress}
    (names : later.names = earlier.names) (reads : later.reads = earlier.reads)
    (name : String) :
    later.Has request name ↔ earlier.Has request name := by
  constructor
  · intro given
    rcases given with ⟨added, read⟩
    rw [names] at added
    rw [reads] at read
    exact ⟨added, read⟩
  · intro given
    rcases given with ⟨added, read⟩
    rw [← names] at added
    rw [← reads] at read
    exact ⟨added, read⟩

theorem step_unchanged {answer : Answer}
    (has : ∀ module, answer.descriptor = some module → progress.Has request module.name)
    (unnamed : request.reads = true → answer.descriptor = none → allUnnamed ∈ progress.reads) :
    progress.Unchanged (progress.step request answer) := by
  cases described : answer.descriptor with
  | none =>
      rw [step_of_unnamed described]
      exact ⟨rfl, insertIf_of_mem fun reads => unnamed reads described⟩
  | some module =>
      by_cases isDone : module.name ∈ progress.done
      · rw [step_of_done described isDone]
        exact ⟨rfl, rfl⟩
      · rw [step_of_open described isDone]
        have present := has module described
        exact ⟨insertIf_of_mem present.added, insertIf_of_mem present.read⟩

theorem run_unchanged {answers : List Answer}
    (has : ∀ answer ∈ answers, ∀ module, answer.descriptor = some module →
      progress.Has request module.name)
    (unnamed : request.reads = true → ∀ answer ∈ answers, answer.descriptor = none →
      allUnnamed ∈ progress.reads) :
    progress.Unchanged (progress.run request answers) := by
  induction answers generalizing progress with
  | nil => exact ⟨rfl, rfl⟩
  | cons answer rest ih =>
      have here : progress.Unchanged (progress.step request answer) :=
        step_unchanged (has answer List.mem_cons_self)
          (fun reads => unnamed reads answer List.mem_cons_self)
      have later : (progress.step request answer).Unchanged
          ((progress.step request answer).run request rest) := by
        apply ih
        · intro other present module named
          exact (has_congr request here.names here.reads module.name).mpr
            (has other (List.mem_cons_of_mem answer present) module named)
        · intro reads other present described
          rw [here.reads]
          exact unnamed reads other (List.mem_cons_of_mem answer present) described
      exact ⟨later.names.trans here.names, later.reads.trans here.reads⟩

private theorem eq_of_prefixes {earlier between later : NameSet}
    (first : earlier.toList <+: between.toList) (second : between.toList <+: later.toList)
    (same : later = earlier) : between = earlier := by
  subst same
  exact DistinctList.eq_of_toList (second.sublist.antisymm first.sublist)

private theorem has_of_step {answer : Answer}
    (names : (progress.step request answer).names = progress.names)
    (reads : (progress.step request answer).reads = progress.reads)
    (present : ∀ name ∈ progress.done, progress.Has request name) {module : ModuleDescriptor}
    (named : answer.descriptor = some module) : progress.Has request module.name := by
  by_cases isDone : module.name ∈ progress.done
  · exact present module.name isDone
  · exact (has_congr request names reads module.name).mp (has_step named isDone)

private theorem done_of_step {answer : Answer}
    (names : (progress.step request answer).names = progress.names)
    (reads : (progress.step request answer).reads = progress.reads)
    (present : ∀ name ∈ progress.done, progress.Has request name) :
    ∀ name ∈ (progress.step request answer).done, progress.Has request name := by
  intro name isDone
  cases described : answer.descriptor with
  | none =>
      rw [step_of_unnamed described] at isDone
      exact present name isDone
  | some module =>
      have has := has_of_step names reads present described
      by_cases already : module.name ∈ progress.done
      · rw [step_of_done described already] at isDone
        exact present name isDone
      · rw [step_of_open described already] at isDone
        rcases (mem_doneAfter module name).mp isDone with before | same | ⟨new, _⟩
        · exact present name before
        · subst same
          exact has
        · rw [(isNew_eq_false_iff request progress module.name).mpr has] at new
          cases new

/-- A run that adds and reads nothing finds every module present. -/
theorem has_of_run {answers : List Answer}
    (names : (progress.run request answers).names = progress.names)
    (reads : (progress.run request answers).reads = progress.reads)
    (present : ∀ name ∈ progress.done, progress.Has request name) :
    ∀ answer ∈ answers, ∀ module, answer.descriptor = some module →
      progress.Has request module.name := by
  induction answers generalizing progress with
  | nil =>
      intro answer absent
      cases absent
  | cons answer rest ih =>
      have first := step_extends request progress answer
      have second := run_extends request (progress.step request answer) rest
      have names' := eq_of_prefixes first.names second.names names
      have reads' := eq_of_prefixes first.reads second.reads reads
      have unchanged := has_congr request names' reads'
      rw [List.forall_mem_cons]
      constructor
      · intro module named
        exact has_of_step names' reads' present named
      · intro other later module named
        apply (unchanged module.name).mp
        refine ih (names.trans names'.symm) (reads.trans reads'.symm) ?_ other later module named
        intro name isDone
        exact (unchanged name).mpr (done_of_step names' reads' present name isDone)

end Progress

/-! ### The second pass -/

section Again

variable {inspection : Inspection} {view : DependencyView} {runtime : Bool}
  {roots : RootModules} {patch : ModulePatch}

private theorem expand_of_idle (idle : (Request.ofPatch patch).isAny = false) :
    expand inspection view runtime roots patch = ⟨roots, patch, view, pure ()⟩ := by
  simp only [expand, idle, Bool.false_eq_true, if_false]

private theorem request_expand :
    Request.ofPatch (expand inspection view runtime roots patch).patch =
      Request.ofPatch patch := by
  rw [patch_expand]
  rfl

private def between (inspection : Inspection) (view : DependencyView) (runtime : Bool)
    (roots : RootModules) (patch : ModulePatch) : Progress :=
  { (Progress.start roots patch).run (Request.ofPatch patch)
      (testAnswers inspection view runtime) with done := .empty }

private theorem start_again :
    Progress.start (expand inspection view runtime roots patch).roots
        (expand inspection view runtime roots patch).patch =
      between inspection view runtime roots patch := by
  rw [roots_expand, patch_expand]
  rfl

private theorem run_again (readable : IsReadable inspection view runtime) :
    (Progress.start (expand inspection view runtime roots patch).roots
        (expand inspection view runtime roots patch).patch).run
      (Request.ofPatch (expand inspection view runtime roots patch).patch)
      (testAnswers inspection (expand inspection view runtime roots patch).view runtime) =
    (between inspection view runtime roots patch).run (Request.ofPatch patch)
      (testAnswers inspection view runtime) := by
  rw [start_again, request_expand]
  exact Progress.run_congr
    (testAnswers_congr (expand_view_agrees inspection view runtime roots patch) readable) _ _

private theorem leftOut_of_cameIn (readable : IsReadable inspection view runtime)
    {name : String}
    (came : (between inspection view runtime roots patch).CameIn
      ((between inspection view runtime roots patch).run (Request.ofPatch patch)
        (testAnswers inspection view runtime)) name) :
    (∃ module, view.IsTestArtifact inspection runtime (some module) ∧ module.name = name) ∧
      Progress.LeftOut (fun module => view.IsTestArtifact inspection runtime (some module))
        (Progress.start roots patch) (between inspection view runtime roots patch) name := by
  have isKnown : ∀ answer ∈ testAnswers inspection view runtime, ∀ module,
      answer.descriptor = some module → view.IsTestArtifact inspection runtime (some module) :=
    fun answer present module named =>
      (mem_testAnswers_iff readable (some module)).mp ⟨answer, present, named⟩
  rcases came with ⟨present, absent⟩ | ⟨present, absent⟩
  · rcases Progress.origin_of_mem_names_run present with
      before | ⟨adds, answer, here, module, named, same⟩
    · exact False.elim (absent before)
    · subst same
      refine ⟨⟨module, isKnown answer here module named, rfl⟩, ?_⟩
      apply Progress.leftOut_of_run rfl isKnown here named
      intro has
      exact absent (has.added adds)
  · rcases Progress.origin_of_mem_reads_run present with before | ⟨reads, answer, here, same⟩
    · exact False.elim (absent before)
    · cases described : answer.descriptor with
      | none =>
          rw [described] at same
          subst same
          exact False.elim (absent (Progress.mem_reads_run_of_unnamed reads here described _))
      | some module =>
          rw [described] at same
          subst same
          refine ⟨⟨module, isKnown answer here module described, rfl⟩, ?_⟩
          apply Progress.leftOut_of_run rfl isKnown here described
          intro has
          exact absent (has.read reads)

private theorem unchanged_again_iff (readable : IsReadable inspection view runtime) :
    (between inspection view runtime roots patch).Unchanged
        ((between inspection view runtime roots patch).run (Request.ofPatch patch)
          (testAnswers inspection view runtime)) ↔
      ∀ module, view.IsTestArtifact inspection runtime (some module) →
        (between inspection view runtime roots patch).Has (Request.ofPatch patch)
          module.name := by
  constructor
  · intro same module artifact
    obtain ⟨answer, here, named⟩ := (mem_testAnswers_iff readable (some module)).mpr artifact
    refine Progress.has_of_run same.names same.reads ?_ answer here module named
    intro name isDone
    exact False.elim (DistinctList.not_mem_empty name isDone)
  · intro has
    apply Progress.run_unchanged
    · intro answer here module named
      exact has module ((mem_testAnswers_iff readable (some module)).mp ⟨answer, here, named⟩)
    · intro reads answer here unnamed
      exact Progress.mem_reads_run_of_unnamed reads here unnamed _

private theorem testModules_again :
    ((between inspection view runtime roots patch).run (Request.ofPatch patch)
        (testAnswers inspection view runtime)).testModules =
      (between inspection view runtime roots patch).testModules := by
  apply Progress.testModules_run_of_mem
  intro exports answer here
  exact Progress.mem_testModules_run exports here _

private theorem roots_again (readable : IsReadable inspection view runtime) :
    let first := expand inspection view runtime roots patch
    (expand inspection first.view runtime first.roots first.patch).roots =
      { first.roots with
        names := ((between inspection view runtime roots patch).run (Request.ofPatch patch)
          (testAnswers inspection view runtime)).names } := by
  intro first
  rw [roots_expand, run_again readable]

private theorem patch_again (readable : IsReadable inspection view runtime) :
    let first := expand inspection view runtime roots patch
    (expand inspection first.view runtime first.roots first.patch).patch =
      { first.patch with
        addReads := ((between inspection view runtime roots patch).run (Request.ofPatch patch)
          (testAnswers inspection view runtime)).reads } := by
  intro first
  have exported : first.patch.testModules =
      (between inspection view runtime roots patch).testModules :=
    congrArg ModulePatch.testModules (patch_expand inspection view runtime roots patch)
  rw [patch_expand, run_again readable, testModules_again, ← exported]

private theorem present_iff (module : ModuleDescriptor) :
    (between inspection view runtime roots patch).Has (Request.ofPatch patch) module.name ↔
      (patch.addTestModules = true →
        module.name ∈ (expand inspection view runtime roots patch).roots.names) ∧
      (patch.readTestModules = true →
        module.name ∈ (expand inspection view runtime roots patch).patch.addReads) := by
  rw [roots_expand, patch_expand]
  constructor
  · intro has
    exact ⟨has.added, has.read⟩
  · intro both
    exact ⟨both.1, both.2⟩

/-- A second pass with the same view completes as the first did.  It changes no more than the
modules added and read, which it may extend by modules that the first pass left out because a
module it took in requires them; it changes nothing exactly when every module is present. -/
theorem expand_again
    (completes : (expand inspection view runtime roots patch).report.result = .ok ()) :
    let first := expand inspection view runtime roots patch
    let second := expand inspection first.view runtime first.roots first.patch
    second.report.result = .ok () ∧
    second.roots = { first.roots with names := second.roots.names } ∧
    second.patch = { first.patch with addReads := second.patch.addReads } ∧
    first.roots.names.toList <+: second.roots.names.toList ∧
    first.patch.addReads.toList <+: second.patch.addReads.toList ∧
    (∀ name,
      (name ∈ second.roots.names ∧ name ∉ first.roots.names) ∨
        (name ∈ second.patch.addReads ∧ name ∉ first.patch.addReads) →
      (∃ module, view.IsTestArtifact inspection runtime (some module) ∧ module.name = name) ∧
      ∃ module, view.IsTestArtifact inspection runtime (some module) ∧
        ((module.name ∈ first.roots.names ∧ module.name ∉ roots.names) ∨
          (module.name ∈ first.patch.addReads ∧ module.name ∉ patch.addReads)) ∧
        name ∈ module.requires) ∧
    (second.roots = first.roots ∧ second.patch = first.patch ↔
      ∀ module, view.IsTestArtifact inspection runtime (some module) →
        (patch.addTestModules = true → module.name ∈ first.roots.names) ∧
        (patch.readTestModules = true → module.name ∈ first.patch.addReads)) := by
  intro first second
  cases asked : (Request.ofPatch patch).isAny with
  | false =>
      have again : second = first := by
        have same : first = ⟨roots, patch, view, pure ()⟩ := expand_of_idle asked
        simp only [second, same]
        exact expand_of_idle asked
      rw [again]
      refine ⟨completes, rfl, rfl, List.prefix_refl _, List.prefix_refl _, ?_, ?_⟩
      · intro name given
        rcases given with ⟨present, absent⟩ | ⟨present, absent⟩
        · exact False.elim (absent present)
        · exact False.elim (absent present)
      · simp only [Request.isAny, Request.ofPatch, Bool.or_eq_false_iff] at asked
        simp [asked]
  | true =>
      have readable := (expand_completes_iff inspection view runtime roots patch).mp completes asked
      have firstNames : first.roots.names = (between inspection view runtime roots patch).names :=
        congrArg RootModules.names (roots_expand inspection view runtime roots patch)
      have firstReads : first.patch.addReads =
          (between inspection view runtime roots patch).reads :=
        congrArg ModulePatch.addReads (patch_expand inspection view runtime roots patch)
      have secondRoots : second.roots = _ := roots_again readable
      have secondPatch : second.patch = _ := patch_again readable
      have grown := Progress.run_extends (Request.ofPatch patch)
        (between inspection view runtime roots patch) (testAnswers inspection view runtime)
      refine ⟨?completes, ?roots, ?patch, ?names, ?reads, ?origin, ?unchanged⟩
      case completes =>
        apply (expand_completes_iff inspection first.view runtime _ _).mpr
        intro _
        exact (isReadable_congr (expand_view_agrees inspection view runtime roots patch)).mpr
          readable
      case roots => rw [secondRoots]
      case patch => rw [secondPatch]
      case names =>
        rw [secondRoots, firstNames]
        exact grown.names
      case reads =>
        rw [secondPatch, firstReads]
        exact grown.reads
      case origin =>
        intro name came
        rw [secondRoots, secondPatch, firstNames, firstReads] at came
        rw [firstNames, firstReads]
        exact leftOut_of_cameIn readable came
      case unchanged =>
        have has : (∀ module, view.IsTestArtifact inspection runtime (some module) →
            (between inspection view runtime roots patch).Has (Request.ofPatch patch)
              module.name) ↔ _ := forall₂_congr fun module _ => present_iff module
        rw [← has, ← unchanged_again_iff readable, secondRoots, secondPatch]
        constructor
        · intro given
          rcases given with ⟨sameRoots, samePatch⟩
          exact ⟨(congrArg RootModules.names sameRoots).trans firstNames,
            (congrArg ModulePatch.addReads samePatch).trans firstReads⟩
        · intro given
          rcases given with ⟨names, reads⟩
          rw [names, reads, ← firstNames, ← firstReads]
          exact ⟨rfl, rfl⟩

end Again

def chainView : DependencyView :=
  let view : DependencyView := {}
  let view := view.add ⟨"bar", .test⟩ ⟨.relative, ["bar.jar"]⟩
    (some { name := "bar", requires := ["baz"] }) false
  view.add ⟨"baz", .test⟩ ⟨.relative, ["baz.jar"]⟩ (some { name := "baz" }) false

theorem expand_again_chain :
    let first := expand noInspection chainView false {} (.create (some "app"))
    let second := expand noInspection first.view false first.roots first.patch
    first.report.result = .ok () ∧ second.report.result = .ok () ∧
      first.roots.names.toList <+: second.roots.names.toList ∧
      second.patch = { first.patch with addReads := second.patch.addReads } :=
  have again := @expand_again noInspection chainView false {} (.create (some "app")) rfl
  ⟨rfl, again.1, again.2.2.2.1, again.2.2.1⟩

/-- A second pass may add a module that the first one left out. -/
theorem expand_again_chain_changes :
    let first := expand noInspection chainView false {} (.create (some "app"))
    let second := expand noInspection first.view false first.roots first.patch
    first.report.result = .ok () ∧ first.roots.names.toList = ["bar"] ∧
      second.roots.names.toList = ["bar", "baz"] ∧
      ¬(second.roots = first.roots ∧ second.patch = first.patch) := by
  refine ⟨rfl, rfl, rfl, ?_⟩
  intro given
  rcases given with ⟨same, _⟩
  have names : ["bar", "baz"] = ["bar"] := congrArg (fun roots => roots.names.toList) same
  simp at names

end ModulePlan.TestModulePath
