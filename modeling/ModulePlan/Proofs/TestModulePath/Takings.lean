/-
What a pass may append.

The names appended at each artifact are read off the progress before and after it.  No more
than its own name is appended at an artifact, only where the patch asks for it, and nothing if
an earlier artifact at which something was appended requires its module.  Dependencies that are
not on the test module path have no part in a pass.
-/

import ModulePlan.Proofs.TestModulePath.Pass

namespace ModulePlan.TestModulePath

/-- The names that are appended at one artifact. -/
structure Taking where
  descriptor : Option ModuleDescriptor
  added : List String
  read : List String
deriving DecidableEq

def Taking.IsChange (taking : Taking) : Prop :=
  taking.added ≠ [] ∨ taking.read ≠ []

/-- Where names are appended for two modules, the first does not require the second. -/
def Taking.Spares (earlier later : Taking) : Prop :=
  ∀ module other, earlier.descriptor = some module → later.descriptor = some other →
    earlier.IsChange → later.IsChange → other.name ∉ module.requires

namespace Progress

def taking (request : Request) (progress : Progress) (answer : Answer) : Taking :=
  let later := progress.step request answer
  { descriptor := answer.descriptor
    added := later.names.toList.drop progress.names.size
    read := later.reads.toList.drop progress.reads.size }

def takings (request : Request) (progress : Progress) : List Answer → List Taking
  | [] => []
  | answer :: rest =>
    progress.taking request answer :: (progress.step request answer).takings request rest

variable {request : Request} {progress : Progress} {answer : Answer}

/-! ### One step -/

private theorem drop_size (names : NameSet) : names.toList.drop names.size = [] :=
  List.drop_length

private theorem append_drop_of_prefix {names later : NameSet}
    (grown : names.toList <+: later.toList) :
    later.toList = names.toList ++ later.toList.drop names.size :=
  (List.prefix_iff_eq_append.mp grown).symm

theorem names_step_eq_append (request : Request) (progress : Progress) (answer : Answer) :
    (progress.step request answer).names.toList =
      progress.names.toList ++ (progress.taking request answer).added :=
  append_drop_of_prefix (step_extends request progress answer).names

theorem reads_step_eq_append (request : Request) (progress : Progress) (answer : Answer) :
    (progress.step request answer).reads.toList =
      progress.reads.toList ++ (progress.taking request answer).read :=
  append_drop_of_prefix (step_extends request progress answer).reads

private theorem drop_insertIf (wanted : Bool) (names : NameSet) (name : String) :
    (insertIf wanted names name).toList.drop names.size = [] ∨
      wanted = true ∧ (insertIf wanted names name).toList.drop names.size = [name] := by
  cases wanted with
  | false => exact Or.inl (drop_size names)
  | true =>
      rw [insertIf, if_pos rfl, DistinctList.toList_insert]
      split
      · exact Or.inl (drop_size names)
      · exact Or.inr ⟨rfl, List.drop_left⟩

theorem added_taking (request : Request) (progress : Progress) (answer : Answer) :
    (progress.taking request answer).added = [] ∨
      request.adds = true ∧ ∃ module, answer.descriptor = some module ∧
        (progress.taking request answer).added = [module.name] := by
  unfold taking
  cases described : answer.descriptor with
  | none =>
      rw [step_of_unnamed described]
      exact Or.inl (drop_size progress.names)
  | some module =>
      by_cases isDone : module.name ∈ progress.done
      · rw [step_of_done described isDone]
        exact Or.inl (drop_size progress.names)
      · rw [step_of_open described isDone]
        refine (drop_insertIf request.adds progress.names module.name).imp_right ?_
        rintro ⟨adds, same⟩
        exact ⟨adds, module, rfl, same⟩

theorem read_taking (request : Request) (progress : Progress) (answer : Answer) :
    (progress.taking request answer).read = [] ∨
      request.reads = true ∧
        (progress.taking request answer).read = [exportName answer.descriptor] := by
  unfold taking
  cases described : answer.descriptor with
  | none =>
      rw [step_of_unnamed described]
      exact drop_insertIf request.reads progress.reads allUnnamed
  | some module =>
      by_cases isDone : module.name ∈ progress.done
      · rw [step_of_done described isDone]
        exact Or.inl (drop_size progress.reads)
      · rw [step_of_open described isDone]
        exact drop_insertIf request.reads progress.reads module.name

/-- Nothing is appended for a module that is done. -/
theorem not_isChange_of_done {module : ModuleDescriptor}
    (named : answer.descriptor = some module) (isDone : module.name ∈ progress.done) :
    ¬(progress.taking request answer).IsChange := by
  unfold taking Taking.IsChange
  rw [step_of_done named isDone]
  rintro (added | read)
  · exact added (drop_size progress.names)
  · exact read (drop_size progress.reads)

/-- Where something is appended for a module, all that it requires is done. -/
theorem requires_done_of_isChange {module : ModuleDescriptor}
    (named : answer.descriptor = some module)
    (change : (progress.taking request answer).IsChange) :
    ∀ name ∈ module.requires, name ∈ (progress.step request answer).done := by
  have isOpen : module.name ∉ progress.done := fun isDone =>
    not_isChange_of_done named isDone change
  rw [step_of_open named isOpen]
  intro name required
  refine (mem_doneAfter module name).mpr (Or.inr (Or.inr ⟨?_, required⟩))
  cases new : progress.isNew request module.name with
  | true => rfl
  | false =>
      exfalso
      have has := (isNew_eq_false_iff request progress module.name).mp new
      unfold taking Taking.IsChange at change
      rw [step_of_open named isOpen] at change
      rw [insertIf_of_mem has.added, insertIf_of_mem has.read] at change
      rcases change with added | read
      · exact added (drop_size progress.names)
      · exact read (drop_size progress.reads)

/-! ### All steps -/

theorem descriptors_takings (request : Request) (progress : Progress) (answers : List Answer) :
    (progress.takings request answers).map Taking.descriptor = answers.map Answer.descriptor := by
  induction answers generalizing progress with
  | nil => rfl
  | cons answer rest ih => exact congrArg (answer.descriptor :: ·) (ih _)

/-- What each step appends to a set of names, a run appends in order. -/
private theorem run_eq_append {field : Progress → NameSet} {part : Taking → List String}
    (step : ∀ progress answer, (field (progress.step request answer)).toList =
      (field progress).toList ++ part (progress.taking request answer))
    (progress : Progress) (answers : List Answer) :
    (field (progress.run request answers)).toList =
      (field progress).toList ++ (progress.takings request answers).flatMap part := by
  induction answers generalizing progress with
  | nil => exact (List.append_nil _).symm
  | cons answer rest ih =>
      rw [run_cons, ih, step, takings, List.flatMap_cons, List.append_assoc]

theorem names_run_eq_append (request : Request) (progress : Progress) (answers : List Answer) :
    (progress.run request answers).names.toList =
      progress.names.toList ++ (progress.takings request answers).flatMap Taking.added :=
  run_eq_append (names_step_eq_append request) progress answers

theorem reads_run_eq_append (request : Request) (progress : Progress) (answers : List Answer) :
    (progress.run request answers).reads.toList =
      progress.reads.toList ++ (progress.takings request answers).flatMap Taking.read :=
  run_eq_append (reads_step_eq_append request) progress answers

/-- Every taking of a run is that of a step from a progress that extends the first. -/
theorem step_of_mem_takings {answers : List Answer} {taken : Taking}
    (present : taken ∈ progress.takings request answers) :
    ∃ earlier answer, progress.Extends earlier ∧ answer ∈ answers ∧
      taken = earlier.taking request answer := by
  induction answers generalizing progress with
  | nil => cases present
  | cons answer rest ih =>
      rcases List.mem_cons.mp present with rfl | later
      · exact ⟨progress, answer, Extends.refl progress, List.mem_cons_self, rfl⟩
      · obtain ⟨earlier, other, grown, among, same⟩ := ih later
        exact ⟨earlier, other, (step_extends request progress answer).trans grown,
          List.mem_cons_of_mem _ among, same⟩

theorem takings_spare (request : Request) (progress : Progress) (answers : List Answer) :
    (progress.takings request answers).Pairwise Taking.Spares := by
  induction answers generalizing progress with
  | nil => exact List.Pairwise.nil
  | cons answer rest ih =>
      refine List.pairwise_cons.mpr ⟨?_, ih _⟩
      intro later present module other named otherNamed change otherChange required
      obtain ⟨between, otherAnswer, grown, _, rfl⟩ := step_of_mem_takings present
      have isDone := grown.done _ (requires_done_of_isChange named change other.name required)
      exact not_isChange_of_done otherNamed isDone otherChange

end Progress

/-! ### The pass -/

/-- What a pass appends at each artifact that it is told of. -/
def takings (inspection : Inspection) (view : DependencyView) (runtime : Bool)
    (roots : RootModules) (patch : ModulePatch) : List Taking :=
  (Progress.start roots patch).takings (Request.ofPatch patch)
    (testAnswers inspection view runtime)

/-- The takings account for all that a pass changes, but for the modules exported to. -/
structure Pass.IsExplained (pass : Pass) (roots : RootModules) (patch : ModulePatch)
    (takings : List Taking) : Prop where
  otherRoots : pass.roots = { roots with names := pass.roots.names }
  otherFields : pass.patch =
    { patch with addReads := pass.patch.addReads, testModules := pass.patch.testModules }
  added : pass.roots.names.toList = roots.names.toList ++ takings.flatMap Taking.added
  read : pass.patch.addReads.toList = patch.addReads.toList ++ takings.flatMap Taking.read
  addedOnce : (roots.names.toList ++ takings.flatMap Taking.added).Nodup
  readOnce : (patch.addReads.toList ++ takings.flatMap Taking.read).Nodup

/-- The takings are those at the artifacts on the test module path, in their order, and of
each artifact no more than its own name is taken. -/
structure AreOwn (inspection : Inspection) (view : DependencyView) (runtime : Bool)
    (patch : ModulePatch) (takings : List Taking) : Prop where
  artifacts : ∃ answered, answered <+: view.applicable runtime ∧
    answered.map (fun entry => view.describe inspection entry.2) =
      takings.map (fun taking => .ok taking.descriptor)
  added : ∀ taking ∈ takings, taking.added = [] ∨
    patch.addTestModules = true ∧ ∃ module, taking.descriptor = some module ∧
      taking.added = [module.name]
  read : ∀ taking ∈ takings, taking.read = [] ∨
    patch.readTestModules = true ∧
      taking.read = [Progress.exportName taking.descriptor]

/-- Two views know the same, and are told the same, of the artifacts on the test module path. -/
structure AgreeOnTestPath (inspection other : Inspection) (view otherView : DependencyView)
    (runtime : Bool) : Prop where
  applicable : otherView.applicable runtime = view.applicable runtime
  known : ∀ entry ∈ view.applicable runtime,
    otherView.descriptors.get? entry.2 = view.descriptors.get? entry.2
  told : ∀ entry ∈ view.applicable runtime, other entry.2 = inspection entry.2

/-- But for what is remembered of artifacts, two passes come to the same. -/
structure Pass.SameOutcome (left right : Pass) : Prop where
  roots : left.roots = right.roots
  patch : left.patch = right.patch
  report : left.report = right.report

theorem expand_isExplained (inspection : Inspection) (view : DependencyView) (runtime : Bool)
    (roots : RootModules) (patch : ModulePatch) :
    (expand inspection view runtime roots patch).IsExplained roots patch
      (takings inspection view runtime roots patch) := by
  have added : (expand inspection view runtime roots patch).roots.names.toList =
      roots.names.toList ++
        (takings inspection view runtime roots patch).flatMap Taking.added := by
    rw [roots_expand]
    exact Progress.names_run_eq_append _ _ _
  have read : (expand inspection view runtime roots patch).patch.addReads.toList =
      patch.addReads.toList ++
        (takings inspection view runtime roots patch).flatMap Taking.read := by
    rw [patch_expand]
    exact Progress.reads_run_eq_append _ _ _
  refine ⟨?_, ?_, added, read, ?_, ?_⟩
  · rw [roots_expand]
  · rw [patch_expand]
  · rw [← added]
    exact DistinctList.nodup _
  · rw [← read]
    exact DistinctList.nodup _

theorem takings_areOwn (inspection : Inspection) (view : DependencyView) (runtime : Bool)
    (roots : RootModules) (patch : ModulePatch) :
    AreOwn inspection view runtime patch (takings inspection view runtime roots patch) := by
  constructor
  · obtain ⟨answered, begins, said⟩ :=
      Survey.answered_of_take inspection view (view.applicable runtime)
    refine ⟨answered, begins, ?_⟩
    have same := Progress.descriptors_takings (Request.ofPatch patch)
      (Progress.start roots patch) (testAnswers inspection view runtime)
    have told := congrArg (List.map (Except.ok (ε := Fault))) same
    rw [List.map_map, List.map_map] at told
    exact said.trans told.symm
  · intro taken present
    obtain ⟨earlier, answer, _, _, rfl⟩ := Progress.step_of_mem_takings present
    exact Progress.added_taking _ _ _
  · intro taken present
    obtain ⟨earlier, answer, _, _, rfl⟩ := Progress.step_of_mem_takings present
    exact Progress.read_taking _ _ _

theorem expand_congr {inspection other : Inspection} {view otherView : DependencyView}
    {runtime : Bool} (agree : AgreeOnTestPath inspection other view otherView runtime)
    (roots : RootModules) (patch : ModulePatch) :
    (expand other otherView runtime roots patch).SameOutcome
      (expand inspection view runtime roots patch) := by
  obtain ⟨answers, failure⟩ := Survey.take_congr agree.known agree.told
  cases asked : (Request.ofPatch patch).isAny with
  | false =>
      simp only [expand, asked, Bool.false_eq_true, if_false]
      exact ⟨rfl, rfl, rfl⟩
  | true =>
      simp only [expand, asked, if_true]
      rw [agree.applicable, answers, failure]
      exact ⟨rfl, rfl, rfl⟩

theorem get?_expand {view : DependencyView} {runtime : Bool} {path : FilePath}
    (absent : ∀ entry ∈ view.applicable runtime, entry.2 ≠ path) (inspection : Inspection)
    (roots : RootModules) (patch : ModulePatch) :
    (expand inspection view runtime roots patch).view.descriptors.get? path =
      view.descriptors.get? path := by
  cases asked : (Request.ofPatch patch).isAny with
  | false => simp only [expand, asked, Bool.false_eq_true, if_false]
  | true =>
      simp only [expand, asked, if_true]
      exact Survey.get?_take inspection absent

/-- A pass appends, in the order of the dependencies, names of artifacts on the test module
path that the patch asks for and that no module taken before requires.  It looks at no other
artifact, and would come to the same without the other dependencies. -/
theorem appended_of_expand (inspection : Inspection) (view : DependencyView) (runtime : Bool)
    (roots : RootModules) (patch : ModulePatch) :
    let pass := expand inspection view runtime roots patch
    let taken := takings inspection view runtime roots patch
    pass.IsExplained roots patch taken ∧
    AreOwn inspection view runtime patch taken ∧
    taken.Pairwise Taking.Spares ∧
    (∀ other otherView, AgreeOnTestPath inspection other view otherView runtime →
      (expand other otherView runtime roots patch).SameOutcome pass) ∧
    (expand inspection (view.onTestPath runtime) runtime roots patch).SameOutcome pass ∧
    ∀ path, (∀ entry ∈ view.applicable runtime, entry.2 ≠ path) →
      pass.view.descriptors.get? path = view.descriptors.get? path := by
  intro pass taken
  refine ⟨expand_isExplained _ _ _ _ _, takings_areOwn _ _ _ _ _,
    Progress.takings_spare _ _ _, ?_, ?_, ?_⟩
  · intro other otherView agree
    exact expand_congr agree roots patch
  · have agree : AgreeOnTestPath inspection inspection view (view.onTestPath runtime) runtime :=
      ⟨view.applicable_onTestPath runtime, fun _ _ => rfl, fun _ _ => rfl⟩
    exact expand_congr agree roots patch
  · intro path absent
    exact get?_expand absent inspection roots patch

/-- A module that requires a later one, an artifact that cannot be read and is not on the test
module path, and one that is no module. -/
def mixedView : DependencyView :=
  let add := fun (view : DependencyView) (name : String) (descriptor : Option ModuleDescriptor) =>
    view.add ⟨name, .test⟩ ⟨.relative, [name]⟩ descriptor false
  let view := add {} "junit" (some { name := "junit", requires := ["base"] })
  let view := view.add ⟨"broken", .compile⟩ ⟨.relative, ["broken"]⟩ none true
  let view := add view "classes" none
  add view "base" (some { name := "base" })

theorem appended_of_expand_mixed :
    let patch := ModulePatch.create (some "app")
    let pass := expand noInspection mixedView false {} patch
    let taken := takings noInspection mixedView false {} patch
    taken = [⟨some { name := "junit", requires := ["base"] }, ["junit"], ["junit"]⟩,
      ⟨none, [], [allUnnamed]⟩, ⟨some { name := "base" }, [], []⟩] ∧
    pass.IsExplained {} patch taken ∧
    (expand noInspection (mixedView.onTestPath false) false {} patch).SameOutcome pass := by
  intro patch pass taken
  obtain ⟨explained, _, _, _, removed, _⟩ :=
    appended_of_expand noInspection mixedView false {} patch
  exact ⟨by decide, explained, removed⟩

end ModulePlan.TestModulePath
