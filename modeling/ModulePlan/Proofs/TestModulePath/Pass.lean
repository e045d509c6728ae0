/-
One pass of the test dependencies into a patch.

A step takes in an artifact that is no module, passes a module over that is done, or takes in
a module.  Every statement about a pass follows from these three cases and from what the
artifacts are: a pass that is not cut short has an answer about each of them.
-/

import ModulePlan.Proofs.DependencyView
import ModulePlan.Proofs.DistinctList
import ModulePlan.TestModulePath

namespace ModulePlan.TestModulePath

def insertIf (wanted : Bool) (names : NameSet) (name : String) : NameSet :=
  if wanted then names.insert name else names

@[simp] theorem mem_insertIf (wanted : Bool) (names : NameSet) (name other : String) :
    other ∈ insertIf wanted names name ↔ other ∈ names ∨ (wanted = true ∧ other = name) := by
  cases wanted with
  | false => simp [insertIf]
  | true => simp [insertIf]

theorem insertIf_of_mem {wanted : Bool} {names : NameSet} {name : String}
    (present : wanted = true → name ∈ names) : insertIf wanted names name = names := by
  cases wanted with
  | false => rfl
  | true => exact DistinctList.insert_of_mem (present rfl)

theorem prefix_insertIf (wanted : Bool) (names : NameSet) (name : String) :
    names.toList <+: (insertIf wanted names name).toList := by
  cases wanted with
  | false => exact List.prefix_refl _
  | true => exact DistinctList.prefix_insert names name

namespace Progress

variable {request : Request} {progress : Progress} {answer : Answer}

/-! ### One step -/

private theorem noteExport_eq (request : Request) (progress : Progress) (name : String) :
    progress.noteExport request name =
      { progress with testModules := insertIf request.exports progress.testModules name } := by
  unfold noteExport insertIf
  cases request.exports with
  | false => rfl
  | true => rfl

/-- The name under which an artifact is exported to: its module's or that of all classes
outside modules. -/
def exportName (descriptor : Option ModuleDescriptor) : String :=
  (descriptor.map (·.name)).getD allUnnamed

theorem step_of_unnamed (unnamed : answer.descriptor = none) :
    progress.step request answer =
      { progress with
        reads := insertIf request.reads progress.reads allUnnamed
        testModules := insertIf request.exports progress.testModules allUnnamed } := by
  unfold step
  rw [unnamed, noteExport_eq]
  unfold Progress.unnamed insertIf
  cases request.reads with
  | false => rfl
  | true => rfl

theorem step_of_done {module : ModuleDescriptor} (named : answer.descriptor = some module)
    (isDone : module.name ∈ progress.done) :
    progress.step request answer =
      { progress with
        testModules := insertIf request.exports progress.testModules module.name } := by
  simp only [step, named, noteExport_eq, if_pos isDone]

def doneAfter (progress : Progress) (request : Request) (module : ModuleDescriptor) : NameSet :=
  if progress.isNew request module.name then
    module.requires.foldl .insert (progress.done.insert module.name)
  else progress.done.insert module.name

theorem mem_doneAfter (module : ModuleDescriptor) (name : String) :
    name ∈ progress.doneAfter request module ↔
      name ∈ progress.done ∨ name = module.name ∨
        (progress.isNew request module.name = true ∧ name ∈ module.requires) := by
  unfold doneAfter
  cases progress.isNew request module.name with
  | false => simp
  | true => simp [DistinctList.mem_foldl_insert, or_assoc]

/-- Is a name added and read as far as the request goes? -/
structure Has (request : Request) (progress : Progress) (name : String) : Prop where
  added : request.adds = true → name ∈ progress.names
  read : request.reads = true → name ∈ progress.reads

theorem isNew_eq_false_iff (request : Request) (progress : Progress) (name : String) :
    progress.isNew request name = false ↔ progress.Has request name := by
  have flags : progress.isNew request name = false ↔
      (request.adds = true → name ∈ progress.names) ∧
        (request.reads = true → name ∈ progress.reads) := by
    unfold isNew
    cases request.adds with
    | false =>
        cases request.reads with
        | false => simp
        | true => simp
    | true =>
        cases request.reads with
        | false => simp
        | true => simp
  rw [flags]
  constructor
  · intro given
    rcases given with ⟨added, read⟩
    exact ⟨added, read⟩
  · intro has
    exact ⟨has.added, has.read⟩

theorem step_of_open {module : ModuleDescriptor} (named : answer.descriptor = some module)
    (isOpen : module.name ∉ progress.done) :
    progress.step request answer =
      { names := insertIf request.adds progress.names module.name
        reads := insertIf request.reads progress.reads module.name
        testModules := insertIf request.exports progress.testModules module.name
        done := progress.doneAfter request module } := by
  have noted : progress.step request answer =
      Progress.named { progress with
        testModules := insertIf request.exports progress.testModules module.name }
        request module := by
    simp only [step, named, noteExport_eq, if_neg isOpen]
  have unchanged : isNew { progress with
      testModules := insertIf request.exports progress.testModules module.name }
      request module.name = progress.isNew request module.name := rfl
  rw [noted]
  unfold Progress.named doneAfter
  rw [unchanged]
  cases new : progress.isNew request module.name with
  | false =>
      have has := (isNew_eq_false_iff request progress module.name).mp new
      rw [insertIf_of_mem has.added, insertIf_of_mem has.read]
      rfl
  | true => rfl

theorem step_of_idle (idle : request.isAny = false) (progress : Progress) (answer : Answer) :
    (progress.step request answer).names = progress.names ∧
      (progress.step request answer).reads = progress.reads ∧
        (progress.step request answer).testModules = progress.testModules := by
  simp only [Request.isAny, Bool.or_eq_false_iff] at idle
  obtain ⟨⟨adds, reads⟩, exports⟩ := idle
  cases described : answer.descriptor with
  | none =>
      rw [step_of_unnamed described, reads, exports]
      exact ⟨rfl, rfl, rfl⟩
  | some module =>
      by_cases isDone : module.name ∈ progress.done
      · rw [step_of_done described isDone, exports]
        exact ⟨rfl, rfl, rfl⟩
      · rw [step_of_open described isDone, adds, reads, exports]
        exact ⟨rfl, rfl, rfl⟩

/-- The names added, read and exported to only grow at their ends, and what is done stays
done. -/
structure Extends (earlier later : Progress) : Prop where
  names : earlier.names.toList <+: later.names.toList
  reads : earlier.reads.toList <+: later.reads.toList
  testModules : earlier.testModules.toList <+: later.testModules.toList
  done : ∀ name ∈ earlier.done, name ∈ later.done

theorem Extends.refl (progress : Progress) : progress.Extends progress :=
  ⟨List.prefix_refl _, List.prefix_refl _, List.prefix_refl _, fun _ present => present⟩

theorem Extends.trans {first second third : Progress} (left : first.Extends second)
    (right : second.Extends third) : first.Extends third :=
  ⟨left.names.trans right.names, left.reads.trans right.reads,
    left.testModules.trans right.testModules,
    fun name present => right.done name (left.done name present)⟩

theorem Extends.mem_names {earlier later : Progress} (grown : earlier.Extends later)
    {name : String} (present : name ∈ earlier.names) : name ∈ later.names :=
  grown.names.subset present

theorem Extends.mem_reads {earlier later : Progress} (grown : earlier.Extends later)
    {name : String} (present : name ∈ earlier.reads) : name ∈ later.reads :=
  grown.reads.subset present

theorem Has.extends {later : Progress} {name : String} (has : progress.Has request name)
    (grown : progress.Extends later) : later.Has request name :=
  ⟨fun adds => grown.mem_names (has.added adds), fun reads => grown.mem_reads (has.read reads)⟩

theorem step_extends (request : Request) (progress : Progress) (answer : Answer) :
    progress.Extends (progress.step request answer) := by
  cases described : answer.descriptor with
  | none =>
      rw [step_of_unnamed described]
      exact ⟨List.prefix_refl _, prefix_insertIf _ _ _, prefix_insertIf _ _ _,
        fun _ present => present⟩
  | some module =>
      by_cases isDone : module.name ∈ progress.done
      · rw [step_of_done described isDone]
        exact ⟨List.prefix_refl _, List.prefix_refl _, prefix_insertIf _ _ _,
          fun _ present => present⟩
      · rw [step_of_open described isDone]
        refine ⟨prefix_insertIf _ _ _, prefix_insertIf _ _ _, prefix_insertIf _ _ _, ?_⟩
        intro name present
        exact (mem_doneAfter module name).mpr (Or.inl present)

theorem mem_done_step {module : ModuleDescriptor} (named : answer.descriptor = some module)
    (request : Request) (progress : Progress) :
    module.name ∈ (progress.step request answer).done := by
  by_cases isDone : module.name ∈ progress.done
  · exact (step_extends request progress answer).done module.name isDone
  · rw [step_of_open named isDone]
    exact (mem_doneAfter module module.name).mpr (Or.inr (Or.inl rfl))

theorem testModules_step (request : Request) (progress : Progress) (answer : Answer) :
    (progress.step request answer).testModules =
      insertIf request.exports progress.testModules (exportName answer.descriptor) := by
  cases described : answer.descriptor with
  | none =>
      rw [step_of_unnamed described]
      rfl
  | some module =>
      by_cases isDone : module.name ∈ progress.done
      · rw [step_of_done described isDone]
        rfl
      · rw [step_of_open described isDone]
        rfl

theorem origin_of_mem_names_step {name : String}
    (present : name ∈ (progress.step request answer).names) :
    name ∈ progress.names ∨
      (request.adds = true ∧ ∃ module, answer.descriptor = some module ∧ module.name = name) := by
  cases described : answer.descriptor with
  | none =>
      rw [step_of_unnamed described] at present
      exact Or.inl present
  | some module =>
      by_cases isDone : module.name ∈ progress.done
      · rw [step_of_done described isDone] at present
        exact Or.inl present
      · rw [step_of_open described isDone] at present
        rcases (mem_insertIf _ _ _ _).mp present with before | ⟨adds, same⟩
        · exact Or.inl before
        · exact Or.inr ⟨adds, module, rfl, same.symm⟩

theorem origin_of_mem_reads_step {name : String}
    (present : name ∈ (progress.step request answer).reads) :
    name ∈ progress.reads ∨
      (request.reads = true ∧ name = exportName answer.descriptor) := by
  cases described : answer.descriptor with
  | none =>
      rw [step_of_unnamed described] at present
      exact (mem_insertIf _ _ _ _).mp present
  | some module =>
      by_cases isDone : module.name ∈ progress.done
      · rw [step_of_done described isDone] at present
        exact Or.inl present
      · rw [step_of_open described isDone] at present
        exact (mem_insertIf _ _ _ _).mp present

theorem mem_reads_step_of_unnamed (reads : request.reads = true)
    (unnamed : answer.descriptor = none) (progress : Progress) :
    allUnnamed ∈ (progress.step request answer).reads := by
  rw [step_of_unnamed unnamed]
  exact (mem_insertIf _ _ _ _).mpr (Or.inr ⟨reads, rfl⟩)

theorem step_congr {left right : Answer} (same : left.descriptor = right.descriptor)
    (request : Request) (progress : Progress) :
    progress.step request left = progress.step request right := by
  unfold step
  rw [same]

/-! ### All steps -/

theorem run_cons (request : Request) (progress : Progress) (answer : Answer)
    (rest : List Answer) :
    progress.run request (answer :: rest) = (progress.step request answer).run request rest :=
  rfl

theorem run_concat (request : Request) (progress : Progress) (answers : List Answer)
    (answer : Answer) :
    progress.run request (answers ++ [answer]) =
      (progress.run request answers).step request answer := by
  unfold run
  rw [List.foldl_append, List.foldl_cons, List.foldl_nil]

theorem run_extends (request : Request) (progress : Progress) (answers : List Answer) :
    progress.Extends (progress.run request answers) := by
  induction answers generalizing progress with
  | nil => exact Extends.refl progress
  | cons answer rest ih =>
      exact (step_extends request progress answer).trans (ih (progress.step request answer))

/-- Whatever one of the steps brings about and no later one takes away holds at the end. -/
theorem run_of_step (holds : Progress → Prop) {answers : List Answer}
    (present : answer ∈ answers)
    (made : ∀ progress : Progress, holds (progress.step request answer))
    (kept : ∀ earlier later : Progress, earlier.Extends later → holds earlier → holds later)
    (progress : Progress) : holds (progress.run request answers) := by
  induction answers generalizing progress with
  | nil => cases present
  | cons first rest ih =>
      rcases List.mem_cons.mp present with same | later
      · subst same
        exact kept _ _ (run_extends request _ rest) (made progress)
      · exact ih later (progress.step request first)

theorem mem_done_run {answers : List Answer} (present : answer ∈ answers)
    {module : ModuleDescriptor} (named : answer.descriptor = some module) (request : Request)
    (progress : Progress) : module.name ∈ (progress.run request answers).done :=
  run_of_step (fun later => module.name ∈ later.done) present
    (mem_done_step named request) (fun _ _ grown => grown.done module.name) progress

theorem mem_reads_run_of_unnamed {answers : List Answer} (reads : request.reads = true)
    (present : answer ∈ answers) (unnamed : answer.descriptor = none) (progress : Progress) :
    allUnnamed ∈ (progress.run request answers).reads :=
  run_of_step (fun later => allUnnamed ∈ later.reads) present
    (mem_reads_step_of_unnamed reads unnamed) (fun _ _ grown => grown.mem_reads) progress

/-- All artifacts are exported to, done or not, if anything is. -/
theorem testModules_run (request : Request) (progress : Progress) (answers : List Answer) :
    (progress.run request answers).testModules =
      if request.exports then
        (answers.map fun answer => exportName answer.descriptor).foldl .insert
          progress.testModules
      else progress.testModules := by
  induction answers generalizing progress with
  | nil => exact (ite_self _).symm
  | cons answer rest ih =>
      rw [run_cons, ih, testModules_step]
      cases request.exports with
      | false => rfl
      | true => rfl

theorem mem_testModules_run {answers : List Answer} (exports : request.exports = true)
    (present : answer ∈ answers) (progress : Progress) :
    exportName answer.descriptor ∈ (progress.run request answers).testModules := by
  rw [testModules_run, if_pos exports, DistinctList.mem_foldl_insert]
  exact Or.inr (List.mem_map_of_mem present)

theorem testModules_run_of_mem {answers : List Answer}
    (exported : request.exports = true → ∀ answer ∈ answers,
      exportName answer.descriptor ∈ progress.testModules) :
    (progress.run request answers).testModules = progress.testModules := by
  rw [testModules_run]
  split
  · rename_i exports
    apply DistinctList.foldl_insert_of_subset
    intro name present
    obtain ⟨answer, among, rfl⟩ := List.mem_map.mp present
    exact exported exports answer among
  · rfl

theorem origin_of_mem_names_run {answers : List Answer} {name : String}
    (present : name ∈ (progress.run request answers).names) :
    name ∈ progress.names ∨ (request.adds = true ∧
      ∃ answer ∈ answers, ∃ module, answer.descriptor = some module ∧ module.name = name) := by
  induction answers generalizing progress with
  | nil => exact Or.inl present
  | cons answer rest ih =>
      rcases ih present with before | ⟨adds, other, later, named⟩
      · rcases origin_of_mem_names_step before with first | ⟨adds, named⟩
        · exact Or.inl first
        · exact Or.inr ⟨adds, answer, List.mem_cons_self, named⟩
      · exact Or.inr ⟨adds, other, List.mem_cons_of_mem answer later, named⟩

theorem origin_of_mem_reads_run {answers : List Answer} {name : String}
    (present : name ∈ (progress.run request answers).reads) :
    name ∈ progress.reads ∨
      (request.reads = true ∧ ∃ answer ∈ answers, name = exportName answer.descriptor) := by
  induction answers generalizing progress with
  | nil => exact Or.inl present
  | cons answer rest ih =>
      rcases ih present with before | ⟨reads, other, later, named⟩
      · rcases origin_of_mem_reads_step before with first | ⟨reads, named⟩
        · exact Or.inl first
        · exact Or.inr ⟨reads, answer, List.mem_cons_self, named⟩
      · exact Or.inr ⟨reads, other, List.mem_cons_of_mem answer later, named⟩

theorem origin_of_mem_testModules_run {answers : List Answer} {name : String}
    (present : name ∈ (progress.run request answers).testModules) :
    name ∈ progress.testModules ∨
      (request.exports = true ∧ ∃ answer ∈ answers, name = exportName answer.descriptor) := by
  rw [testModules_run] at present
  split at present
  · rename_i exports
    rcases (DistinctList.mem_foldl_insert _ _ _).mp present with before | collected
    · exact Or.inl before
    · obtain ⟨answer, among, same⟩ := List.mem_map.mp collected
      exact Or.inr ⟨exports, answer, among, same.symm⟩
  · exact Or.inl present

theorem run_congr {left right : List Answer}
    (same : left.map (·.descriptor) = right.map (·.descriptor)) (request : Request)
    (progress : Progress) : progress.run request left = progress.run request right := by
  induction left generalizing right progress with
  | nil =>
      cases right with
      | nil => rfl
      | cons other others => cases same
  | cons answer rest ih =>
      cases right with
      | nil => cases same
      | cons other others =>
          rw [List.map_cons, List.map_cons, List.cons.injEq] at same
          rw [run_cons, run_cons, step_congr same.1]
          exact ih same.2 _

theorem run_of_idle (idle : request.isAny = false) (progress : Progress)
    (answers : List Answer) :
    (progress.run request answers).names = progress.names ∧
      (progress.run request answers).reads = progress.reads ∧
        (progress.run request answers).testModules = progress.testModules := by
  induction answers generalizing progress with
  | nil => exact ⟨rfl, rfl, rfl⟩
  | cons answer rest ih =>
      have here := step_of_idle idle progress answer
      have later := ih (progress.step request answer)
      exact ⟨later.1.trans here.1, later.2.1.trans here.2.1, later.2.2.trans here.2.2⟩

end Progress

/-! ### The pass -/

/-- The answers about the dependencies on the test module path, as far as they go. -/
def testAnswers (inspection : Inspection) (view : DependencyView) (runtime : Bool) :
    List Answer :=
  (Survey.take inspection view (view.applicable runtime)).answers

/-- Can every artifact on the test module path be described? -/
def IsReadable (inspection : Inspection) (view : DependencyView) (runtime : Bool) : Prop :=
  ∀ entry ∈ view.applicable runtime, ∃ descriptor,
    view.describe inspection entry.2 = .ok descriptor

section Expansion

variable {inspection : Inspection} {view : DependencyView} {runtime : Bool}
  {roots : RootModules} {patch : ModulePatch}

theorem expand_eq_finish (inspection : Inspection) (view : DependencyView) (runtime : Bool)
    (roots : RootModules) (patch : ModulePatch) :
    ((expand inspection view runtime roots patch).roots,
      (expand inspection view runtime roots patch).patch) =
      ((Progress.start roots patch).run (Request.ofPatch patch)
        (testAnswers inspection view runtime)).finish roots patch := by
  cases asked : (Request.ofPatch patch).isAny with
  | true => simp only [expand, asked, if_true, testAnswers]
  | false =>
      obtain ⟨names, reads, testModules⟩ := Progress.run_of_idle asked
        (Progress.start roots patch) (testAnswers inspection view runtime)
      unfold Progress.finish
      rw [names, reads, testModules]
      simp only [expand, asked, Bool.false_eq_true, if_false, Progress.start]

/-- A pass is cut short only by an artifact that cannot be described, and only if the patch
asks for anything. -/
theorem expand_completes_iff (inspection : Inspection) (view : DependencyView)
    (runtime : Bool) (roots : RootModules) (patch : ModulePatch) :
    (expand inspection view runtime roots patch).report.result = .ok () ↔
      ((Request.ofPatch patch).isAny = true → IsReadable inspection view runtime) := by
  unfold IsReadable
  rw [← Survey.take_completes_iff]
  cases asked : (Request.ofPatch patch).isAny with
  | true =>
      cases failed : (Survey.take inspection view (view.applicable runtime)).failure with
      | none => simp [expand, asked, failed]
      | some failure => simp [expand, asked, failed]
  | false => simp [expand, asked]

theorem expand_view_agrees (inspection : Inspection) (view : DependencyView) (runtime : Bool)
    (roots : RootModules) (patch : ModulePatch) :
    (expand inspection view runtime roots patch).view.Agrees inspection view := by
  cases asked : (Request.ofPatch patch).isAny with
  | true =>
      simp only [expand, asked, if_true]
      exact Survey.take_view_agrees inspection view _
  | false =>
      simp only [expand, asked, Bool.false_eq_true, if_false]
      exact DependencyView.Agrees.refl inspection view

theorem roots_expand (inspection : Inspection) (view : DependencyView) (runtime : Bool)
    (roots : RootModules) (patch : ModulePatch) :
    (expand inspection view runtime roots patch).roots =
      { roots with names := ((Progress.start roots patch).run (Request.ofPatch patch)
          (testAnswers inspection view runtime)).names } :=
  congrArg Prod.fst (expand_eq_finish inspection view runtime roots patch)

theorem patch_expand (inspection : Inspection) (view : DependencyView) (runtime : Bool)
    (roots : RootModules) (patch : ModulePatch) :
    (expand inspection view runtime roots patch).patch =
      { patch with
        addReads := ((Progress.start roots patch).run (Request.ofPatch patch)
          (testAnswers inspection view runtime)).reads
        testModules := ((Progress.start roots patch).run (Request.ofPatch patch)
          (testAnswers inspection view runtime)).testModules } :=
  congrArg Prod.snd (expand_eq_finish inspection view runtime roots patch)

theorem isReadable_congr {left right : DependencyView} (agrees : left.Agrees inspection right) :
    IsReadable inspection left runtime ↔ IsReadable inspection right runtime := by
  unfold IsReadable
  rw [agrees.applicable runtime]
  simp only [agrees.describe]

/-- The same is answered where the same is said of every artifact on the test module path. -/
theorem descriptors_congr {other : Inspection} {left right : DependencyView}
    (applicable : left.applicable runtime = right.applicable runtime)
    (same : ∀ entry ∈ right.applicable runtime,
      left.describe inspection entry.2 = right.describe other entry.2)
    (readable : IsReadable other right runtime) :
    (testAnswers inspection left runtime).map (·.descriptor) =
      (testAnswers other right runtime).map (·.descriptor) := by
  have leftReadable : IsReadable inspection left runtime := by
    intro entry present
    rw [applicable] at present
    rw [same entry present]
    exact readable entry present
  have leftTold := Survey.descriptors_of_take
    ((Survey.take_completes_iff inspection left (left.applicable runtime)).mpr leftReadable)
  have rightTold := Survey.descriptors_of_take
    ((Survey.take_completes_iff other right (right.applicable runtime)).mpr readable)
  rw [applicable, List.map_congr_left same] at leftTold
  unfold testAnswers
  rw [applicable]
  have told := leftTold.symm.trans rightTold
  have injective : Function.Injective (Except.ok : Option ModuleDescriptor → Except Fault _) :=
    fun _ _ equal => Except.ok.inj equal
  apply List.map_injective_iff.mpr injective
  rw [List.map_map, List.map_map]
  exact told

theorem testAnswers_congr {left right : DependencyView} (agrees : left.Agrees inspection right)
    (readable : IsReadable inspection right runtime) :
    (testAnswers inspection left runtime).map (·.descriptor) =
      (testAnswers inspection right runtime).map (·.descriptor) :=
  descriptors_congr (agrees.applicable runtime) (fun entry _ => agrees.describe entry.2) readable

/-- The answers are those about the artifacts on the test module path. -/
theorem mem_testAnswers_iff (readable : IsReadable inspection view runtime)
    (descriptor : Option ModuleDescriptor) :
    (∃ answer ∈ testAnswers inspection view runtime, answer.descriptor = descriptor) ↔
      view.IsTestArtifact inspection runtime descriptor := by
  have answered := Survey.descriptors_of_take
    ((Survey.take_completes_iff inspection view (view.applicable runtime)).mpr readable)
  unfold testAnswers DependencyView.IsTestArtifact
  constructor
  · intro given
    rcases given with ⟨answer, present, same⟩
    subst same
    have described : (.ok answer.descriptor : Except Fault _) ∈
        (view.applicable runtime).map fun entry => view.describe inspection entry.2 := by
      rw [answered]
      exact List.mem_map.mpr ⟨answer, present, rfl⟩
    exact List.mem_map.mp described
  · intro given
    rcases given with ⟨entry, present, described⟩
    have told : (.ok descriptor : Except Fault _) ∈
        (Survey.take inspection view (view.applicable runtime)).answers.map fun answer =>
          (.ok answer.descriptor : Except Fault _) := by
      rw [← answered]
      exact List.mem_map.mpr ⟨entry, present, described⟩
    obtain ⟨answer, here, same⟩ := List.mem_map.mp told
    exact ⟨answer, here, Except.ok.inj same⟩

end Expansion

def noInspection : Inspection :=
  fun _ => Report.fail .undecodable

end ModulePlan.TestModulePath
