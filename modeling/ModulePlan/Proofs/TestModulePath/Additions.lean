/-
The modules that a pass adds to the compilation.

A step adds the module of an artifact if modules are asked for and this one is not done yet,
whether or not it is added already.  What a pass comes to is what was added before it with its
additions behind, each where it is first added.
-/

import ModulePlan.Proofs.TestModulePath.Pass

namespace ModulePlan.TestModulePath

namespace Progress

def addition (request : Request) (progress : Progress) (answer : Answer) : List String :=
  match answer.descriptor with
  | none => []
  | some module =>
    if request.adds = true ∧ module.name ∉ progress.done then [module.name] else []

def additions (request : Request) (progress : Progress) : List Answer → List String
  | [] => []
  | answer :: rest =>
    progress.addition request answer ++ (progress.step request answer).additions request rest

theorem names_step (request : Request) (progress : Progress) (answer : Answer) :
    (progress.step request answer).names =
      (progress.addition request answer).foldl .insert progress.names := by
  unfold addition
  cases described : answer.descriptor with
  | none => rw [step_of_unnamed described, List.foldl_nil]
  | some module =>
      by_cases isDone : module.name ∈ progress.done
      · rw [step_of_done described isDone]
        simp [isDone]
      · rw [step_of_open described isDone]
        cases adds : request.adds with
        | false => simp [insertIf]
        | true => simp [insertIf, isDone]

theorem names_run (request : Request) (progress : Progress) (answers : List Answer) :
    (progress.run request answers).names =
      (progress.additions request answers).foldl .insert progress.names := by
  induction answers generalizing progress with
  | nil => rfl
  | cons answer rest ih =>
      rw [run_cons, ih, names_step, additions, List.foldl_append]

theorem module_of_mem_additions {request : Request} {progress : Progress}
    {answers : List Answer} {name : String} (present : name ∈ progress.additions request answers) :
    ∃ answer ∈ answers, ∃ module, answer.descriptor = some module ∧ module.name = name := by
  induction answers generalizing progress with
  | nil => cases present
  | cons answer rest ih =>
      rw [additions, List.mem_append] at present
      rcases present with here | later
      · unfold addition at here
        cases described : answer.descriptor with
        | none =>
            rw [described] at here
            cases here
        | some module =>
            simp only [described] at here
            split at here
            · exact ⟨answer, List.mem_cons_self, module, described,
                (List.mem_singleton.mp here).symm⟩
            · cases here
      · obtain ⟨other, among, named⟩ := ih later
        exact ⟨other, List.mem_cons_of_mem _ among, named⟩

end Progress

/-- The modules that a pass with these answers adds, in order. -/
def additions (answers : List Answer) (roots : RootModules) (patch : ModulePatch) : List String :=
  (Progress.start roots patch).additions (Request.ofPatch patch) answers

/-- A pass adds its additions and does nothing else to the modules of the compilation, also if
it is cut short. -/
theorem roots_expand_eq_additions (inspection : Inspection) (view : DependencyView)
    (runtime : Bool) (roots : RootModules) (patch : ModulePatch) :
    (expand inspection view runtime roots patch).roots =
      { roots with
        names := (additions (testAnswers inspection view runtime) roots patch).foldl .insert
          roots.names } := by
  rw [roots_expand, Progress.names_run]
  rfl

theorem artifact_of_mem_additions {inspection : Inspection} {view : DependencyView}
    {runtime : Bool} {roots : RootModules} {patch : ModulePatch} {name : String}
    (present : name ∈ additions (testAnswers inspection view runtime) roots patch) :
    ∃ module, view.IsTestArtifact inspection runtime (some module) ∧ module.name = name := by
  obtain ⟨answer, given, module, described, named⟩ := Progress.module_of_mem_additions present
  obtain ⟨entry, among, said⟩ := Survey.described_of_mem_take given
  rw [described] at said
  exact ⟨module, ⟨entry, among, said⟩, named⟩

end ModulePlan.TestModulePath
