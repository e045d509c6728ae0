/-
A pass for a patch without reads.

Such a pass meets no module that is read before it is done.  So the modules that are added to
the compilation already do not steer it: it reads what it would read by itself, and adds to
them what it would add by itself.
-/

import ModulePlan.Proofs.DistinctList
import ModulePlan.Proofs.TestModulePath.Pass

namespace ModulePlan.TestModulePath

/-- What a patch asks that no patch file was read into. -/
def Request.untouched : Request := ⟨true, true, false⟩

namespace Progress

/-- What the answers come to by themselves. -/
def alone (answers : List Answer) : Progress :=
  run .untouched { names := .empty, reads := .empty, testModules := .empty } answers

theorem alone_concat (answers : List Answer) (answer : Answer) :
    alone (answers ++ [answer]) = (alone answers).step .untouched answer :=
  run_concat _ _ _ _

/-- Does no artifact have the name that stands for the unnamed module? -/
def NoneUnnamed (answers : List Answer) : Prop :=
  ∀ answer ∈ answers, ∀ module, answer.descriptor = some module → module.name ≠ allUnnamed

theorem noneUnnamed_congr {left right : List Answer}
    (same : left.map (·.descriptor) = right.map (·.descriptor)) :
    NoneUnnamed left ↔ NoneUnnamed right := by
  have told : ∀ answers : List Answer, NoneUnnamed answers ↔
      ∀ descriptor ∈ answers.map (·.descriptor), ∀ module, descriptor = some module →
        module.name ≠ allUnnamed := by
    intro answers
    rw [List.forall_mem_map]
    rfl
  rw [told, told, same]

private theorem noneUnnamed_concat {answers : List Answer} {answer : Answer}
    (named : NoneUnnamed (answers ++ [answer])) :
    NoneUnnamed answers ∧
      ∀ module, answer.descriptor = some module → module.name ≠ allUnnamed := by
  constructor
  · intro other present
    exact named other (List.mem_append_left _ present)
  · exact named answer (List.mem_append_right _ (List.mem_singleton.mpr rfl))

private theorem mem_done_of_mem_reads_alone {answers : List Answer} {name : String}
    (present : name ∈ (alone answers).reads) :
    name ∈ (alone answers).done ∨ name = allUnnamed := by
  induction answers using List.reverseRecOn with
  | nil => exact absurd present (DistinctList.not_mem_empty name)
  | append_singleton answers answer ih =>
      rw [alone_concat] at present ⊢
      have grown := step_extends .untouched (alone answers) answer
      rcases origin_of_mem_reads_step present with before | ⟨_, rfl⟩
      · exact (ih before).imp_left (grown.done name)
      · cases described : answer.descriptor with
        | none => exact Or.inr rfl
        | some module => exact Or.inl (mem_done_step described _ _)

private theorem not_mem_reads_alone {answers : List Answer} {name : String}
    (isOpen : name ∉ (alone answers).done) (named : name ≠ allUnnamed) :
    name ∉ (alone answers).reads := by
  intro present
  rcases mem_done_of_mem_reads_alone present with isDone | same
  · exact isOpen isDone
  · exact named same

/-- The same progress where names are added and test modules are known already. -/
def behind (names testModules : NameSet) (progress : Progress) : Progress :=
  { progress with names := names.union progress.names, testModules := testModules }

private theorem doneAfter_of_not_read {progress : Progress} {module : ModuleDescriptor}
    (absent : module.name ∉ progress.reads) :
    progress.doneAfter .untouched module =
      module.requires.foldl .insert (progress.done.insert module.name) := by
  have new : progress.isNew .untouched module.name = true := by
    unfold isNew
    rw [decide_eq_true absent]
    exact Bool.or_true _
  unfold doneAfter
  rw [new, if_pos rfl]

/-- A module that is not done is new in both, since it is not read. -/
private theorem step_behind {progress : Progress} {answer : Answer} (names testModules : NameSet)
    (unread : ∀ module, answer.descriptor = some module → module.name ∉ progress.done →
      module.name ∉ progress.reads) :
    (progress.behind names testModules).step .untouched answer =
      (progress.step .untouched answer).behind names testModules := by
  cases described : answer.descriptor with
  | none =>
      rw [step_of_unnamed described]
      rw [step_of_unnamed described]
      rfl
  | some module =>
      by_cases isDone : module.name ∈ progress.done
      · have isDone' : module.name ∈ (progress.behind names testModules).done := isDone
        rw [step_of_done described isDone, step_of_done described isDone']
        rfl
      · have isOpen' : module.name ∉ (progress.behind names testModules).done := isDone
        have absent := unread module described isDone
        have absent' : module.name ∉ (progress.behind names testModules).reads := absent
        rw [step_of_open described isDone, step_of_open described isOpen',
          doneAfter_of_not_read absent, doneAfter_of_not_read absent']
        simp only [behind, insertIf, Request.untouched, if_true, DistinctList.union_insert]
        rfl

/-- Whatever is added before, the answers read and add what they do by themselves. -/
theorem run_untouched {answers : List Answer} (named : NoneUnnamed answers)
    (names testModules : NameSet) :
    run .untouched { names := names, reads := .empty, testModules := testModules } answers =
      (alone answers).behind names testModules := by
  induction answers using List.reverseRecOn with
  | nil => rfl
  | append_singleton answers answer ih =>
      obtain ⟨before, here⟩ := noneUnnamed_concat named
      rw [run_concat, ih before, alone_concat]
      apply step_behind
      intro module described isOpen
      exact not_mem_reads_alone isOpen (here module described)

end Progress

end ModulePlan.TestModulePath
