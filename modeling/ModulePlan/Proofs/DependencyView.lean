/-
What a view of dependencies says, whatever it remembers.

A view asked in any order, any number of times, answers as if it had been asked for the
first time.  So the answers about the dependencies on the test module path are those about
each of them alone.
-/

import ModulePlan.DependencyView
import ModulePlan.Proofs.KeyedList
import ModulePlan.Proofs.Report

namespace ModulePlan

namespace DependencyView

def describe (inspection : Inspection) (view : DependencyView) (path : FilePath) :
    Except Fault (Option ModuleDescriptor) :=
  match view.descriptors.get? path with
  | some known => .ok known
  | none => (inspection path).result

/-- Do two views hold the same dependencies and say the same of every artifact? -/
structure Agrees (inspection : Inspection) (left right : DependencyView) : Prop where
  dependencies : left.dependencies = right.dependencies
  describe : ∀ path, left.describe inspection path = right.describe inspection path

theorem Agrees.refl (inspection : Inspection) (view : DependencyView) :
    view.Agrees inspection view :=
  ⟨rfl, fun _ => rfl⟩

theorem Agrees.trans {inspection : Inspection} {first second third : DependencyView}
    (left : first.Agrees inspection second) (right : second.Agrees inspection third) :
    first.Agrees inspection third :=
  ⟨left.dependencies.trans right.dependencies,
    fun path => (left.describe path).trans (right.describe path)⟩

theorem Agrees.applicable {inspection : Inspection} {left right : DependencyView}
    (agrees : left.Agrees inspection right) (runtime : Bool) :
    left.applicable runtime = right.applicable runtime := by
  unfold DependencyView.applicable
  rw [agrees.dependencies]

/-! ### Looking up -/

/-- What is told of an artifact, known or not. -/
def ask (inspection : Inspection) (view : DependencyView) (path : FilePath) :
    Report (Option ModuleDescriptor) :=
  match view.descriptors.get? path with
  | some known => return known
  | none => inspection path

def learn (view : DependencyView) (path : FilePath) (found : Option ModuleDescriptor) :
    DependencyView :=
  match view.descriptors.get? path with
  | some _ => view
  | none => { view with descriptors := view.descriptors.insert path found }

theorem describe_eq_ask (inspection : Inspection) (view : DependencyView) (path : FilePath) :
    view.describe inspection path = (view.ask inspection path).result := by
  unfold describe ask
  cases view.descriptors.get? path with
  | some known => rfl
  | none => rfl

theorem lookUp_eq (inspection : Inspection) (view : DependencyView) (path : FilePath) :
    view.lookUp inspection path =
      view.ask inspection path >>= fun found => pure (found, view.learn path found) := by
  unfold lookUp ask learn
  cases view.descriptors.get? path with
  | some known => rfl
  | none => rfl

theorem result_lookUp (inspection : Inspection) (view : DependencyView) (path : FilePath) :
    (view.lookUp inspection path).result =
      (view.describe inspection path).map fun found => (found, view.learn path found) := by
  rw [lookUp_eq, Report.result_bind, describe_eq_ask]
  cases (view.ask inspection path).result with
  | error fault => rfl
  | ok found => rfl

/-- Only the artifact that was looked up is remembered. -/
theorem get?_learn (view : DependencyView) (path other : FilePath)
    (found : Option ModuleDescriptor) :
    (view.learn path found).descriptors.get? other =
      if other = path then some ((view.descriptors.get? path).getD found)
      else view.descriptors.get? other := by
  unfold learn
  cases remembered : view.descriptors.get? path with
  | some known =>
      by_cases same : other = path
      · rw [if_pos same, same, remembered]
        rfl
      · rw [if_neg same]
  | none => exact KeyedList.get?_insert view.descriptors path other found

/-- Remembering what a view says changes nothing that it says. -/
theorem learn_agrees {inspection : Inspection} {view : DependencyView} {path : FilePath}
    {found : Option ModuleDescriptor} (described : view.describe inspection path = .ok found) :
    (view.learn path found).Agrees inspection view := by
  constructor
  · unfold learn
    cases view.descriptors.get? path with
    | some known => rfl
    | none => rfl
  · intro other
    unfold describe at described ⊢
    rw [get?_learn]
    by_cases same : other = path
    · rw [if_pos same, same]
      cases remembered : view.descriptors.get? path with
      | some known => rfl
      | none =>
          rw [remembered] at described
          exact described.symm
    · rw [if_neg same]

/-- Looking an artifact up gives what the view says of it, and remembering that changes
nothing the view says. -/
theorem lookUp_ok {inspection : Inspection} {view later : DependencyView} {path : FilePath}
    {descriptor : Option ModuleDescriptor}
    (found : (view.lookUp inspection path).result = .ok (descriptor, later)) :
    view.describe inspection path = .ok descriptor ∧ later.Agrees inspection view := by
  rw [result_lookUp] at found
  cases described : view.describe inspection path with
  | error fault =>
      rw [described] at found
      cases found
  | ok told =>
      rw [described] at found
      cases found
      exact ⟨rfl, learn_agrees described⟩

theorem lookUp_error {inspection : Inspection} {view : DependencyView} {path : FilePath}
    {fault : Fault} (failed : (view.lookUp inspection path).result = .error fault) :
    view.describe inspection path = .error fault := by
  rw [result_lookUp] at failed
  cases described : view.describe inspection path with
  | error other =>
      rw [described] at failed
      cases failed
      rfl
  | ok told =>
      rw [described] at failed
      cases failed

/-! ### The test module path -/

/-- The view without the dependencies that are not on the test module path. -/
def onTestPath (view : DependencyView) (runtime : Bool) : DependencyView :=
  { view with
    dependencies :=
      ⟨view.applicable runtime,
        view.dependencies.keys_nodup.sublist (List.filter_sublist.map Prod.fst)⟩ }

theorem applicable_onTestPath (view : DependencyView) (runtime : Bool) :
    (view.onTestPath runtime).applicable runtime = view.applicable runtime :=
  List.filter_eq_self.mpr fun _ present => (List.mem_filter.mp present).2

/-- The artifact of a dependency on the test module path is this module, or none. -/
def IsTestArtifact (inspection : Inspection) (view : DependencyView) (runtime : Bool)
    (descriptor : Option ModuleDescriptor) : Prop :=
  ∃ entry ∈ view.applicable runtime, view.describe inspection entry.2 = .ok descriptor

end DependencyView

namespace Survey

variable {inspection : Inspection} {view : DependencyView}

private theorem take_of_error {entry : Dependency × FilePath}
    {rest : List (Dependency × FilePath)} {fault : Fault}
    (failed : (view.lookUp inspection entry.2).result = .error fault) :
    take inspection view (entry :: rest) =
      ⟨[], view, some ((view.lookUp inspection entry.2).trace, fault)⟩ := by
  simp only [take, failed]

private theorem take_of_ok {entry : Dependency × FilePath}
    {rest : List (Dependency × FilePath)} {descriptor : Option ModuleDescriptor}
    {later : DependencyView}
    (found : (view.lookUp inspection entry.2).result = .ok (descriptor, later)) :
    take inspection view (entry :: rest) =
      { take inspection later rest with
        answers := ⟨entry.1, descriptor, (view.lookUp inspection entry.2).trace⟩ ::
          (take inspection later rest).answers } := by
  simp only [take, found]

theorem take_view_agrees (inspection : Inspection) (view : DependencyView)
    (entries : List (Dependency × FilePath)) :
    (take inspection view entries).view.Agrees inspection view := by
  induction entries generalizing view with
  | nil => exact DependencyView.Agrees.refl inspection view
  | cons entry rest ih =>
      cases looked : (view.lookUp inspection entry.2).result with
      | error fault =>
          rw [take_of_error looked]
          exact DependencyView.Agrees.refl inspection view
      | ok found =>
          obtain ⟨descriptor, later⟩ := found
          rw [take_of_ok looked]
          exact (ih later).trans (DependencyView.lookUp_ok looked).2

/-- A survey asks for nothing but the artifacts of its dependencies: where as much is known of
those and the same is told of them, it comes to the same. -/
theorem take_congr {other : Inspection} {otherView : DependencyView}
    {entries : List (Dependency × FilePath)}
    (known : ∀ entry ∈ entries,
      otherView.descriptors.get? entry.2 = view.descriptors.get? entry.2)
    (told : ∀ entry ∈ entries, other entry.2 = inspection entry.2) :
    (take other otherView entries).answers = (take inspection view entries).answers ∧
      (take other otherView entries).failure = (take inspection view entries).failure := by
  induction entries generalizing view otherView with
  | nil => exact ⟨rfl, rfl⟩
  | cons entry rest ih =>
      obtain ⟨hereKnown, laterKnown⟩ := List.forall_mem_cons.mp known
      obtain ⟨hereTold, laterTold⟩ := List.forall_mem_cons.mp told
      have asked : otherView.ask other entry.2 = view.ask inspection entry.2 := by
        unfold DependencyView.ask
        rw [hereKnown, hereTold]
      have traces : (otherView.lookUp other entry.2).trace =
          (view.lookUp inspection entry.2).trace := by
        rw [DependencyView.lookUp_eq, DependencyView.lookUp_eq, asked, Report.trace_bind_pure,
          Report.trace_bind_pure]
      have looked := DependencyView.result_lookUp inspection view entry.2
      have otherLooked := DependencyView.result_lookUp other otherView entry.2
      rw [DependencyView.describe_eq_ask, asked, ← DependencyView.describe_eq_ask]
        at otherLooked
      cases answered : view.describe inspection entry.2 with
      | error fault =>
          rw [answered] at looked otherLooked
          rw [take_of_error looked, take_of_error otherLooked, traces]
          exact ⟨rfl, rfl⟩
      | ok found =>
          rw [answered] at looked otherLooked
          rw [take_of_ok looked, take_of_ok otherLooked, traces]
          have learnt : ∀ entry' ∈ rest,
              (otherView.learn entry.2 found).descriptors.get? entry'.2 =
                (view.learn entry.2 found).descriptors.get? entry'.2 := by
            intro entry' among
            rw [DependencyView.get?_learn, DependencyView.get?_learn, hereKnown,
              laterKnown entry' among]
          obtain ⟨answers, failure⟩ := ih learnt laterTold
          exact ⟨congrArg (_ :: ·) answers, failure⟩

/-- What a view remembers of other artifacts than those of a survey stays as it is. -/
theorem get?_take (inspection : Inspection) {view : DependencyView}
    {entries : List (Dependency × FilePath)} {path : FilePath}
    (absent : ∀ entry ∈ entries, entry.2 ≠ path) :
    (take inspection view entries).view.descriptors.get? path = view.descriptors.get? path := by
  induction entries generalizing view with
  | nil => rfl
  | cons entry rest ih =>
      obtain ⟨here, later⟩ := List.forall_mem_cons.mp absent
      have looked := DependencyView.result_lookUp inspection view entry.2
      cases answered : view.describe inspection entry.2 with
      | error fault =>
          rw [answered] at looked
          rw [take_of_error looked]
      | ok found =>
          rw [answered] at looked
          rw [take_of_ok looked, ih later, DependencyView.get?_learn, if_neg here.symm]

/-- A survey answers for its dependencies in order, as far as it goes, what the view says of
them. -/
theorem answered_of_take (inspection : Inspection) (view : DependencyView)
    (entries : List (Dependency × FilePath)) :
    ∃ answered, answered <+: entries ∧
      answered.map (fun entry => view.describe inspection entry.2) =
        (take inspection view entries).answers.map (fun answer => .ok answer.descriptor) := by
  induction entries generalizing view with
  | nil => exact ⟨[], List.prefix_refl _, rfl⟩
  | cons entry rest ih =>
      cases looked : (view.lookUp inspection entry.2).result with
      | error fault =>
          rw [take_of_error looked]
          exact ⟨[], List.nil_prefix, rfl⟩
      | ok found =>
          obtain ⟨descriptor, later⟩ := found
          obtain ⟨described, agrees⟩ := DependencyView.lookUp_ok looked
          obtain ⟨answered, begins, said⟩ := ih later
          simp only [agrees.describe] at said
          rw [take_of_ok looked]
          refine ⟨entry :: answered, List.cons_prefix_cons.mpr ⟨rfl, begins⟩, ?_⟩
          rw [List.map_cons, List.map_cons, described, said]

/-- A survey that is not cut short answers for each dependency what the view says of it. -/
theorem descriptors_of_take {entries : List (Dependency × FilePath)}
    (completes : (take inspection view entries).failure = none) :
    entries.map (fun entry => view.describe inspection entry.2) =
      (take inspection view entries).answers.map (fun answer => .ok answer.descriptor) := by
  induction entries generalizing view with
  | nil => rfl
  | cons entry rest ih =>
      cases looked : (view.lookUp inspection entry.2).result with
      | error fault =>
          rw [take_of_error looked] at completes
          cases completes
      | ok found =>
          obtain ⟨descriptor, later⟩ := found
          rw [take_of_ok looked] at completes ⊢
          have answered := DependencyView.lookUp_ok looked
          have others := ih completes
          simp only [answered.2.describe] at others
          rw [List.map_cons, List.map_cons, answered.1, others]

/-- Whatever is answered, the view says it of one of the dependencies. -/
theorem described_of_mem_take {entries : List (Dependency × FilePath)} {answer : Answer}
    (present : answer ∈ (take inspection view entries).answers) :
    ∃ entry ∈ entries, view.describe inspection entry.2 = .ok answer.descriptor := by
  induction entries generalizing view with
  | nil => cases present
  | cons entry rest ih =>
      cases looked : (view.lookUp inspection entry.2).result with
      | error fault =>
          rw [take_of_error looked] at present
          cases present
      | ok found =>
          obtain ⟨descriptor, later⟩ := found
          obtain ⟨described, agrees⟩ := DependencyView.lookUp_ok looked
          rw [take_of_ok looked] at present
          rcases List.mem_cons.mp present with rfl | behind
          · exact ⟨entry, List.mem_cons_self, described⟩
          · obtain ⟨other, among, said⟩ := ih behind
            exact ⟨other, List.mem_cons_of_mem _ among, (agrees.describe other.2).symm.trans said⟩

/-- A survey is cut short only by an artifact that cannot be described. -/
theorem take_completes_iff (inspection : Inspection) (view : DependencyView)
    (entries : List (Dependency × FilePath)) :
    (take inspection view entries).failure = none ↔
      ∀ entry ∈ entries, ∃ descriptor, view.describe inspection entry.2 = .ok descriptor := by
  induction entries generalizing view with
  | nil =>
      constructor
      · intro _ entry absent
        cases absent
      · intro _
        rfl
  | cons entry rest ih =>
      rw [List.forall_mem_cons]
      cases looked : (view.lookUp inspection entry.2).result with
      | error fault =>
          have failed := DependencyView.lookUp_error looked
          rw [take_of_error looked]
          constructor
          · intro impossible
            cases impossible
          · intro given
            rcases given with ⟨⟨descriptor, answered⟩, _⟩
            rw [failed] at answered
            cases answered
      | ok found =>
          obtain ⟨descriptor, later⟩ := found
          have answered := DependencyView.lookUp_ok looked
          have others := ih later
          simp only [answered.2.describe] at others
          rw [take_of_ok looked]
          constructor
          · intro completes
            exact ⟨⟨descriptor, answered.1⟩, others.mp completes⟩
          · intro described
            exact others.mpr described.2

end Survey

end ModulePlan
