/-
What a view of dependencies answers over a history.

Dependencies are added and artifacts are asked about in any order.  The last dependency that came
with word of an artifact settles what the artifact is.  Any other artifact is looked at when it is
asked about, and not again once a look has succeeded.
-/

import ModulePlan.Proofs.DependencyView

namespace ModulePlan.DependencyView

/-- What is asked of an artifact. -/
inductive Question where
  | descriptor
  | name

/-- What is done with a view. -/
inductive Call where
  | add (dependency : Dependency) (path : FilePath) (descriptor : Option ModuleDescriptor)
      (inspect : Bool)
  | ask (question : Question) (path : FilePath)

/-- The view after something was asked of it, which is as before if there was no answer. -/
def keep {α : Type} (view : DependencyView) (report : Report (α × DependencyView)) :
    DependencyView :=
  match report.result with
  | .ok (_, later) => later
  | .error _ => view

def perform (inspection : Inspection) (view : DependencyView) : Call → DependencyView
  | .add dependency path descriptor inspect => view.add dependency path descriptor inspect
  | .ask .descriptor path => view.keep (view.lookUp inspection path)
  | .ask .name path => view.keep (view.nameOf inspection path)

def run (inspection : Inspection) (view : DependencyView) (calls : List Call) : DependencyView :=
  calls.foldl (perform inspection) view

/-- What is told during a call. -/
def told (inspection : Inspection) (view : DependencyView) : Call → Trace
  | .add .. => {}
  | .ask .descriptor path => (view.lookUp inspection path).trace
  | .ask .name path => (view.nameOf inspection path).trace

def toldOver (inspection : Inspection) (view : DependencyView) : List Call → Trace
  | [] => {}
  | call :: rest =>
    (view.told inspection call).append ((view.perform inspection call).toldOver inspection rest)

/-! ### The ledger of looks -/

/-- The artifacts that a call looks at. -/
def looks (view : DependencyView) : Call → List FilePath
  | .add .. => []
  | .ask _ path => if (view.descriptors.get? path).isSome then [] else [path]

def looksOver (inspection : Inspection) (view : DependencyView) : List Call → List FilePath
  | [] => []
  | call :: rest => view.looks call ++ (view.perform inspection call).looksOver inspection rest

/-! ### What is settled -/

/-- What a call says an artifact is, if it is the addition of a dependency with a descriptor or
of one that is not to be inspected. -/
def Call.settles? (path : FilePath) : Call → Option (Option ModuleDescriptor)
  | .add _ other descriptor inspect =>
    if other = path && (descriptor.isSome || !inspect) then some descriptor else none
  | .ask .. => none

/-- The last word on what an artifact is. -/
def settled? (calls : List Call) (path : FilePath) : Option (Option ModuleDescriptor) :=
  (calls.filterMap (Call.settles? path)).getLast?

/-- What an artifact is by the last word on it, or else by a look at it. -/
def answer (inspection : Inspection) (calls : List Call) (path : FilePath) :
    Except Fault (Option ModuleDescriptor) :=
  match settled? calls path with
  | some known => .ok known
  | none => (inspection path).result

def Call.added? : Call → Option (Dependency × FilePath)
  | .add dependency path _ _ => some (dependency, path)
  | .ask .. => none

/-! ### One call -/

variable {inspection : Inspection} {view : DependencyView}

theorem result_nameOf (inspection : Inspection) (view : DependencyView) (path : FilePath) :
    (view.nameOf inspection path).result =
      (view.lookUp inspection path).result.map fun found =>
        (found.1.map (·.name), found.2) := by
  unfold nameOf
  rw [Report.result_bind]
  cases (view.lookUp inspection path).result with
  | error fault => rfl
  | ok found => rfl

/-- Whatever is asked of an artifact, the view then knows its descriptor, if there is one to be
known. -/
theorem perform_ask (inspection : Inspection) (view : DependencyView) (question : Question)
    (path : FilePath) :
    view.perform inspection (.ask question path) =
      match view.describe inspection path with
      | .ok found => view.learn path found
      | .error _ => view := by
  cases question with
  | descriptor =>
      simp only [perform, keep, result_lookUp]
      cases view.describe inspection path with
      | error fault => rfl
      | ok found => rfl
  | name =>
      simp only [perform, keep, result_nameOf, result_lookUp]
      cases view.describe inspection path with
      | error fault => rfl
      | ok found => rfl

theorem told_ask (inspection : Inspection) (view : DependencyView) (question : Question)
    (path : FilePath) :
    view.told inspection (.ask question path) = (view.ask inspection path).trace := by
  have looked : (view.lookUp inspection path).trace = (view.ask inspection path).trace := by
    rw [lookUp_eq, Report.trace_bind_pure]
  cases question with
  | descriptor => exact looked
  | name => exact (Report.trace_bind_pure _ _).trans looked

/-- What is told during a call is what is told by the look that it takes. -/
theorem told_eq_looks (inspection : Inspection) (view : DependencyView) (call : Call) :
    view.told inspection call =
      Trace.join ((view.looks call).map fun path => (inspection path).trace) := by
  cases call with
  | add dependency path descriptor inspect => rfl
  | ask question path =>
      rw [told_ask, looks]
      unfold DependencyView.ask
      cases view.descriptors.get? path with
      | some known => rfl
      | none => exact (Trace.append_empty _).symm

/-- Only an artifact of which nothing is known is looked at. -/
theorem asked_of_looks {path : FilePath} {call : Call} (looked : path ∈ view.looks call) :
    (∃ question, call = .ask question path) ∧ view.descriptors.get? path = none := by
  cases call with
  | add dependency other descriptor inspect => cases looked
  | ask question other =>
      rw [looks] at looked
      split at looked
      · cases looked
      · rename_i unknown
        obtain rfl := List.mem_singleton.mp looked
        exact ⟨⟨question, rfl⟩, by simpa using unknown⟩

theorem get?_add (view : DependencyView) (dependency : Dependency) (path other : FilePath)
    (descriptor : Option ModuleDescriptor) (inspect : Bool) :
    (view.add dependency path descriptor inspect).descriptors.get? other =
      ((Call.add dependency path descriptor inspect).settles? other).or
        (view.descriptors.get? other) := by
  rw [Call.settles?]
  unfold DependencyView.add
  cases descriptor.isSome || !inspect with
  | true =>
      rw [if_pos rfl, KeyedList.get?_insert, Bool.and_true]
      by_cases same : other = path
      · rw [if_pos same, if_pos (decide_eq_true same.symm)]
        rfl
      · rw [if_neg same, if_neg (by simpa using Ne.symm same)]
        rfl
  | false =>
      rw [if_neg Bool.false_ne_true, Bool.and_false, if_neg Bool.false_ne_true]
      rfl

/-- What is known of an artifact is not forgotten. -/
theorem isSome_get?_perform {path : FilePath} (known : (view.descriptors.get? path).isSome = true)
    (inspection : Inspection) (call : Call) :
    ((view.perform inspection call).descriptors.get? path).isSome = true := by
  cases call with
  | ask question other =>
      rw [perform_ask]
      cases view.describe inspection other with
      | error fault => exact known
      | ok found =>
          simp only [get?_learn]
          split
          · rfl
          · exact known
  | add dependency other descriptor inspect =>
      rw [perform, get?_add, Option.isSome_or, known, Bool.or_true]

/-- After a look that succeeds, the artifact is known. -/
theorem isSome_get?_of_looks {path : FilePath} {call : Call} (looked : path ∈ view.looks call)
    {found : Option ModuleDescriptor} (succeeds : (inspection path).result = .ok found) :
    ((view.perform inspection call).descriptors.get? path).isSome = true := by
  obtain ⟨⟨question, rfl⟩, unknown⟩ := asked_of_looks looked
  have described : view.describe inspection path = .ok found := by
    unfold describe
    rw [unknown]
    exact succeeds
  rw [perform_ask, described]
  simp only [get?_learn, if_true, Option.isSome_some]

/-! ### What is known over a history -/

/-- A view knows of an artifact what the last word on it was, and of the others only what a look
says. -/
structure Remembers (inspection : Inspection) (calls : List Call) (view : DependencyView) :
    Prop where
  settled : ∀ path known, settled? calls path = some known →
    view.descriptors.get? path = some known
  found : ∀ path known, settled? calls path = none → view.descriptors.get? path = some known →
    (inspection path).result = .ok known

theorem settled?_concat (calls : List Call) (call : Call) (path : FilePath) :
    settled? (calls ++ [call]) path = (call.settles? path).or (settled? calls path) := by
  unfold settled?
  rw [List.filterMap_append, List.getLast?_append, List.filterMap_cons, List.filterMap_nil]
  cases call.settles? path with
  | none => rfl
  | some known => rfl

theorem describe_of_remembers {calls : List Call} (remembers : Remembers inspection calls view)
    (path : FilePath) : view.describe inspection path = answer inspection calls path := by
  unfold describe answer
  cases last : settled? calls path with
  | some known => rw [remembers.settled path known last]
  | none =>
      cases held : view.descriptors.get? path with
      | none => rfl
      | some known => exact (remembers.found path known last held).symm

private theorem remembers_add {calls : List Call} (remembers : Remembers inspection calls view)
    (dependency : Dependency) (path : FilePath) (descriptor : Option ModuleDescriptor)
    (inspect : Bool) :
    Remembers inspection (calls ++ [.add dependency path descriptor inspect])
      (view.add dependency path descriptor inspect) := by
  constructor
  · intro other known last
    rw [settled?_concat] at last
    rw [get?_add]
    cases settles : (Call.add dependency path descriptor inspect).settles? other with
    | some here =>
        rw [settles] at last
        exact last
    | none =>
        rw [settles] at last
        exact remembers.settled other known last
  · intro other known unsettled held
    rw [settled?_concat, Option.or_eq_none_iff] at unsettled
    rw [get?_add, unsettled.1] at held
    exact remembers.found other known unsettled.2 held

private theorem remembers_learn {calls : List Call} (remembers : Remembers inspection calls view)
    {path : FilePath} {found : Option ModuleDescriptor}
    (told : answer inspection calls path = .ok found) :
    Remembers inspection calls (view.learn path found) := by
  constructor
  · intro other known last
    rw [get?_learn]
    split
    · rename_i same
      rw [← same, remembers.settled other known last]
      rfl
    · exact remembers.settled other known last
  · intro other known unsettled held
    rw [get?_learn] at held
    split at held
    · rename_i same
      subst same
      cases earlier : view.descriptors.get? other with
      | none =>
          rw [earlier] at held
          cases held
          unfold answer at told
          rw [unsettled] at told
          exact told
      | some before =>
          rw [earlier] at held
          cases held
          exact remembers.found other _ unsettled earlier
    · exact remembers.found other known unsettled held

theorem remembers_perform {calls : List Call} (remembers : Remembers inspection calls view)
    (call : Call) : Remembers inspection (calls ++ [call]) (view.perform inspection call) := by
  cases call with
  | add dependency path descriptor inspect =>
      exact remembers_add remembers dependency path descriptor inspect
  | ask question path =>
      have same : settled? (calls ++ [.ask question path]) = settled? calls :=
        funext fun other => settled?_concat calls (.ask question path) other
      have unchanged : ∀ later, Remembers inspection calls later →
          Remembers inspection (calls ++ [.ask question path]) later := by
        intro later given
        exact ⟨same ▸ given.settled, same ▸ given.found⟩
      rw [perform_ask]
      apply unchanged
      cases described : view.describe inspection path with
      | error fault => exact remembers
      | ok found =>
          rw [describe_of_remembers remembers] at described
          exact remembers_learn remembers described

theorem remembers_run (inspection : Inspection) (calls : List Call) :
    Remembers inspection calls (run inspection {} calls) := by
  induction calls using List.reverseRecOn with
  | nil => exact ⟨nofun, fun _ _ _ impossible => nomatch impossible⟩
  | append_singleton calls call ih =>
      unfold run
      rw [List.foldl_append]
      exact remembers_perform ih call

/-! ### Looks over a history -/

theorem toldOver_eq_looksOver (inspection : Inspection) (view : DependencyView)
    (calls : List Call) :
    view.toldOver inspection calls =
      Trace.join ((view.looksOver inspection calls).map fun path => (inspection path).trace) := by
  induction calls generalizing view with
  | nil => rfl
  | cons call rest ih =>
      rw [toldOver, looksOver, ih, told_eq_looks, List.map_append, Trace.join_append]

theorem not_mem_looksOver {path : FilePath} (known : (view.descriptors.get? path).isSome = true)
    (inspection : Inspection) (calls : List Call) : path ∉ view.looksOver inspection calls := by
  induction calls generalizing view with
  | nil => exact List.not_mem_nil
  | cons call rest ih =>
      rw [looksOver, List.mem_append, not_or]
      refine ⟨?_, ih (isSome_get?_perform known inspection call)⟩
      intro looked
      rw [(asked_of_looks looked).2] at known
      cases known

theorem count_looks_le (view : DependencyView) (call : Call) (path : FilePath) :
    (view.looks call).count path ≤ 1 := by
  cases call with
  | add dependency other descriptor inspect => exact Nat.zero_le 1
  | ask question other =>
      rw [looks]
      split
      · exact Nat.zero_le 1
      · exact List.count_le_length

/-- An artifact that can be looked at is looked at once at most. -/
theorem count_looksOver_le {path : FilePath} {found : Option ModuleDescriptor}
    (succeeds : (inspection path).result = .ok found) (view : DependencyView)
    (calls : List Call) : (view.looksOver inspection calls).count path ≤ 1 := by
  induction calls generalizing view with
  | nil => exact Nat.zero_le 1
  | cons call rest ih =>
      rw [looksOver, List.count_append]
      by_cases looked : path ∈ view.looks call
      · have later := not_mem_looksOver (isSome_get?_of_looks looked succeeds) inspection rest
        rw [List.count_eq_zero_of_not_mem later]
        exact count_looks_le view call path
      · rw [List.count_eq_zero_of_not_mem looked, Nat.zero_add]
        exact ih (view.perform inspection call)

/-! ### Dependencies over a history -/

theorem dependencies_perform (inspection : Inspection) (view : DependencyView) (call : Call) :
    (view.perform inspection call).dependencies =
      call.added?.toList.foldl (fun table pair => table.insert pair.1 pair.2)
        view.dependencies := by
  cases call with
  | add dependency path descriptor inspect => rfl
  | ask question path =>
      rw [perform_ask]
      cases described : view.describe inspection path with
      | error fault => rfl
      | ok found => exact (learn_agrees described).dependencies

/-- The dependencies of a view are those that were added, one after another. -/
theorem dependencies_run (inspection : Inspection) (calls : List Call) :
    (run inspection {} calls).dependencies = .ofList (calls.filterMap Call.added?) := by
  induction calls using List.reverseRecOn with
  | nil => rfl
  | append_singleton calls call ih =>
      unfold run at ih ⊢
      rw [List.foldl_append, List.foldl_cons, List.foldl_nil, dependencies_perform, ih,
        List.filterMap_append, KeyedList.ofList_append]
      cases call <;> rfl

/-! ### Soundness -/

/-- What can be said of a view that was made by some calls. -/
structure IsSound (inspection : Inspection) (calls : List Call) (view : DependencyView) :
    Prop where
  /-- The artifacts in the ledger were looked at, and no other ones. -/
  told : toldOver inspection {} calls =
    Trace.join ((looksOver inspection {} calls).map fun path => (inspection path).trace)
  once : ∀ path found, (inspection path).result = .ok found →
    (looksOver inspection {} calls).count path ≤ 1
  settled : ∀ path, (settled? calls path).isSome = true →
    ∀ later, path ∉ view.looksOver inspection later
  descriptor : ∀ path, (view.lookUp inspection path).result.map Prod.fst =
    answer inspection calls path
  name : ∀ path, (view.nameOf inspection path).result.map Prod.fst =
    (answer inspection calls path).map fun found => found.map (·.name)
  /-- After a look that fails all is as before, and the next question takes a look again. -/
  failure : ∀ path fault, answer inspection calls path = .error fault → ∀ question,
    view.perform inspection (.ask question path) = view ∧
      view.looks (.ask question path) = [path]
  keys : view.dependencies.keys = ((calls.filterMap Call.added?).map Prod.fst).eraseDups
  paths : ∀ dependency, view.dependencies.get? dependency =
    ((calls.filterMap Call.added?).filter (·.1 = dependency)).getLast?.map Prod.snd

/-- Whatever is added to a view and asked of it, in whatever order, its answers are those of the
last word on an artifact or of a look at it, and no look is taken that is not needed. -/
theorem isSound_run (inspection : Inspection) (calls : List Call) :
    IsSound inspection calls (run inspection {} calls) := by
  have remembers := remembers_run inspection calls
  have described := describe_of_remembers remembers
  have dependencies := dependencies_run inspection calls
  constructor
  · exact toldOver_eq_looksOver inspection {} calls
  · intro path found succeeds
    exact count_looksOver_le succeeds {} calls
  · intro path word later
    obtain ⟨known, last⟩ := Option.isSome_iff_exists.mp word
    apply not_mem_looksOver
    rw [remembers.settled path known last]
    rfl
  · intro path
    rw [result_lookUp, described]
    cases answer inspection calls path with
    | error fault => rfl
    | ok found => rfl
  · intro path
    rw [result_nameOf, result_lookUp, described]
    cases answer inspection calls path with
    | error fault => rfl
    | ok found => rfl
  · intro path fault failed question
    have unknown := described path
    rw [failed] at unknown
    constructor
    · rw [perform_ask, unknown]
    · unfold describe at unknown
      rw [looks]
      cases held : (run inspection {} calls).descriptors.get? path with
      | some known =>
          rw [held] at unknown
          cases unknown
      | none => rfl
  · rw [dependencies]
    exact KeyedList.keys_ofList _
  · intro dependency
    rw [dependencies]
    exact KeyedList.get?_ofList _ dependency

end ModulePlan.DependencyView
