/-
What comes out of reports that follow one another.

Only the results count here: a sequence gives a value exactly when each of its parts does.
-/

import Mathlib.Data.List.Forall2
import ModulePlan.Report

namespace ModulePlan

theorem exceptBind_eq_ok {ε α β : Type} {first : Except ε α} {next : α → Except ε β} {value : β} :
    first >>= next = .ok value ↔ ∃ middle, first = .ok middle ∧ next middle = .ok value := by
  cases first with
  | error fault =>
      constructor
      · intro impossible
        cases impossible
      · intro given
        rcases given with ⟨middle, impossible, _⟩
        cases impossible
  | ok middle =>
      constructor
      · intro later
        exact ⟨middle, rfl, later⟩
      · intro given
        rcases given with ⟨other, same, later⟩
        cases same
        exact later

theorem exceptBind_eq_error {ε α β : Type} {first : Except ε α} {next : α → Except ε β}
    {fault : ε} : first >>= next = .error fault ↔
      first = .error fault ∨ ∃ middle, first = .ok middle ∧ next middle = .error fault := by
  cases first with
  | error other =>
      constructor
      · intro same
        cases same
        exact Or.inl rfl
      · intro given
        rcases given with same | ⟨middle, impossible, _⟩
        · cases same
          rfl
        · cases impossible
  | ok middle =>
      constructor
      · intro later
        exact Or.inr ⟨middle, rfl, later⟩
      · intro given
        rcases given with impossible | ⟨other, same, later⟩
        · cases impossible
        · cases same
          exact later

@[simp] theorem exceptBind_ok {ε α β : Type} (value : α) (next : α → Except ε β) :
    (Except.ok value >>= next) = next value :=
  rfl

@[simp] theorem exceptBind_error {ε α β : Type} (fault : ε) (next : α → Except ε β) :
    (Except.error fault >>= next) = .error fault :=
  rfl

theorem ok_of_toOption {ε α : Type} {result : Except ε α} {value : α}
    (told : result.toOption = some value) : result = .ok value := by
  cases result with
  | error fault => cases told
  | ok found =>
      cases told
      rfl

/-- A result of which something is known is a value. -/
theorem exists_ok_of_toOption {ε α β : Type} {result : Except ε α} {shown : α → β} {known : β}
    (told : result.toOption.map shown = some known) :
    ∃ value, result = .ok value ∧ shown value = known := by
  cases result with
  | error fault => cases told
  | ok value => exact ⟨value, rfl, Option.some.inj told⟩

/-! ### Traces -/

namespace Trace

@[simp] theorem append_empty (trace : Trace) : trace.append {} = trace := by
  unfold append
  rw [List.append_nil, List.append_nil]

theorem append_assoc (first second third : Trace) :
    (first.append second).append third = first.append (second.append third) := by
  unfold append
  rw [List.append_assoc, List.append_assoc]

/-- What is told one after another. -/
def join (traces : List Trace) : Trace :=
  traces.foldr append {}

theorem join_append (first second : List Trace) :
    join (first ++ second) = (join first).append (join second) := by
  induction first with
  | nil => rfl
  | cons trace rest ih =>
      change trace.append (join (rest ++ second)) = (trace.append (join rest)).append _
      rw [ih, append_assoc]

end Trace

/-! ### Lists of results -/

/-- A list of values comes from a list of elements place by place. -/
theorem forall₂_of_mapM {ε α β : Type} {make : α → Except ε β} {elements : List α}
    {values : List β} (made : elements.mapM make = .ok values) :
    List.Forall₂ (fun element value => make element = .ok value) elements values := by
  induction elements generalizing values with
  | nil =>
      cases made
      exact .nil
  | cons first rest ih =>
      rw [List.mapM_cons] at made
      obtain ⟨here, hereMade, made⟩ := exceptBind_eq_ok.mp made
      obtain ⟨others, restMade, made⟩ := exceptBind_eq_ok.mp made
      cases made
      exact .cons hereMade (ih restMade)

theorem made_of_mapM {ε α β : Type} {make : α → Except ε β} {elements : List α}
    {values : List β} (made : elements.mapM make = .ok values) :
    (∀ value ∈ values, ∃ element ∈ elements, make element = .ok value) ∧
      ∀ element ∈ elements, ∃ value ∈ values, make element = .ok value := by
  have pairs := forall₂_of_mapM made
  clear made
  induction pairs with
  | nil => exact ⟨List.forall_mem_nil _, List.forall_mem_nil _⟩
  | @cons first here rest others hereMade _ ih =>
      obtain ⟨origins, results⟩ := ih
      refine ⟨List.forall_mem_cons.mpr ⟨⟨first, List.mem_cons_self, hereMade⟩, ?_⟩,
        List.forall_mem_cons.mpr ⟨⟨here, List.mem_cons_self, hereMade⟩, ?_⟩⟩
      · intro value present
        obtain ⟨element, among, same⟩ := origins value present
        exact ⟨element, List.mem_cons_of_mem _ among, same⟩
      · intro element present
        obtain ⟨value, among, same⟩ := results element present
        exact ⟨value, List.mem_cons_of_mem _ among, same⟩

theorem mapM_completes_iff {ε α β : Type} {make : α → Except ε β} {elements : List α} :
    (∃ values, elements.mapM make = .ok values) ↔
      ∀ element ∈ elements, ∃ value, make element = .ok value := by
  induction elements with
  | nil => exact ⟨fun _ => List.forall_mem_nil _, fun _ => ⟨[], rfl⟩⟩
  | cons first rest ih =>
      rw [List.forall_mem_cons, ← ih]
      constructor
      · intro given
        rcases given with ⟨values, made⟩
        rw [List.mapM_cons] at made
        obtain ⟨here, hereMade, made⟩ := exceptBind_eq_ok.mp made
        obtain ⟨others, restMade, _⟩ := exceptBind_eq_ok.mp made
        exact ⟨⟨here, hereMade⟩, others, restMade⟩
      · intro given
        rcases given with ⟨⟨here, hereMade⟩, others, restMade⟩
        rw [List.mapM_cons, hereMade, exceptBind_ok, restMade]
        exact ⟨_, rfl⟩

/-- A list of values is refused for the first element that gives none. -/
theorem mapM_eq_error {ε α β : Type} {make : α → Except ε β} {elements : List α} {fault : ε} :
    elements.mapM make = .error fault ↔
      ∃ before element after, elements = before ++ element :: after ∧
        (∀ other ∈ before, ∃ value, make other = .ok value) ∧ make element = .error fault := by
  induction elements with
  | nil =>
      constructor
      · intro impossible
        cases impossible
      · rintro ⟨before, element, after, same, _⟩
        cases before <;> cases same
  | cons first rest ih =>
      rw [List.mapM_cons, exceptBind_eq_error]
      constructor
      · rintro (here | ⟨value, made, later⟩)
        · exact ⟨[], first, rest, rfl, List.forall_mem_nil _, here⟩
        · rw [exceptBind_eq_error] at later
          rcases later with later | ⟨values, _, impossible⟩
          · obtain ⟨before, element, after, rfl, earlier, refused⟩ := ih.mp later
            exact ⟨first :: before, element, after, rfl,
              List.forall_mem_cons.mpr ⟨⟨value, made⟩, earlier⟩, refused⟩
          · cases impossible
      · rintro ⟨before, element, after, same, earlier, refused⟩
        cases before with
        | nil =>
            cases same
            exact Or.inl refused
        | cons other before =>
            cases same
            obtain ⟨⟨value, made⟩, earlier⟩ := List.forall_mem_cons.mp earlier
            have later := ih.mpr ⟨before, element, after, rfl, earlier, refused⟩
            exact Or.inr ⟨value, made, exceptBind_eq_error.mpr (Or.inl later)⟩

theorem fault_of_mapM {ε α β : Type} {make : α → Except ε β} {elements : List α} {fault : ε}
    (refused : elements.mapM make = .error fault) :
    ∃ element ∈ elements, make element = .error fault := by
  obtain ⟨before, element, after, rfl, _, here⟩ := mapM_eq_error.mp refused
  exact ⟨element, List.mem_append_right before List.mem_cons_self, here⟩

/-- What each value shares with its element, the lists share. -/
theorem map_of_mapM {ε α β γ : Type} {make : α → Except ε β} {shown : β → γ} {known : α → γ}
    (told : ∀ element value, make element = .ok value → shown value = known element)
    {elements : List α} {values : List β} (made : elements.mapM make = .ok values) :
    values.map shown = elements.map known := by
  have pairs := forall₂_of_mapM made
  clear made
  induction pairs with
  | nil => rfl
  | cons here _ ih => rw [List.map_cons, List.map_cons, told _ _ here, ih]

theorem mapM_map_of_forall {ε α β : Type} {make remake : α → Except ε β} {change : β → β}
    {elements : List α}
    (same : ∀ element ∈ elements, remake element = (make element).map change) :
    elements.mapM remake = (elements.mapM make).map (List.map change) := by
  induction elements with
  | nil => rfl
  | cons first rest ih =>
      obtain ⟨here, later⟩ := List.forall_mem_cons.mp same
      rw [List.mapM_cons, List.mapM_cons, here, ih later]
      cases make first with
      | error fault => rfl
      | ok value =>
          cases rest.mapM make with
          | error fault => rfl
          | ok values => rfl

namespace Report

variable {α β : Type}

@[simp] theorem result_pure (value : α) : (pure value : Report α).result = .ok value :=
  rfl

@[simp] theorem result_ofExcept (result : Except Fault α) : (ofExcept result).result = result :=
  rfl

@[simp] theorem result_debug (text : String) : (debug text).result = .ok () :=
  rfl

@[simp] theorem result_tell (level : Level) (text : String) : (tell level text).result = .ok () :=
  rfl

@[simp] theorem result_fail (fault : Fault) : (fail fault : Report α).result = .error fault :=
  rfl

@[simp] theorem result_after (trace : Trace) (report : Report α) :
    (report.after trace).result = report.result :=
  rfl

@[simp] theorem result_bind (report : Report α) (next : α → Report β) :
    (report >>= next).result = report.result >>= fun value => (next value).result := by
  change (Report.bind report next).result = _
  unfold Report.bind
  cases report.result with
  | error fault => rfl
  | ok value => rfl

theorem trace_bind_of_ok {report : Report α} {value : α} (done : report.result = .ok value)
    (next : α → Report β) : (report >>= next).trace = report.trace.append (next value).trace := by
  change (Report.bind report next).trace = _
  unfold Report.bind
  rw [done]

/-- What is told does not depend on what is made of the value. -/
theorem trace_bind_pure (report : Report α) (make : α → β) :
    (report >>= fun value => pure (make value)).trace = report.trace := by
  change (Report.bind report _).trace = _
  unfold Report.bind
  cases report.result with
  | error fault => rfl
  | ok value => exact Trace.append_empty report.trace

end Report

end ModulePlan
