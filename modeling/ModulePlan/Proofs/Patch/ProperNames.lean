/-
The names in proper patch files.

What a patch file says holds valid names, and besides them only words that the compiler knows;
the word for the test dependencies is taken out.  Such names are not blank and hold no separator
of an option's value.  So names that are joined with commas are found again, and keys end where
they are meant to.
-/

import ModulePlan.Proofs.Patch.Default
import ModulePlan.Proofs.Patch.Meaning

namespace ModulePlan

/-! ### Sets of names -/

/-- The names of a set are valid, apart from special words. -/
def AreNames (special : List String) (names : NameSet) : Prop :=
  ∀ name ∈ names, isValidName name = true ∨ name ∈ special

/-- The packages are valid names, and their targets are names. -/
def AreTargets (special : List String) (targets : Targets) : Prop :=
  ∀ entry ∈ targets.entries, isValidName entry.1 = true ∧ AreNames special entry.2

variable {special : List String}

theorem AreNames.mono {others : List String} (inside : special ⊆ others) {names : NameSet}
    (named : AreNames special names) : AreNames others names := by
  intro name present
  exact (named name present).imp_right fun listed => inside listed

theorem AreTargets.mono {others : List String} (inside : special ⊆ others) {targets : Targets}
    (sound : AreTargets special targets) : AreTargets others targets :=
  fun entry present => ⟨(sound entry present).1, (sound entry present).2.mono inside⟩

theorem areNames_empty : AreNames special .empty := by
  intro name absent
  cases absent

theorem areTargets_empty : AreTargets special .empty := by
  intro entry absent
  cases absent

theorem areNames_union {names others : NameSet} (here : AreNames special names)
    (there : AreNames special others) : AreNames special (names.union others) := by
  intro name present
  rcases (DistinctList.mem_union names others name).mp present with first | second
  · exact here name first
  · exact there name second

theorem areTargets_addTargets {targets : Targets} (sound : AreTargets special targets)
    {package : String} (valid : isValidName package = true) {names : NameSet}
    (named : AreNames special names) : AreTargets special (addTargets targets package names) := by
  intro entry present
  rcases KeyedList.mem_entries_of_mem_alter present with before | rfl
  · exact sound entry before
  · refine ⟨valid, areNames_union ?_ named⟩
    cases found : targets.get? package with
    | none => exact areNames_empty
    | some held => exact (sound _ (KeyedList.mem_entries_of_get? found)).2

/-- Without the word for the test dependencies, the names of a proper list are names. -/
theorem areNames_plainNames {names : List String}
    (proper : Patch.AreProper (special ++ [testModulePath]) names) :
    AreNames special (Patch.Overrides.plainNames names) := by
  intro name present
  obtain ⟨given, plain⟩ := (DistinctList.mem_erase _ _ _).mp present
  rcases proper.2 name ((DistinctList.mem_ofList _ _).mp given) with listed | valid
  · rcases List.mem_append.mp listed with known | word
    · exact Or.inr known
    · exact absurd (List.mem_singleton.mp word) plain
  · exact Or.inl valid

theorem areNames_ofList {names : List String} (proper : Patch.AreProper special names) :
    AreNames special (.ofList names) := by
  intro name present
  exact (proper.2 name ((DistinctList.mem_ofList _ _).mp present)).symm

/-! ### Patch files -/

namespace Patch.Overrides

/-- What a patch file says holds names only, and in each list the words that it may hold. -/
structure AreWellNamed (overrides : Overrides) : Prop where
  addModules : AreNames [allModulePath] overrides.addModules
  limitModules : AreNames [] overrides.limitModules
  addReads : AreNames [] overrides.addReads
  addExports : AreTargets [allUnnamed] overrides.addExports
  addOpens : AreTargets [] overrides.addOpens

theorem areWellNamed_empty : AreWellNamed {} where
  addModules := areNames_empty
  limitModules := areNames_empty
  addReads := areNames_empty
  addExports := areTargets_empty
  addOpens := areTargets_empty

theorem areWellNamed_add {overrides : Overrides} (sound : overrides.AreWellNamed)
    {directive : Directive} (proper : directive.IsProper) :
    (overrides.add directive).AreWellNamed := by
  cases directive with
  | addModules names =>
      exact { sound with
        addModules := areNames_union sound.addModules (areNames_plainNames proper) }
  | limitModules names =>
      exact { sound with
        limitModules := areNames_union sound.limitModules (areNames_ofList proper) }
  | addReads names =>
      exact { sound with
        addReads := areNames_union sound.addReads (areNames_plainNames proper) }
  | addExports package targets =>
      exact { sound with
        addExports :=
          areTargets_addTargets sound.addExports proper.1 (areNames_plainNames proper.2) }
  | addOpens package targets =>
      exact { sound with
        addOpens := areTargets_addTargets sound.addOpens proper.1 (areNames_ofList proper.2) }

theorem areWellNamed_of_proper {declaration : Declaration} (proper : declaration.IsProper) :
    declaration.overrides.AreWellNamed := by
  apply List.foldlRecOn _ _ areWellNamed_empty
  intro overrides sound directive present
  exact areWellNamed_add sound (proper.2 directive present)

/-- No package is without targets. -/
def HaveTargets (targets : Targets) : Prop :=
  ∀ entry ∈ targets.entries, ∃ target, target ∈ entry.2

theorem haveTargets_addTargets {targets : Targets} (sound : HaveTargets targets)
    {names : NameSet} (some : ∃ name, name ∈ names) (package : String) :
    HaveTargets (addTargets targets package names) := by
  intro entry present
  rcases KeyedList.mem_entries_of_mem_alter present with before | rfl
  · exact sound entry before
  · obtain ⟨name, given⟩ := some
    exact ⟨name, (DistinctList.mem_union _ _ _).mpr (Or.inr given)⟩

/-- If the word for the test dependencies is not among the names, targets are left when it is
taken out. -/
theorem haveTargets_of_proper {declaration : Declaration} (proper : declaration.IsProper)
    (plain : ∀ directive ∈ declaration.directives, testModulePath ∉ directive.names) :
    HaveTargets declaration.overrides.addExports ∧
      HaveTargets declaration.overrides.addOpens := by
  have start : HaveTargets (.empty) := List.forall_mem_nil _
  apply List.foldlRecOn (motive := fun overrides : Overrides =>
    HaveTargets overrides.addExports ∧ HaveTargets overrides.addOpens) _ _ ⟨start, start⟩
  intro overrides sound directive present
  have own := proper.2 directive present
  cases directive with
  | addExports package targets =>
      refine ⟨haveTargets_addTargets sound.1 ?_ package, sound.2⟩
      obtain ⟨target, given⟩ := List.exists_mem_of_ne_nil _ own.2.1
      refine ⟨target, (DistinctList.mem_erase _ _ _).mpr ⟨?_, ?_⟩⟩
      · exact (DistinctList.mem_ofList _ _).mpr given
      · intro same
        rcases same with rfl
        exact plain _ present given
  | addOpens package targets =>
      refine ⟨sound.1, haveTargets_addTargets sound.2 ?_ package⟩
      obtain ⟨target, given⟩ := List.exists_mem_of_ne_nil _ own.2.1
      exact ⟨target, (DistinctList.mem_ofList _ _).mpr given⟩
  | _ => exact sound

end Patch.Overrides

/-! ### Separators -/

/-- A name that a list with commas keeps. -/
structure IsListable (name : String) : Prop where
  visible : Text.isBlankText name = false
  whole : ',' ∉ name.toList

namespace Patch

theorem not_mem_of_valid {name : String} (valid : isValidName name = true) {c : Char}
    (noDot : c ≠ '.') (noPart : Text.isIdentifierPart c = false) : c ∉ name.toList := by
  intro present
  rcases Tokens.part_of_valid valid c present with same | part
  · exact noDot same
  · rw [noPart] at part
    cases part

theorem isListable_of_valid {name : String} (valid : isValidName name = true) :
    IsListable name :=
  ⟨isBlankText_of_valid valid, not_mem_of_valid valid (by decide) (by decide)⟩

theorem isListable_of_added {declaration : Declaration} (proper : declaration.IsProper)
    {name : String} (present : name ∈ firstNames (declaration.names .addModules)) :
    IsListable name := by
  rw [← (Overrides.follow_of_proper proper).addModules] at present
  rcases (Overrides.areWellNamed_of_proper proper).addModules name present with valid | special
  · exact isListable_of_valid valid
  · rw [List.mem_singleton.mp special]
    exact ⟨by decide, by decide⟩

end Patch

end ModulePlan
