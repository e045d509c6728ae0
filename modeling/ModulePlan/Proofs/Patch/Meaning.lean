/-
The meaning of patch files.

The meaning is stated on the lists of a tree as they are written; the overrides that are
merged directive by directive come to the same.
-/

import ModulePlan.Patch.Overrides
import ModulePlan.Proofs.DistinctList
import ModulePlan.Proofs.KeyedList
import ModulePlan.Proofs.Patch.Grammar

namespace ModulePlan.Patch

/-! ### What a tree says -/

def Directive.keyword : Directive → Keyword
  | .addModules _ => .addModules
  | .limitModules _ => .limitModules
  | .addReads _ => .addReads
  | .addExports _ _ => .addExports
  | .addOpens _ _ => .addOpens

def Directive.names : Directive → List String
  | .addModules names | .limitModules names | .addReads names => names
  | .addExports _ targets | .addOpens _ targets => targets

def Directive.package? : Directive → Option String
  | .addModules _ | .limitModules _ | .addReads _ => none
  | .addExports package _ | .addOpens package _ => some package

def Directive.namesUnder (keyword : Keyword) (directive : Directive) : List String :=
  if directive.keyword = keyword then directive.names else []

/-- The package of a directive with its targets, if it is of this keyword. -/
def Directive.targetsUnder? (keyword : Keyword) (directive : Directive) :
    Option (String × List String) :=
  if directive.keyword = keyword then directive.package?.map (·, directive.names) else none

def Declaration.names (declaration : Declaration) (keyword : Keyword) : List String :=
  declaration.directives.flatMap (Directive.namesUnder keyword)

/-- The packages in the directives of a keyword, each time with the targets given there. -/
def Declaration.targets (declaration : Declaration) (keyword : Keyword) :
    List (String × List String) :=
  declaration.directives.filterMap (Directive.targetsUnder? keyword)

theorem Declaration.word_mem_tokens {declaration : Declaration} {directive : Directive}
    (present : directive ∈ declaration.directives) {name : String}
    (listed : name ∈ directive.names) : Token.word name ∈ declaration.tokens := by
  have word := Reading.word_mem_listTokens listed
  have inside : Token.word name ∈ directive.tokens := by
    cases directive with
    | addModules names => exact List.mem_cons_of_mem _ word
    | limitModules names => exact List.mem_cons_of_mem _ word
    | addReads names => exact List.mem_cons_of_mem _ word
    | addExports package targets => exact List.mem_append_right _ word
    | addOpens package targets => exact List.mem_append_right _ word
  apply List.mem_append_left
  exact List.mem_append_right _ (List.mem_flatMap_of_mem present inside)

/-- The names other than the word for the test dependencies, each where it first occurs. -/
def firstNames (names : List String) : List String :=
  (names.filter (· ≠ "TEST-MODULE-PATH")).eraseDups

def targetsOf (package : String) (pairs : List (String × List String)) : List String :=
  (pairs.filter (·.1 = package)).flatMap Prod.snd

/-- The packages, each where it first occurs, with all their targets. -/
def firstTargets (pairs : List (String × List String)) : List (String × List String) :=
  (pairs.map Prod.fst).eraseDups.map fun package =>
    (package, firstNames (targetsOf package pairs))

/-- The overrides are what the tree says. -/
structure Overrides.Follow (overrides : Overrides) (declaration : Declaration) : Prop where
  addModules : overrides.addModules.toList = firstNames (declaration.names .addModules)
  limitModules : overrides.limitModules.toList = firstNames (declaration.names .limitModules)
  addReads : overrides.addReads.toList = firstNames (declaration.names .addReads)
  addExports :
    (overrides.addExports.entries.map fun (package, targets) => (package, targets.toList)) =
      firstTargets (declaration.targets .addExports)
  addOpens :
    (overrides.addOpens.entries.map fun (package, targets) => (package, targets.toList)) =
      firstTargets (declaration.targets .addOpens)
  addTestModules :
    overrides.addTestModules = true ↔ "TEST-MODULE-PATH" ∈ declaration.names .addModules
  readTestModules :
    overrides.readTestModules = true ↔ "TEST-MODULE-PATH" ∈ declaration.names .addReads
  exportsToTest :
    overrides.exportsToTest.toList =
      (((declaration.targets .addExports).filter fun (_, targets) =>
        "TEST-MODULE-PATH" ∈ targets).map Prod.fst).eraseDups

/-! ### Merging -/

private def merge (pairs : List (String × List String)) : Targets :=
  KeyedList.gather Prod.fst (fun _ => .empty)
    (fun names pair => names.union (DistinctList.ofList pair.2)) pairs

private theorem merge_concat (pairs : List (String × List String)) (pair : String × List String) :
    merge (pairs ++ [pair]) = addTargets (merge pairs) pair.1 (DistinctList.ofList pair.2) := by
  unfold merge KeyedList.gather
  rw [List.foldl_append, List.foldl_cons, List.foldl_nil]
  rfl

private theorem foldl_union_ofList (pairs : List (String × List String)) :
    pairs.foldl (fun names pair => names.union (DistinctList.ofList pair.2)) .empty =
      DistinctList.ofList (pairs.flatMap Prod.snd) := by
  induction pairs using List.reverseRecOn with
  | nil => rfl
  | append_singleton pairs pair ih =>
      rw [List.foldl_append, List.foldl_cons, List.foldl_nil, ih, DistinctList.union_ofList,
        List.flatMap_append, List.flatMap_singleton]

private theorem entries_merge (pairs : List (String × List String)) :
    (merge pairs).entries =
      (pairs.map Prod.fst).eraseDups.map fun package =>
        (package, DistinctList.ofList (targetsOf package pairs)) := by
  unfold merge targetsOf
  rw [KeyedList.entries_gather]
  simp only [foldl_union_ofList]

/-- Targets are kept apart by their packages, also when names are left out of them. -/
private theorem targetsOf_map_filter (package : String) (pairs : List (String × List String))
    (test : String → Bool) :
    targetsOf package (pairs.map fun pair => (pair.1, pair.2.filter test)) =
      (targetsOf package pairs).filter test := by
  unfold targetsOf
  rw [List.filter_map, List.flatMap_map, List.filter_flatMap]
  rfl

namespace Overrides

/-! ### What the directives add -/

theorem plainNames_eq (names : List String) :
    plainNames names = DistinctList.ofList (names.filter (· ≠ testModulePath)) :=
  DistinctList.erase_ofList names testModulePath

section Folds

variable (directives : List Directive)

private theorem names_foldl {field : Overrides → NameSet} {part : Directive → List String}
    (start : field {} = .empty)
    (step : ∀ overrides directive, field (add overrides directive) =
      (field overrides).union (DistinctList.ofList (part directive))) :
    field (directives.foldl add {}) = DistinctList.ofList (directives.flatMap part) := by
  induction directives using List.reverseRecOn with
  | nil => exact start
  | append_singleton directives directive ih =>
      rw [List.foldl_append, List.foldl_cons, List.foldl_nil, step, ih, DistinctList.union_ofList,
        List.flatMap_append, List.flatMap_singleton]

private theorem request_foldl {field : Overrides → Bool} {part : Directive → Bool}
    (start : field {} = false)
    (step : ∀ overrides directive, field (add overrides directive) =
      (field overrides || part directive)) :
    field (directives.foldl add {}) = directives.any part := by
  induction directives using List.reverseRecOn with
  | nil => exact start
  | append_singleton directives directive ih =>
      rw [List.foldl_append, List.foldl_cons, List.foldl_nil, step, ih, List.any_append]
      simp

private theorem targets_foldl {field : Overrides → Targets}
    {part : Directive → Option (String × List String)} (start : field {} = .empty)
    (step : ∀ overrides directive, field (add overrides directive) =
      match part directive with
      | none => field overrides
      | some pair =>
        addTargets (field overrides) pair.1 (DistinctList.ofList pair.2)) :
    field (directives.foldl add {}) = merge (directives.filterMap part) := by
  induction directives using List.reverseRecOn with
  | nil => exact start
  | append_singleton directives directive ih =>
      rw [List.foldl_append, List.foldl_cons, List.foldl_nil, step, List.filterMap_append, ih]
      cases added : part directive with
      | none => simp [added]
      | some pair =>
          rw [List.filterMap_cons_some added, List.filterMap_nil, merge_concat]

end Folds

variable (declaration : Declaration)

private theorem addModules_overrides :
    declaration.overrides.addModules =
      DistinctList.ofList ((declaration.names .addModules).filter (· ≠ testModulePath)) := by
  unfold Declaration.names
  rw [List.filter_flatMap]
  apply names_foldl declaration.directives rfl
  intro overrides directive
  rw [← plainNames_eq]
  cases directive <;> rfl

private theorem limitModules_overrides :
    declaration.overrides.limitModules =
      DistinctList.ofList (declaration.names .limitModules) := by
  apply names_foldl declaration.directives rfl
  intro overrides directive
  cases directive <;> rfl

private theorem addReads_overrides :
    declaration.overrides.addReads =
      DistinctList.ofList ((declaration.names .addReads).filter (· ≠ testModulePath)) := by
  unfold Declaration.names
  rw [List.filter_flatMap]
  apply names_foldl declaration.directives rfl
  intro overrides directive
  rw [← plainNames_eq]
  cases directive <;> rfl

private theorem addTestModules_overrides :
    declaration.overrides.addTestModules =
      declaration.directives.any fun directive =>
        asksForTest (directive.namesUnder .addModules) := by
  apply request_foldl declaration.directives rfl
  intro overrides directive
  cases directive <;>
    simp [add, asksForTest, Directive.namesUnder, Directive.keyword, Directive.names]

private theorem readTestModules_overrides :
    declaration.overrides.readTestModules =
      declaration.directives.any fun directive =>
        asksForTest (directive.namesUnder .addReads) := by
  apply request_foldl declaration.directives rfl
  intro overrides directive
  cases directive <;>
    simp [add, asksForTest, Directive.namesUnder, Directive.keyword, Directive.names]

private theorem addExports_overrides :
    declaration.overrides.addExports =
      merge ((declaration.targets .addExports).map fun pair =>
        (pair.1, pair.2.filter (· ≠ testModulePath))) := by
  unfold Declaration.targets
  rw [List.map_filterMap]
  apply targets_foldl declaration.directives rfl
  intro overrides directive
  cases directive with
  | addExports package targets =>
      exact congrArg (addTargets overrides.addExports package) (plainNames_eq targets)
  | _ => rfl

private theorem addOpens_overrides :
    declaration.overrides.addOpens = merge (declaration.targets .addOpens) := by
  apply targets_foldl declaration.directives rfl
  intro overrides directive
  cases directive <;> rfl

private theorem exportsToTest_overrides :
    declaration.overrides.exportsToTest =
      DistinctList.ofList (((declaration.targets .addExports).filter fun pair =>
        testModulePath ∈ pair.2).map Prod.fst) := by
  unfold Declaration.targets
  rw [List.filterMap_eq_flatMap_toList, List.filter_flatMap, List.map_flatMap]
  apply names_foldl declaration.directives rfl
  intro overrides directive
  cases directive with
  | addExports package targets =>
      have listed : (Directive.addExports package targets).targetsUnder? .addExports =
          some (package, targets) := rfl
      rw [listed, Option.toList_some, List.filter_singleton]
      change (if asksForTest targets then overrides.exportsToTest.insert package
        else overrides.exportsToTest) = _
      unfold asksForTest
      by_cases asked : testModulePath ∈ targets
      · rw [if_pos (decide_eq_true asked), decide_eq_true asked]
        rfl
      · rw [if_neg (by simpa using asked), decide_eq_false asked]
        rfl
  | _ => rfl

private theorem not_mem_of_areProper {names : List String} (proper : AreProper [] names) :
    testModulePath ∉ names := by
  intro present
  rcases proper.2 testModulePath present with special | valid
  · exact absurd special List.not_mem_nil
  · exact absurd valid (by decide)

private theorem filter_eq_self_of_proper {names : List String}
    (absent : testModulePath ∉ names) : names.filter (· ≠ testModulePath) = names := by
  rw [List.filter_eq_self]
  intro name present
  have different : name ≠ testModulePath := by
    intro same
    rcases same with rfl
    exact absent present
  simpa using different

private theorem not_mem_limitModules {declaration : Declaration} (proper : declaration.IsProper) :
    testModulePath ∉ declaration.names .limitModules := by
  unfold Declaration.names
  rw [List.mem_flatMap]
  intro given
  rcases given with ⟨directive, given, present⟩
  have sound := proper.2 directive given
  cases directive with
  | limitModules names => exact not_mem_of_areProper sound present
  | _ => exact absurd present List.not_mem_nil

private theorem not_mem_addOpens {declaration : Declaration} (proper : declaration.IsProper)
    (package : String) : testModulePath ∉ targetsOf package (declaration.targets .addOpens) := by
  unfold targetsOf Declaration.targets
  rw [List.mem_flatMap]
  intro given
  rcases given with ⟨pair, given, present⟩
  obtain ⟨directive, listed, taken⟩ := List.mem_filterMap.mp (List.mem_filter.mp given).1
  have sound := proper.2 directive listed
  cases directive with
  | addOpens package' targets =>
      cases taken
      exact not_mem_of_areProper sound.2 present
  | _ => cases taken

/-- Merging the directives of a proper tree gives what the tree says. -/
theorem follow_of_proper {declaration : Declaration} (proper : declaration.IsProper) :
    declaration.overrides.Follow declaration where
  addModules := by
    rw [addModules_overrides, DistinctList.toList_ofList]
    rfl
  limitModules := by
    rw [limitModules_overrides, DistinctList.toList_ofList]
    unfold firstNames
    exact congrArg List.eraseDups (filter_eq_self_of_proper (not_mem_limitModules proper)).symm
  addReads := by
    rw [addReads_overrides, DistinctList.toList_ofList]
    rfl
  addExports := by
    rw [addExports_overrides, entries_merge, List.map_map, List.map_map]
    apply List.map_congr_left
    intro package _
    simp only [Function.comp_apply, targetsOf_map_filter, DistinctList.toList_ofList]
    rfl
  addOpens := by
    rw [addOpens_overrides, entries_merge, List.map_map]
    apply List.map_congr_left
    intro package _
    have same := filter_eq_self_of_proper (not_mem_addOpens proper package)
    simp only [Function.comp_apply, DistinctList.toList_ofList]
    unfold firstNames
    exact congrArg (fun names => (package, List.eraseDups names)) same.symm
  addTestModules := by
    rw [addTestModules_overrides]
    unfold Declaration.names
    rw [List.any_eq_true, List.mem_flatMap]
    simp only [asksForTest, decide_eq_true_eq]
    rfl
  readTestModules := by
    rw [readTestModules_overrides]
    unfold Declaration.names
    rw [List.any_eq_true, List.mem_flatMap]
    simp only [asksForTest, decide_eq_true_eq]
    rfl
  exportsToTest := by
    rw [exportsToTest_overrides, DistinctList.toList_ofList]
    rfl

end Overrides

/-- A patch file is read exactly when its tokens go on to its end and are those of a proper
tree.  What is read is that tree, and its overrides are what the tree says. -/
theorem Declaration.ofText_exact (text : String) :
    (∀ declaration, Declaration.ofText text = .ok declaration ↔
      (Tokens.ofText text).isComplete = true ∧ declaration.IsProper ∧
        (Tokens.ofText text).bare = declaration.tokens) ∧
    match Declaration.ofText text with
    | .ok declaration => declaration.overrides.Follow declaration
    | .error _ =>
      ¬ ((Tokens.ofText text).isComplete = true ∧
        ∃ declaration : Declaration, declaration.IsProper ∧
          (Tokens.ofText text).bare = declaration.tokens) := by
  refine ⟨fun declaration => Declaration.ofText_eq_ok, ?_⟩
  cases read : Declaration.ofText text with
  | ok declaration =>
      obtain ⟨_, proper, _⟩ := Declaration.ofText_eq_ok.mp read
      exact Overrides.follow_of_proper proper
  | error fault =>
      intro given
      rcases given with ⟨complete, declaration, proper, same⟩
      have accepted := Declaration.ofText_eq_ok.mpr ⟨complete, proper, same⟩
      rw [read] at accepted
      cases accepted

end ModulePlan.Patch
