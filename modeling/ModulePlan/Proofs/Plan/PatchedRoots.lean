/-
The roots that tests are patched into.

For tests, the last options of a plan put the roots of each module into it.  The patches that are
written and the modules of the directories are two lists, and a module without a name is in one
of them only; the options are nevertheless those of the modules, in their order.
-/

import ModulePlan.Proofs.Plan.RootModules

namespace ModulePlan.Plan

open TestModulePath

/-! ### The module that roots are patched into -/

/-- The module that some roots are patched into: the one that the first patch file in them
declares.  Without a patch file it is the one that they are for, unless its name is blank. -/
def patchedModule? (host : Host) (patchFile name : String) (roots : List FilePath) :
    Option String :=
  match roots.find? fun root => (host.isFile (root.join patchFile)).toOption = some true with
  | some root => (declarationAt host (root.join patchFile)).toOption.map (·.module)
  | none => if Text.isBlankText name then none else some name

/-- The search ends at the first root with a patch file. -/
theorem find?_of_patchFileOf? {host : Host} {patchFile : String} {roots : List FilePath}
    {found : Option FilePath} (sought : patchFileOf? host patchFile roots = .ok found) :
    (roots.find? fun root => (host.isFile (root.join patchFile)).toOption = some true).map
      (·.join patchFile) = found := by
  induction roots with
  | nil =>
      cases sought
      rfl
  | cons root rest ih =>
      unfold patchFileOf? at sought
      obtain ⟨file, looked, sought⟩ := exceptBind_eq_ok.mp sought
      rw [List.find?_cons, looked]
      cases file with
      | true =>
          cases sought
          rfl
      | false => exact ih sought

private theorem module_create (name : String) :
    (ModulePatch.create (some name)).module =
      if Text.isBlankText name then none else some name := by
  unfold ModulePatch.create
  cases blank : Text.isBlankText name with
  | true => simp [blank]
  | false => simp [blank]

theorem module_of_memberOf {host : Host} {patchFile name : String} {roots : List FilePath}
    {member : Member} (made : memberOf host patchFile name roots = .ok member) :
    member.patch.module = patchedModule? host patchFile name roots := by
  unfold memberOf at made
  obtain ⟨found, sought, made⟩ := exceptBind_eq_ok.mp made
  have first := find?_of_patchFileOf? sought
  unfold patchedModule?
  cases found with
  | none =>
      cases made
      rw [Option.map_eq_none_iff.mp first]
      exact module_create name
  | some path =>
      obtain ⟨declaration, read, made⟩ := exceptBind_eq_ok.mp made
      cases made
      obtain ⟨root, isFirst, rfl⟩ := Option.map_eq_some_iff.mp first
      rw [isFirst]
      simp only [read]
      rfl

theorem visible_of_memberOf {host : Host} {patchFile name : String} {roots : List FilePath}
    {member : Member} (made : memberOf host patchFile name roots = .ok member) {module : String}
    (named : member.patch.module = some module) : Text.isBlankText module = false := by
  unfold Member.patch at named
  cases declared : member.declaration with
  | none =>
      rw [declared] at named
      simp only at named
      rw [module_create] at named
      split at named
      · cases named
      · rename_i visible
        cases named
        simpa using visible
  | some declaration =>
      rw [declared] at named
      cases named
      exact Patch.isBlankText_of_valid (isProper_of_memberOf made declared).1

/-! ### Patches and modules side by side -/

theorem modules_absorbAll (answers : List Answer) (roots : RootModules)
    (patches : List ModulePatch) :
    (absorbAll answers roots patches).2.map (·.module) = patches.map (·.module) := by
  induction patches generalizing roots with
  | nil => rfl
  | cons patch rest ih => exact congrArg (patch.module :: ·) (ih (absorb answers roots patch).1)

private theorem module_full {unit : CompilationUnit} {earlier later : List (Option String)}
    {module : Option String}
    (split : unit.patches.map (·.module) = earlier ++ module :: later) :
    unit.module (.full earlier.length) = module := by
  have here : (unit.patches.map (·.module))[earlier.length]? = some module := by
    rw [split, List.getElem?_append_right (Nat.le_refl _), Nat.sub_self]
    rfl
  rw [List.getElem?_map] at here
  obtain ⟨patch, present, rfl⟩ := Option.map_eq_some_iff.mp here
  change (unit.patch earlier.length).module = patch.module
  unfold CompilationUnit.patch
  rw [List.getD_eq_getElem?_getD, present]
  rfl

/-- The options for the roots are those of the modules, whether a module has a full patch, shares
the reads of one, or has none for want of a name. -/
theorem flatMap_patchModuleOffer_refs {unit : CompilationUnit} {earlier : List (Option String)}
    {implicit : Option Nat} {members : List Member}
    (split : unit.patches.map (·.module) =
      earlier ++ (owners implicit.isSome members).map (·.patch.module)) :
    ((refs earlier.length implicit members).flatMap fun entry =>
        patchModuleOffer (unit.module entry.1) entry.2) =
      members.flatMap fun member => patchModuleOffer member.patch.module member.roots := by
  induction members generalizing earlier implicit with
  | nil => rfl
  | cons member rest ih =>
      -- A full patch is the next of the unit; what comes behind it is counted from there.
      have full : ∀ {implicit : Option Nat}, unit.patches.map (·.module) =
            earlier ++ member.patch.module ::
              (owners implicit.isSome rest).map (·.patch.module) →
          (((PatchRef.full earlier.length, member.roots) ::
              refs (earlier.length + 1) implicit rest).flatMap fun entry =>
              patchModuleOffer (unit.module entry.1) entry.2) =
            (member :: rest).flatMap fun member =>
              patchModuleOffer member.patch.module member.roots := by
        intro implicit split
        have next : unit.patches.map (·.module) = (earlier ++ [member.patch.module]) ++
            (owners implicit.isSome rest).map (·.patch.module) := by
          rw [split, List.append_assoc]
          rfl
        have others := ih next
        rw [List.length_append, List.length_singleton] at others
        rw [List.flatMap_cons, List.flatMap_cons, others]
        simp only [module_full split]
      unfold refs
      unfold owners at split
      cases declared : member.declaration with
      | some declaration =>
          rw [declared] at split
          exact full split
      | none =>
          rw [declared] at split
          cases implicit with
          | none => exact full split
          | some index =>
              have patch : member.patch = ModulePatch.create (some member.name) := by
                unfold Member.patch
                rw [declared]
              have others := ih split
              cases visible : Text.isBlankText member.name with
              | true =>
                  have unshared : CompilationUnit.sameReads index (some member.name) = none := by
                    unfold CompilationUnit.sameReads
                    simp [visible]
                  simp only [unshared]
                  rw [others, List.flatMap_cons, patch, module_create, visible]
                  rfl
              | false =>
                  have shared := CompilationUnit.sameReads_eq_some.mpr
                    ⟨visible, (rfl : PatchRef.readsOnly member.name index = _)⟩
                  simp only [shared]
                  rw [List.flatMap_cons, List.flatMap_cons, others, patch,
                    module_create, visible]
                  rfl

/-! ### The last options of a plan -/

variable {host : Host} {directories : List SourceDirectory} {view : Option DependencyView}
  {settings : PlanSettings} {plan : Plan} {members : List Member}

/-- The option that patches some roots into a module. -/
def rootsOption (module : String) (roots : List FilePath) : Offer :=
  ("--patch-module", module ++ "=" ++ Text.joinFields ":" (roots.map (·.toText)))

private theorem patchModuleOffer_eq {module : Option String}
    (visible : ∀ name, module = some name → Text.isBlankText name = false)
    (roots : List FilePath) :
    patchModuleOffer module roots = (module.map fun name => rootsOption name roots).toList := by
  unfold patchModuleOffer
  cases named : module with
  | none => rfl
  | some name =>
      have some : name ≠ "" := by
        intro empty
        rcases empty with rfl
        exact absurd (visible "" named) (by decide)
      simp only [if_neg some]
      rfl

private theorem kept_rootsOptions (offers : List Offer)
    (keyed : ∀ offer ∈ offers, ∃ module roots, offer = rootsOption module roots) :
    kept offers = offers := by
  unfold kept
  rw [List.filter_eq_self]
  intro offer present
  obtain ⟨module, roots, rfl⟩ := keyed offer present
  exact (Bool.not_eq_true' _).mpr (visible_keyed module _)

/-- For tests, the options that put roots into modules are those of the modules in their order. -/
theorem Parts.rootsOptions (parts : Parts host directories view settings plan members) :
    ((refs 0 none members).flatMap fun entry =>
        patchModuleOffer ((takenUnit host view settings members).module entry.1) entry.2) =
      (directories.map (effectiveModule settings.defaultModule)).eraseDups.filterMap fun name =>
        let roots := rootsOf settings.defaultModule directories name
        (patchedModule? host settings.patchFile name roots).map (rootsOption · roots) := by
  have owned : (takenUnit host view settings members).patches.map (·.module) =
      [] ++ (owners (none : Option Nat).isSome members).map (·.patch.module) := by
    change (absorbAll _ _ _).2.map (·.module) = _
    rw [modules_absorbAll, List.map_map]
    rfl
  have each : (members.map fun member =>
        patchModuleOffer member.patch.module member.roots) =
      (moduleRoots settings.defaultModule directories).entries.map fun entry =>
        ((patchedModule? host settings.patchFile entry.1 entry.2.toList).map
          (rootsOption · entry.2.toList)).toList := by
    refine map_of_mapM ?_ parts.found
    intro entry member made
    rw [patchModuleOffer_eq fun name named => visible_of_memberOf made named,
      module_of_memberOf made, (made_of_memberOf made).2]
  have listed := congrArg (List.map fun entry : String × List FilePath =>
    ((patchedModule? host settings.patchFile entry.1 entry.2).map
      (rootsOption · entry.2)).toList)
      (entries_moduleRoots settings.defaultModule directories)
  rw [List.map_map, List.map_map] at listed
  have patched := flatMap_patchModuleOffer_refs owned
  rw [List.length_nil] at patched
  rw [patched, List.flatMap_def, each, List.filterMap_eq_flatMap_toList, List.flatMap_def]
  exact congrArg List.flatten listed

/-- For tests, the last options of a plan patch the roots of each module into it, in the order of
the modules.  A module that has a name has one such option, with each of its roots once and in
the order of the directories, and no other option is of this kind. -/
theorem roots_patched (made : (make host directories view settings).result = .ok plan)
    (tested : settings.test = true) :
    let modules := (directories.map (effectiveModule settings.defaultModule)).eraseDups
    let roots := rootsOf settings.defaultModule directories
    (∃ others,
      (plan.options.pairs = others ++ modules.filterMap fun name =>
        (patchedModule? host settings.patchFile name (roots name)).map
          (rootsOption · (roots name))) ∧
      ∀ pair ∈ others, pair.1 ≠ "--patch-module") ∧
    ∀ directory ∈ directories, effectiveModule settings.defaultModule directory ∈ modules ∧
      (roots (effectiveModule settings.defaultModule directory)).count directory.root = 1 := by
  intro modules roots
  obtain ⟨members, parts⟩ := parts_of_make made
  let unit := takenUnit host view settings members
  let owned := (refs 0 none members).flatMap fun entry => unit.refOffers settings.test entry.1
  let offers := modules.filterMap fun name =>
    (patchedModule? host settings.patchFile name (roots name)).map (rootsOption · (roots name))
  have last : kept ((refs 0 none members).flatMap fun entry =>
      patchModuleOffer (unit.module entry.1) entry.2) = offers := by
    rw [parts.rootsOptions]
    apply kept_rootsOptions
    intro offer present
    obtain ⟨name, _, offered⟩ := List.mem_filterMap.mp present
    obtain ⟨module, _, rfl⟩ := Option.map_eq_some_iff.mp offered
    exact ⟨module, _, rfl⟩
  refine ⟨⟨kept unit.roots.offers ++ kept owned, ?_, ?_⟩, ?_⟩
  · rw [parts.pairs, List.append_assoc]
    unfold laterPairs
    rw [if_pos tested]
    exact congrArg (fun later => kept unit.roots.offers ++ (kept owned ++ later)) last
  · intro pair present
    rcases List.mem_append.mp present with root | own
    · rw [option_of_mem_offer (RootModules.mem_offers (mem_kept.mp root).1)]
      decide
    · obtain ⟨entry, _, offered⟩ := List.mem_flatMap.mp (mem_kept.mp own).1
      exact ne_of_mem_of_not_mem (CompilationUnit.option_of_mem_refOffers offered) (by decide)
  · intro directory present
    refine ⟨List.mem_eraseDups.mpr (List.mem_map_of_mem present), ?_⟩
    apply List.count_eq_one_of_mem (DistinctList.nodup_eraseDups _)
    rw [List.mem_eraseDups]
    apply List.mem_map_of_mem
    exact List.mem_filter.mpr ⟨present, decide_eq_true rfl⟩

/-- A module with two roots, of which the second holds a patch file for another module, two
modules without patch files, and between them a root for no module. -/
def renamedHost : Host where
  files := ⟨.ofList [(["b", "patch"], .file (.bytes
    "patch-module c \x7b add-reads d; \x7d".toUTF8.toList))]⟩

def renamedDirectories : List SourceDirectory :=
  [.create ⟨.relative, ["a"]⟩ ⟨.relative, ["out"]⟩ (some "a") none .source,
    .create ⟨.relative, ["e"]⟩ ⟨.relative, ["out"]⟩ (some "e") none .source,
    .create ⟨.relative, ["b"]⟩ ⟨.relative, ["out"]⟩ (some "a") none .source,
    .create ⟨.relative, ["d"]⟩ ⟨.relative, ["out"]⟩ (some " ") none .source,
    .create ⟨.relative, ["a"]⟩ ⟨.relative, ["out"]⟩ (some "a") (some 9) .source,
    .create ⟨.relative, ["f"]⟩ ⟨.relative, ["out"]⟩ (some "f") none .source]

def renamedSettings : PlanSettings where
  test := true
  defaultModule := some " "
  patchFile := "patch"

theorem roots_patched_renamed : ∃ plan others,
    (make renamedHost renamedDirectories none renamedSettings).result = .ok plan ∧
    plan.options.pairs = others ++ [("--patch-module", "c=a:b"), ("--patch-module", "e=e"),
      ("--patch-module", "f=f")] ∧
    ∀ pair ∈ others, pair.1 ≠ "--patch-module" := by
  have options : (make renamedHost renamedDirectories none renamedSettings).result.toOption.map
      (·.options.pairs.length) = some 4 := by
    decide +kernel
  obtain ⟨plan, made, _⟩ := exists_ok_of_toOption options
  obtain ⟨⟨others, pairs, other⟩, _⟩ := roots_patched made rfl
  refine ⟨plan, others, made, pairs.trans ?_, other⟩
  apply congrArg (others ++ ·)
  decide +kernel

end ModulePlan.Plan
