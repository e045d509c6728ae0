/-
The options of a plan.

A plan is made when each of its parts is.  Its options are told by the modules and by what
the test dependencies answer, as if every module had a patch of its own.
-/

import ModulePlan.Proofs.Plan.OwnPatches

namespace ModulePlan.Plan

open TestModulePath

/-! ### The parts of a plan -/

private theorem result_noteOmitted (offers : List Offer) :
    (noteOmitted offers).result = .ok () := by
  induction offers with
  | nil => rfl
  | cons offer rest ih =>
      obtain ⟨option, value⟩ := offer
      unfold noteOmitted
      split
      · rw [Report.result_bind, Report.result_debug]
        exact ih
      · exact ih

theorem releaseGroups_completes_iff (host : Host) (directories : List SourceDirectory)
    (excludes : List Document.Value) :
    (∃ groups, (releaseGroups host directories excludes).result = .ok groups) ↔
      ∃ found, (Discovery.sources host directories excludes).result = .ok found := by
  unfold releaseGroups
  rw [Report.result_bind]
  cases (Discovery.sources host directories excludes).result with
  | error fault =>
      constructor
      · intro given
        rcases given with ⟨groups, impossible⟩
        cases impossible
      · intro given
        rcases given with ⟨found, impossible⟩
        cases impossible
  | ok found => exact ⟨fun _ => ⟨found, rfl⟩, fun _ => ⟨_, rfl⟩⟩

theorem warnOfDeclarations_completes_iff (host : Host) (directories : List SourceDirectory) :
    (warnOfDeclarations host directories).result = .ok () ↔
      ∀ directory ∈ directories,
        ∃ there, ModuleDeclaration.isIn host directory.root = .ok there := by
  induction directories with
  | nil => exact ⟨fun _ => List.forall_mem_nil _, fun _ => rfl⟩
  | cons directory rest ih =>
      rw [List.forall_mem_cons, ← ih, warnOfDeclarations, Report.result_bind,
        Report.result_ofExcept]
      cases ModuleDeclaration.isIn host directory.root with
      | error fault => simp
      | ok there =>
          cases there with
          | false => simp
          | true => simp

/-- The options that are written once the patches are made and expanded. -/
def optionsOf (settings : PlanSettings) (patches : List (PatchRef × List FilePath))
    (unit : CompilationUnit) : CompilerOptions :=
  let (offers, unit) := unit.writeAll settings.test (patches.map Prod.fst)
  let options := CompilerOptions.addAll {} offers
  if settings.test then options.addAll (patchModuleOffers unit patches) else options

theorem make_eq_ok {host : Host} {directories : List SourceDirectory}
    {view : Option DependencyView} {settings : PlanSettings} {plan : Plan} :
    (make host directories view settings).result = .ok plan ↔
      ∃ groups, (releaseGroups host directories settings.excludes).result = .ok groups ∧
      ∃ loading, (loadModules host settings.patchFile {}
        (moduleRoots settings.defaultModule directories).entries).result = .ok loading ∧
      ∃ unit, (classify host view settings loading).result = .ok unit ∧
        (settings.test = true → (warnOfDeclarations host directories).result = .ok ()) ∧
        plan = {
          test := settings.test
          options := optionsOf settings loading.patches unit
          groups := groups
          unit := (unit.writeAll settings.test (loading.patches.map Prod.fst)).2
          patches := loading.patches.map Prod.fst } := by
  unfold make
  simp only [Report.result_bind, exceptBind_eq_ok, Report.result_debug, optionsOf,
    @eq_comm _ plan]
  cases settings.test with
  | false => simp [result_noteOmitted]
  | true => simp [result_noteOmitted, exceptBind_eq_ok, Unique.exists_iff]

/-! ### Test dependencies -/

/-- What the test dependencies answer where they are asked. -/
def takenAnswers (host : Host) (view : Option DependencyView) (settings : PlanSettings) :
    List Answer :=
  match settings.test, view with
  | true, some view => testAnswers (Artifact.describe host) view settings.runtime
  | _, _ => []

theorem artifact_of_takenAnswers {host : Host} {view : Option DependencyView}
    {settings : PlanSettings} {answer : Answer}
    (present : answer ∈ takenAnswers host view settings) :
    ∃ asked ∈ view,
      asked.IsTestArtifact (Artifact.describe host) settings.runtime answer.descriptor := by
  unfold takenAnswers at present
  split at present
  · rename_i asked tested
    obtain ⟨entry, among, said⟩ := Survey.described_of_mem_take present
    exact ⟨asked, rfl, entry, among, said⟩
  · cases present

def CanBeAsked (host : Host) (view : Option DependencyView) (settings : PlanSettings) : Prop :=
  ∀ asked, settings.test = true → view = some asked →
    IsReadable (Artifact.describe host) asked settings.runtime

def Member.asks (member : Member) : Bool :=
  (Request.ofPatch member.patch).isAny

private theorem unit_foldl_add (members : List Member) :
    (members.foldl Loading.add {}).unit =
      { roots := addedRoots {} members
        patches := (owners false members).map Member.patch } :=
  (foldl_add {} members).1

theorem patches_foldl_add (members : List Member) :
    (members.foldl Loading.add {}).patches = refs 0 none members :=
  (foldl_add {} members).2

private theorem classify_eq_pure {host : Host} {view : Option DependencyView}
    {settings : PlanSettings} (unasked : ∀ asked, settings.test = true → view ≠ some asked)
    (loading : Loading) :
    (classify host view settings loading).result = .ok loading.unit ∧
      takenAnswers host view settings = [] := by
  unfold classify takenAnswers
  cases tested : settings.test with
  | false => exact ⟨rfl, rfl⟩
  | true =>
      cases view with
      | none => exact ⟨rfl, rfl⟩
      | some asked => exact absurd rfl (unasked asked tested)

private theorem classify_eq_expandAll {host : Host} {asked : DependencyView}
    {settings : PlanSettings} (tested : settings.test = true) {loading : Loading}
    {unit : CompilationUnit} :
    (classify host (some asked) settings loading).result = .ok unit ↔
      ∃ view, (loading.unit.expandAll (Artifact.describe host) settings.runtime asked
        (fullIndexes loading.patches)).result = .ok (unit, view) := by
  unfold classify
  simp only [tested]
  rw [Report.result_bind, exceptBind_eq_ok]
  constructor
  · intro given
    rcases given with ⟨⟨unit', view⟩, done, same⟩
    cases same
    exact ⟨view, done⟩
  · intro given
    rcases given with ⟨view, done⟩
    exact ⟨(unit, view), done, rfl⟩

/-- The owners of patches take the test dependencies in, unless one of them asks for artifacts
that cannot be read. -/
theorem classify_eq_ok {host : Host} {view : Option DependencyView} {settings : PlanSettings}
    {members : List Member} {unit : CompilationUnit} :
    (classify host view settings (members.foldl Loading.add {})).result = .ok unit ↔
      ((∃ member ∈ owners false members, member.asks = true) → CanBeAsked host view settings) ∧
      unit =
        { roots := (absorbAll (takenAnswers host view settings) (addedRoots {} members)
            ((owners false members).map Member.patch)).1
          patches := (absorbAll (takenAnswers host view settings) (addedRoots {} members)
            ((owners false members).map Member.patch)).2 } := by
  by_cases asks : settings.test = true ∧ ∃ asked, view = some asked
  · obtain ⟨tested, asked, rfl⟩ := asks
    have places : fullIndexes (refs 0 none members) =
        List.range' 0 ((owners false members).map Member.patch).length := by
      rw [List.length_map]
      exact fullIndexes_refs 0 none members
    have answered : takenAnswers host (some asked) settings =
        testAnswers (Artifact.describe host) asked settings.runtime := by
      unfold takenAnswers
      rw [tested]
    have readable : CanBeAsked host (some asked) settings ↔
        IsReadable (Artifact.describe host) asked settings.runtime := by
      constructor
      · intro can
        exact can asked tested rfl
      · intro can other _ same
        cases same
        exact can
    have split : (members.foldl Loading.add {}).unit.patches =
        [] ++ (owners false members).map Member.patch := by
      rw [unit_foldl_add]
      rfl
    have expanded := @CompilationUnit.expandAll_eq_ok _ asked asked settings.runtime
      (DependencyView.Agrees.refl (Artifact.describe host) asked) _ unit _ _ split
    rw [classify_eq_expandAll tested, patches_foldl_add, places, answered, readable]
    simp only [List.length_nil, List.nil_append] at expanded
    rw [expanded, unit_foldl_add]
    simp only [List.mem_map, Member.asks, exists_exists_and_eq_and]
  · have unasked : ∀ asked, settings.test = true → view ≠ some asked :=
      fun asked tested same => asks ⟨tested, asked, same⟩
    obtain ⟨untouched, none⟩ :=
      @classify_eq_pure host view settings unasked (members.foldl Loading.add {})
    rw [untouched, none, absorbAll_nil_answers, unit_foldl_add, Except.ok.injEq]
    constructor
    · intro same
      rcases same with rfl
      exact ⟨fun _ asked tested same => absurd same (unasked asked tested), rfl⟩
    · intro given
      rcases given with ⟨_, rfl⟩
      rfl

/-! ### Options -/

/-- The option that patches the roots of tests into a module. -/
def patchModuleOffer (module : Option String) (roots : List FilePath) : List Offer :=
  match module with
  | none => []
  | some name =>
    if name = "" then []
    else [("--patch-module", name ++ "=" ++ Text.joinFields ":" (roots.map (·.toText)))]

theorem patchModuleOffers_eq (unit : CompilationUnit)
    (patches : List (PatchRef × List FilePath)) :
    patchModuleOffers unit patches =
      patches.flatMap fun (ref, roots) => patchModuleOffer (unit.module ref) roots := by
  induction patches with
  | nil => rfl
  | cons patch rest ih =>
      obtain ⟨ref, roots⟩ := patch
      rw [List.flatMap_cons, ← ih]
      unfold patchModuleOffers patchModuleOffer
      cases named : unit.module ref with
      | none => simp [named]
      | some name =>
          by_cases empty : name = ""
          · simp [named, empty]
          · simp [named, empty]

/-- The options if every module has a patch of its own. -/
def ownOptions (test : Bool) (answers : List Answer) (members : List Member) : CompilerOptions :=
  let (roots, patches) := absorbAll answers (addedRoots {} members) (members.map Member.patch)
  let standing := patches.zip members
  let options := CompilerOptions.addAll {}
    (roots.offers ++ standing.flatMap fun (patch, _) => patch.offers test)
  if test then
    options.addAll (standing.flatMap fun (patch, member) =>
      patchModuleOffer patch.module member.roots)
  else options

private theorem patch_of_getElem? {unit : CompilationUnit} {index : Nat} {patch : ModulePatch}
    (here : unit.patches[index]? = some patch) : unit.patch index = patch := by
  unfold CompilationUnit.patch
  rw [List.getD_eq_getElem?_getD, here]
  rfl

private theorem create_of_named {name : String} (named : Text.isBlankText name = false) :
    ModulePatch.create (some name) = { module := some name } := by
  unfold ModulePatch.create
  rw [Option.filter_some_pos]
  rw [named]
  rfl

theorem offers_of_reads {name : String} (named : Text.isBlankText name = false)
    (reads : NameSet) (opens : Bool) :
    { ModulePatch.create (some name) with addReads := reads }.offers opens =
      offer "add-reads" (some name) reads := by
  rw [create_of_named named]
  cases opens with
  | false => exact (List.append_nil _).trans (List.append_nil _)
  | true => exact (List.append_nil _).trans (List.append_nil _)

private theorem shows_offers (unit : CompilationUnit) (opens : Bool) :
    Shows unit.patches (fun (ref, _) => unit.refOffers opens ref)
      fun patch _ => patch.offers opens where
  own := by
    intro index patch roots here
    exact congrArg (·.offers opens) (patch_of_getElem? here)
  shared := by
    intro name index patch roots named here
    rw [offers_of_reads named]
    exact congrArg (fun patch => offer "add-reads" (some name) patch.addReads)
      (patch_of_getElem? here)
  blank := by
    intro reads roots
    rfl

private theorem shows_patchModule (unit : CompilationUnit) :
    Shows unit.patches (fun (ref, roots) => patchModuleOffer (unit.module ref) roots)
      fun patch roots => patchModuleOffer patch.module roots where
  own := by
    intro index patch roots here
    exact congrArg (fun patch => patchModuleOffer patch.module roots) (patch_of_getElem? here)
  shared := by
    intro name index patch roots named here
    rw [create_of_named named]
    rfl
  blank := by
    intro reads roots
    rfl

/-- The first module has a full patch. -/
theorem refs_begin (member : Member) (rest : List Member) :
    ∃ others, refs 0 none (member :: rest) = (.full 0, member.roots) :: others := by
  cases declared : member.declaration with
  | none =>
      refine ⟨refs 1 (some 0) rest, ?_⟩
      simp only [refs, declared]
  | some declaration =>
      refine ⟨refs 1 none rest, ?_⟩
      simp only [refs, declared]

/-- The option for the modules of the compilation comes first, and then those of the patches. -/
theorem writeAll_refs (unit : CompilationUnit) (opens : Bool) (member : Member)
    (rest : List Member) :
    unit.writeAll opens ((refs 0 none (member :: rest)).map Prod.fst) =
      (unit.roots.offers ++
          (refs 0 none (member :: rest)).flatMap fun (ref, _) => unit.refOffers opens ref,
        { unit with roots := unit.roots.afterWriting }) := by
  obtain ⟨others, same⟩ := refs_begin member rest
  rw [same, List.map_cons, CompilationUnit.writeAll_full_cons, List.flatMap_cons,
    List.flatMap_cons, List.flatMap_map]

/-- Whatever patches are made, the options are those of a patch for each module. -/
theorem optionsOf_eq_ownOptions {answers : List Answer} (named : Progress.NoneUnnamed answers)
    (settings : PlanSettings) (members : List Member) {unit : CompilationUnit}
    (taken : unit =
      { roots := (absorbAll answers (addedRoots {} members)
          ((owners false members).map Member.patch)).1
        patches := (absorbAll answers (addedRoots {} members)
          ((owners false members).map Member.patch)).2 }) :
    optionsOf settings (refs 0 none members) unit =
      ownOptions settings.test answers members := by
  have split : unit.patches = [] ++ (absorbAll answers (addedRoots {} members)
      ((owners (none : Option Nat).isSome members).map Member.patch)).2 := by
    rw [taken]
    rfl
  have unmade : SharesAlone answers (addedRoots {} members) [] none := by
    intro index impossible
    cases impossible
  have roots : unit.roots =
      (absorbAll answers (addedRoots {} members) (members.map Member.patch)).1 := by
    have same := @roots_absorbAll_owners answers named false (addedRoots {} members)
      (fun impossible => absurd impossible Bool.false_ne_true) members
    rw [taken, ← same]
  have offers := flatMap_refs named (shows_offers unit settings.test) split unmade
  have written : (unit.writeAll settings.test ((refs 0 none members).map Prod.fst)).1 =
      unit.roots.offers ++
        (refs 0 none members).flatMap fun (ref, _) => unit.refOffers settings.test ref := by
    cases members with
    | nil =>
        rw [roots]
        rfl
    | cons member rest =>
        exact congrArg Prod.fst (writeAll_refs unit settings.test member rest)
  let after := (unit.writeAll settings.test ((refs 0 none members).map Prod.fst)).2
  have kept : after.patches = unit.patches := CompilationUnit.patches_writeAll _ _ _
  have modules := flatMap_refs named (shows_patchModule after) (kept.trans split) unmade
  rw [List.length_nil] at offers modules
  unfold optionsOf ownOptions
  simp only [written, offers, roots, patchModuleOffers_eq]
  exact congrArg (fun offered => if settings.test = true then
    CompilerOptions.addAll _ offered else _) modules

/-- The options depend on the descriptors that are answered, and on the patches and the roots
of the modules. -/
theorem ownOptions_congr {left right : List Answer}
    (answered : left.map (·.descriptor) = right.map (·.descriptor)) {members : List Member}
    {change : Member → Member}
    (same : ∀ member ∈ members, (change member).patch = member.patch ∧
      (change member).addedModules = member.addedModules ∧
      (change member).roots = member.roots) (test : Bool) :
    ownOptions test left (members.map change) = ownOptions test right members := by
  have patches : (members.map change).map Member.patch = members.map Member.patch := by
    rw [List.map_map]
    exact List.map_congr_left fun member present => (same member present).1
  have added : addedRoots {} (members.map change) = addedRoots {} members := by
    unfold addedRoots
    rw [List.foldl_map]
    apply List.foldl_ext
    intro roots member present
    rw [(same member present).2.1]
  have standing : ∀ made : List ModulePatch,
      ((made.zip (members.map change)).flatMap fun (patch, _) => patch.offers test) =
          ((made.zip members).flatMap fun (patch, _) => patch.offers test) ∧
        ((made.zip (members.map change)).flatMap fun (patch, member) =>
            patchModuleOffer patch.module member.roots) =
          (made.zip members).flatMap fun (patch, member) =>
            patchModuleOffer patch.module member.roots := by
    intro made
    rw [List.zip_map_right, List.flatMap_map, List.flatMap_map]
    refine ⟨rfl, List.flatMap_congr ?_⟩
    intro given paired
    rcases given with ⟨patch, member⟩
    have roots := (same member (List.of_mem_zip paired).2).2.2
    exact congrArg (patchModuleOffer patch.module) roots
  unfold ownOptions
  rw [patches, added, absorbAll_congr answered]
  simp only [standing]

/-! ### Asking -/

private theorem asks_of_undeclared {member : Member} (undeclared : member.declaration = none) :
    member.asks = true := by
  unfold Member.asks Member.patch
  rw [undeclared]
  rfl

/-- If there are modules without a patch file, the first of them asks. -/
theorem exists_asks_of_undeclared {members : List Member} {member : Member}
    (present : member ∈ members) (undeclared : member.declaration = none) :
    ∃ owner ∈ owners false members, owner.asks = true := by
  induction members with
  | nil => cases present
  | cons first rest ih =>
      unfold owners
      rw [Bool.and_false, if_neg Bool.false_ne_true, Bool.or_false]
      cases declared : first.declaration with
      | none => exact ⟨first, List.mem_cons_self, asks_of_undeclared declared⟩
      | some declaration =>
          rcases List.mem_cons.mp present with rfl | later
          · rw [undeclared] at declared
            cases declared
          · obtain ⟨owner, among, asks⟩ := ih later
            exact ⟨owner, List.mem_cons_of_mem _ among, asks⟩

theorem mem_owners_of_declared {members : List Member} {member : Member}
    (present : member ∈ members) (declared : member.declaration.isNone = false)
    (implicit : Bool) : member ∈ owners implicit members := by
  induction members generalizing implicit with
  | nil => cases present
  | cons first rest ih =>
      unfold owners
      rcases List.mem_cons.mp present with rfl | later
      · rw [declared, Bool.false_and, if_neg Bool.false_ne_true]
        exact List.mem_cons_self
      · split
        · exact ih later implicit
        · exact List.mem_cons_of_mem _ (ih later _)

/-! ### Plans that are made -/

/-- A plan is made if the source files are found, the modules are found and the test
dependencies can be asked. -/
theorem exists_make_iff {host : Host} {directories : List SourceDirectory}
    {view : Option DependencyView} {settings : PlanSettings} :
    (∃ plan, (make host directories view settings).result = .ok plan) ↔
      (∃ groups, (releaseGroups host directories settings.excludes).result = .ok groups) ∧
      (∃ members,
        (moduleRoots settings.defaultModule directories).entries.mapM
          (fun entry => memberOf host settings.patchFile entry.1 entry.2.toList) = .ok members ∧
        ((∃ member ∈ owners false members, member.asks = true) →
          CanBeAsked host view settings)) ∧
      (settings.test = true → (warnOfDeclarations host directories).result = .ok ()) := by
  simp only [make_eq_ok, result_loadModules]
  cases found : (moduleRoots settings.defaultModule directories).entries.mapM
      fun entry => memberOf host settings.patchFile entry.1 entry.2.toList with
  | error fault => simp [Except.map]
  | ok members => simp [Except.map, classify_eq_ok]

/-- The unit of a plan before its options are written: the owners of patches have taken the test
dependencies in. -/
def takenUnit (host : Host) (view : Option DependencyView) (settings : PlanSettings)
    (members : List Member) : CompilationUnit :=
  let (roots, patches) := absorbAll (takenAnswers host view settings) (addedRoots {} members)
    ((owners false members).map Member.patch)
  { roots := roots, patches := patches }

/-- What holds of the patches of all modules and is kept by passes holds of every patch that is
written, if it is not lost where the reads of a patch are shared. -/
theorem forall_asWritten {host : Host} {view : Option DependencyView} {settings : PlanSettings}
    {members : List Member} {holds : ModulePatch → Prop}
    (made : ∀ member ∈ members, holds member.patch)
    (kept : ∀ roots patch, holds patch →
      holds (absorb (takenAnswers host view settings) roots patch).2)
    (untouched : holds (.create none))
    (shared : ∀ member ∈ members, Text.isBlankText member.name = false → ∀ patch,
      holds patch → holds { module := some member.name, addReads := patch.addReads })
    {entry : PatchRef × List FilePath} (present : entry ∈ refs 0 none members) :
    holds ((takenUnit host view settings members).asWritten entry.1) := by
  have own : ∀ patch ∈ (owners false members).map Member.patch, holds patch := by
    intro patch among
    obtain ⟨member, owner, rfl⟩ := List.mem_map.mp among
    exact made member ((owners_sublist false members).subset owner)
  have full : ∀ index, holds ((takenUnit host view settings members).patch index) := by
    intro index
    unfold CompilationUnit.patch
    rw [List.getD_eq_getElem?_getD]
    cases here : (takenUnit host view settings members).patches[index]? with
    | none => exact untouched
    | some patch => exact forall_absorbAll kept own patch (List.mem_of_getElem? here)
  obtain ⟨member, among, _, origin⟩ := origin_of_mem_refs present
  obtain ⟨ref, roots⟩ := entry
  cases ref with
  | full index => exact full index
  | readsOnly name index =>
      obtain ⟨rfl, visible⟩ := origin name index rfl
      exact shared member among visible _ (full index)

/-- What a plan is made of. -/
structure Parts (host : Host) (directories : List SourceDirectory)
    (view : Option DependencyView) (settings : PlanSettings) (plan : Plan)
    (members : List Member) : Prop where
  found : (moduleRoots settings.defaultModule directories).entries.mapM
    (fun entry => memberOf host settings.patchFile entry.1 entry.2.toList) = .ok members
  asked : (∃ member ∈ owners false members, member.asks = true) → CanBeAsked host view settings
  patches : plan.patches = (refs 0 none members).map Prod.fst
  options : plan.options =
    optionsOf settings (refs 0 none members) (takenUnit host view settings members)
  unit : plan.unit = ((takenUnit host view settings members).writeAll settings.test
    ((refs 0 none members).map Prod.fst)).2

theorem parts_of_make {host : Host} {directories : List SourceDirectory}
    {view : Option DependencyView} {settings : PlanSettings} {plan : Plan}
    (made : (make host directories view settings).result = .ok plan) :
    ∃ members, Parts host directories view settings plan members := by
  obtain ⟨groups, _, loading, loaded, unit, taken, _, rfl⟩ := make_eq_ok.mp made
  rw [result_loadModules] at loaded
  cases found : (moduleRoots settings.defaultModule directories).entries.mapM
      fun entry => memberOf host settings.patchFile entry.1 entry.2.toList with
  | error fault =>
      rw [found] at loaded
      cases loaded
  | ok members =>
      rw [found] at loaded
      cases loaded
      obtain ⟨asked, rfl⟩ := classify_eq_ok.mp taken
      have patches := patches_foldl_add members
      exact ⟨members, {
        found := found
        asked := asked
        patches := congrArg (List.map Prod.fst) patches
        options := congrArg (fun patches => optionsOf settings patches _) patches
        unit := congrArg (fun patches => (CompilationUnit.writeAll _ settings.test
          (patches.map Prod.fst)).2) patches }⟩

theorem options_of_make {host : Host} {directories : List SourceDirectory}
    {view : Option DependencyView} {settings : PlanSettings} {plan : Plan}
    (made : (make host directories view settings).result = .ok plan) :
    ∃ members,
      (moduleRoots settings.defaultModule directories).entries.mapM
        (fun entry => memberOf host settings.patchFile entry.1 entry.2.toList) = .ok members ∧
      ((∃ member ∈ owners false members, member.asks = true) →
        CanBeAsked host view settings) ∧
      (Progress.NoneUnnamed (takenAnswers host view settings) →
        plan.options = ownOptions settings.test (takenAnswers host view settings) members) := by
  obtain ⟨members, parts⟩ := parts_of_make made
  refine ⟨members, parts.found, parts.asked, ?_⟩
  intro named
  rw [parts.options]
  exact optionsOf_eq_ownOptions named settings members rfl

end ModulePlan.Plan
