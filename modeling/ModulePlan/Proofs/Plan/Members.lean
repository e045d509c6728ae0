/-
The modules of a compilation.

A module is known by its name, its roots and what its patch file declares.  Loading depends
on the host only to find that out; the patches that are made follow from the modules.
-/

import ModulePlan.Plan
import ModulePlan.Proofs.CompilationUnit
import ModulePlan.Proofs.KeyedList

namespace ModulePlan.Plan

/-- A module with its roots, and what its patch file declares if it has one. -/
structure Member where
  name : String
  roots : List FilePath
  declaration : Option Patch.Declaration

def Member.patch (member : Member) : ModulePatch :=
  match member.declaration with
  | none => .create (some member.name)
  | some declaration => (ModulePatch.create (some member.name)).apply declaration

def Member.addedModules (member : Member) : NameSet :=
  match member.declaration with
  | none => .empty
  | some declaration => declaration.overrides.addModules

def declarationAt (host : Host) (path : FilePath) : Except Fault Patch.Declaration := do
  let text ← host.readLines path
  (Patch.Declaration.ofText text).mapError fun fault => .patch (some path) fault

def memberOf (host : Host) (patchFile : String) (name : String) (roots : List FilePath) :
    Except Fault Member := do
  match ← patchFileOf? host patchFile roots with
  | none => return ⟨name, roots, none⟩
  | some path => return ⟨name, roots, some (← declarationAt host path)⟩

def Loading.addOwn (loading : Loading) (member : Member) : Loading where
  unit :=
    { roots := loading.unit.roots.addAll member.addedModules
      patches := loading.unit.patches ++ [member.patch] }
  patches := loading.patches ++ [(.full loading.unit.patches.length, member.roots)]
  implicit :=
    if member.declaration.isNone then some loading.unit.patches.length else loading.implicit

def Loading.add (loading : Loading) (member : Member) : Loading :=
  match member.declaration, loading.implicit with
  | none, some index =>
    match CompilationUnit.sameReads index (some member.name) with
    | none => loading
    | some ref => { loading with patches := loading.patches ++ [(ref, member.roots)] }
  | _, _ => loading.addOwn member

/-! ### The roots of the modules -/

/-- The roots of the directories of a module, each where it first occurs. -/
def rootsOf (defaultModule : Option String) (directories : List SourceDirectory)
    (name : String) : List FilePath :=
  ((directories.filter (effectiveModule defaultModule · = name)).map (·.root)).eraseDups

/-- The modules stand where the directories first have them, each with its roots. -/
theorem entries_moduleRoots (defaultModule : Option String)
    (directories : List SourceDirectory) :
    ((moduleRoots defaultModule directories).entries.map fun (name, roots) =>
        (name, roots.toList)) =
      (directories.map (effectiveModule defaultModule)).eraseDups.map fun name =>
        (name, rootsOf defaultModule directories name) := by
  have gathered := KeyedList.entries_gather (effectiveModule defaultModule)
    (fun _ => DistinctList.empty)
    (fun (roots : DistinctList FilePath) (directory : SourceDirectory) =>
      roots.insert directory.root) directories
  have same : (moduleRoots defaultModule directories).entries = _ := gathered
  rw [same, List.map_map]
  apply List.map_congr_left
  intro name _
  unfold rootsOf
  rw [← DistinctList.toList_ofList, DistinctList.ofList, List.foldl_map]
  rfl

/-! ### Loading -/

private theorem apply_create (unit : CompilationUnit) (module : Option String)
    (declaration : Patch.Declaration) :
    (unit.create module).2.apply unit.patches.length declaration =
      { roots := unit.roots.addAll declaration.overrides.addModules
        patches := unit.patches ++ [(ModulePatch.create module).apply declaration] } := by
  unfold CompilationUnit.create CompilationUnit.apply CompilationUnit.modify
  simp only [CompilationUnit.modify_at_length]

private theorem result_loadFile (host : Host) (unit : CompilationUnit) (index : Nat)
    (path : FilePath) :
    (loadFile host unit index path).result =
      (declarationAt host path).map (unit.apply index) := by
  unfold loadFile declarationAt
  rw [Report.result_bind, Report.result_ofExcept]
  cases host.readLines path with
  | error fault => rfl
  | ok text =>
      simp only [exceptBind_ok, CompilationUnit.load]
      cases Patch.Declaration.ofText text with
      | error fault => rfl
      | ok declaration => rfl

theorem memberOf_none {host : Host} {patchFile name : String} {roots : List FilePath}
    (sought : patchFileOf? host patchFile roots = .ok none) :
    memberOf host patchFile name roots = .ok ⟨name, roots, none⟩ := by
  unfold memberOf
  rw [sought]
  rfl

theorem memberOf_some {host : Host} {patchFile name : String} {roots : List FilePath}
    {path : FilePath} (sought : patchFileOf? host patchFile roots = .ok (some path)) :
    memberOf host patchFile name roots =
      (declarationAt host path).map fun declaration => ⟨name, roots, some declaration⟩ := by
  unfold memberOf
  rw [sought]
  cases read : declarationAt host path with
  | error fault =>
      change (declarationAt host path >>= fun _ => _) = _
      rw [read]
      rfl
  | ok declaration =>
      change (declarationAt host path >>= fun _ => _) = _
      rw [read]
      rfl

theorem made_of_memberOf {host : Host} {patchFile name : String} {roots : List FilePath}
    {member : Member} (made : memberOf host patchFile name roots = .ok member) :
    member.name = name ∧ member.roots = roots := by
  unfold memberOf at made
  obtain ⟨path, _, made⟩ := exceptBind_eq_ok.mp made
  cases path with
  | none =>
      cases made
      exact ⟨rfl, rfl⟩
  | some path =>
      obtain ⟨declaration, _, made⟩ := exceptBind_eq_ok.mp made
      cases made
      exact ⟨rfl, rfl⟩

theorem result_loadModule (host : Host) (patchFile : String) (loading : Loading)
    (name : String) (roots : List FilePath) :
    (loadModule host patchFile loading name roots).result =
      (memberOf host patchFile name roots).map loading.add := by
  unfold loadModule
  rw [Report.result_bind, Report.result_ofExcept]
  cases sought : patchFileOf? host patchFile roots with
  | error fault =>
      unfold memberOf
      rw [sought]
      rfl
  | ok found =>
      cases found with
      | none =>
          rw [memberOf_none sought]
          change _ = Except.ok (loading.add ⟨name, roots, none⟩)
          unfold Loading.add
          simp only
          rw [exceptBind_ok]
          cases loading.implicit with
          | none => rfl
          | some index =>
              simp only
              cases CompilationUnit.sameReads index (some name) with
              | none => rfl
              | some ref => rfl
      | some path =>
          rw [memberOf_some sought]
          change (loadFile host (loading.unit.create (some name)).2
            loading.unit.patches.length path >>= fun unit =>
              pure { loading with
                unit := unit
                patches := loading.patches ++
                  [(.full loading.unit.patches.length, roots)] } : Report Loading).result = _
          rw [Report.result_bind, result_loadFile]
          cases declarationAt host path with
          | error fault => rfl
          | ok declaration =>
              change Except.ok _ = Except.ok (loading.add ⟨name, roots, some declaration⟩)
              rw [apply_create]
              rfl

theorem result_loadModules (host : Host) (patchFile : String) (loading : Loading)
    (entries : List (String × DistinctList FilePath)) :
    (loadModules host patchFile loading entries).result =
      (entries.mapM fun entry => memberOf host patchFile entry.1 entry.2.toList).map
        (List.foldl Loading.add loading) := by
  induction entries generalizing loading with
  | nil => rfl
  | cons entry rest ih =>
      obtain ⟨name, roots⟩ := entry
      unfold loadModules
      rw [Report.result_bind, result_loadModule, List.mapM_cons]
      cases memberOf host patchFile name roots.toList with
      | error fault => rfl
      | ok member =>
          change (loadModules host patchFile (loading.add member) rest).result = _
          rw [ih]
          cases rest.mapM fun entry => memberOf host patchFile entry.1 entry.2.toList with
          | error fault => rfl
          | ok members => rfl

/-! ### The patches of the modules -/

/-- The modules that get a patch of their own: of those without a patch file only the first. -/
def owners (implicit : Bool) : List Member → List Member
  | [] => []
  | member :: rest =>
    if member.declaration.isNone && implicit then owners implicit rest
    else member :: owners (member.declaration.isNone || implicit) rest

theorem owners_sublist (implicit : Bool) (members : List Member) :
    (owners implicit members).Sublist members := by
  induction members generalizing implicit with
  | nil => exact List.Sublist.refl _
  | cons first rest ih =>
      unfold owners
      split
      · exact (ih implicit).cons first
      · exact (ih _).cons_cons first

/-- The patches of the modules, where some are made before. -/
def refs (count : Nat) (implicit : Option Nat) :
    List Member → List (PatchRef × List FilePath)
  | [] => []
  | member :: rest =>
    match member.declaration, implicit with
    | none, some index =>
      match CompilationUnit.sameReads index (some member.name) with
      | none => refs count implicit rest
      | some ref => (ref, member.roots) :: refs count implicit rest
    | none, none => (.full count, member.roots) :: refs (count + 1) (some count) rest
    | some _, _ => (.full count, member.roots) :: refs (count + 1) implicit rest

/-- Each patch is that of a module: the roots are those of the module, and if the patch shares the
reads of another one, the module has a name and gives it to the patch. -/
theorem origin_of_mem_refs {count : Nat} {implicit : Option Nat} {members : List Member}
    {entry : PatchRef × List FilePath} (present : entry ∈ refs count implicit members) :
    ∃ member ∈ members, entry.2 = member.roots ∧
      ∀ name index, entry.1 = .readsOnly name index →
        name = member.name ∧ Text.isBlankText name = false := by
  induction members generalizing count implicit with
  | nil => cases present
  | cons member rest ih =>
      have later : ∀ {count implicit}, entry ∈ refs count implicit rest →
          ∃ other ∈ member :: rest, entry.2 = other.roots ∧
            ∀ name index, entry.1 = .readsOnly name index →
              name = other.name ∧ Text.isBlankText name = false := by
        intro count implicit among
        obtain ⟨other, given, origin⟩ := ih among
        exact ⟨other, List.mem_cons_of_mem _ given, origin⟩
      unfold refs at present
      split at present
      · split at present
        · exact later present
        · rename_i ref shared
          rcases List.mem_cons.mp present with rfl | among
          · obtain ⟨visible, rfl⟩ := CompilationUnit.sameReads_eq_some.mp shared
            refine ⟨member, List.mem_cons_self, rfl, ?_⟩
            intro name index same
            cases same
            exact ⟨rfl, visible⟩
          · exact later among
      · rcases List.mem_cons.mp present with rfl | among
        · exact ⟨member, List.mem_cons_self, rfl, fun _ _ same => by cases same⟩
        · exact later among
      · rcases List.mem_cons.mp present with rfl | among
        · exact ⟨member, List.mem_cons_self, rfl, fun _ _ same => by cases same⟩
        · exact later among

/-- The modules that patch files add to the compilation. -/
def addedRoots (roots : RootModules) (members : List Member) : RootModules :=
  members.foldl (fun roots member => roots.addAll member.addedModules) roots

private theorem addAll_none {member : Member} (undeclared : member.declaration = none)
    (roots : RootModules) : roots.addAll member.addedModules = roots := by
  unfold Member.addedModules
  rw [undeclared]
  rfl

/-- The patches made follow from the modules that are taken in. -/
theorem foldl_add (loading : Loading) (members : List Member) :
    (members.foldl Loading.add loading).unit =
        { roots := addedRoots loading.unit.roots members
          patches := loading.unit.patches ++
            (owners loading.implicit.isSome members).map Member.patch } ∧
      (members.foldl Loading.add loading).patches =
        loading.patches ++ refs loading.unit.patches.length loading.implicit members := by
  induction members generalizing loading with
  | nil => simp [addedRoots, owners, refs]
  | cons member rest ih =>
      obtain ⟨unit, patches⟩ := ih (loading.add member)
      rw [List.foldl_cons, unit, patches]
      cases declared : member.declaration with
      | some declaration =>
          have own : loading.add member = loading.addOwn member := by
            unfold Loading.add
            rw [declared]
          rw [own]
          simp [Loading.addOwn, owners, refs, declared, addedRoots]
      | none =>
          cases made : loading.implicit with
          | none =>
              have own : loading.add member = loading.addOwn member := by
                unfold Loading.add
                rw [declared, made]
              rw [own]
              simp [Loading.addOwn, owners, refs, declared, addedRoots]
          | some index =>
              have unchanged : addedRoots loading.unit.roots (member :: rest) =
                  addedRoots loading.unit.roots rest := by
                unfold addedRoots
                rw [List.foldl_cons, addAll_none declared]
              unfold Loading.add
              rw [declared, made, unchanged]
              cases shared : CompilationUnit.sameReads index (some member.name) with
              | none => simp [owners, refs, declared, made, shared]
              | some ref => simp [owners, refs, declared, shared]

theorem fullIndexes_refs (count : Nat) (implicit : Option Nat) (members : List Member) :
    fullIndexes (refs count implicit members) =
      List.range' count (owners implicit.isSome members).length := by
  induction members generalizing count implicit with
  | nil => rfl
  | cons member rest ih =>
      cases declared : member.declaration with
      | some declaration =>
          have others := ih (count + 1) implicit
          simp only [fullIndexes] at others
          simp [refs, owners, declared, fullIndexes, others, List.range'_succ]
      | none =>
          cases implicit with
          | none =>
              have others := ih (count + 1) (some count)
              simp only [fullIndexes] at others
              simp [refs, owners, declared, fullIndexes, others, List.range'_succ]
          | some index =>
              have others := ih count (some index)
              simp only [fullIndexes] at others
              cases shared : CompilationUnit.sameReads index (some member.name) with
              | none => simp [refs, owners, declared, fullIndexes, shared, others]
              | some ref =>
                  obtain ⟨_, rfl⟩ := CompilationUnit.sameReads_eq_some.mp shared
                  simp [refs, owners, declared, fullIndexes, shared, others]

end ModulePlan.Plan
