/-
Plans of a compilation.

A plan holds the options for the compiler and the source files by release.  The modules are
those of the source directories.  A module whose roots hold a patch file gets a patch from
it; the first module without one gets a patch that takes in all test dependencies, and the
others read what that one reads.  For tests, the dependencies are taken in, packages are
opened, and every root is patched into its module.
-/

import ModulePlan.Artifact.Description
import ModulePlan.CompilationUnit
import ModulePlan.ModuleDeclaration
import ModulePlan.Source.ReleaseGroup

namespace ModulePlan

structure PlanSettings where
  test : Bool := false
  runtime : Bool := false
  defaultModule : Option String := none
  patchFile : String := Patch.conventionalFile
  excludes : List Document.Value := []

structure Plan where
  test : Bool
  options : CompilerOptions
  groups : List ReleaseGroup
  unit : CompilationUnit
  patches : List PatchRef

namespace Plan

def modules (plan : Plan) : List String :=
  (plan.patches.filterMap plan.unit.module).filter (· ≠ "")

/-- The module that a directory belongs to; empty for none. -/
def effectiveModule (defaultModule : Option String) (directory : SourceDirectory) : String :=
  match directory.module with
  | some name => if name = "" then defaultModule.getD "" else name
  | none => defaultModule.getD ""

/-- The roots of each module, in the order of the directories. -/
def moduleRoots (defaultModule : Option String) (directories : List SourceDirectory) :
    KeyedList String (DistinctList FilePath) :=
  directories.foldl
    (fun roots directory =>
      roots.alter (effectiveModule defaultModule directory) fun present =>
        (present.getD .empty).insert directory.root)
    .empty

def patchFileOf? (host : Host) (patchFile : String) :
    List FilePath → Except Fault (Option FilePath)
  | [] => .ok none
  | root :: rest => do
    if ← host.isFile (root.join patchFile) then return some (root.join patchFile)
    else patchFileOf? host patchFile rest

/-- The patches made so far: each with the roots of its module, and the place of the first that
stands for a module without a patch file. -/
structure Loading where
  unit : CompilationUnit := {}
  patches : List (PatchRef × List FilePath) := []
  implicit : Option Nat := none

def loadFile (host : Host) (unit : CompilationUnit) (index : Nat) (path : FilePath) :
    Report CompilationUnit := do
  let text ← Report.ofExcept (host.readLines path)
  match unit.load index text with
  | .error fault => Report.fail (.patch (some path) fault)
  | .ok loaded =>
    Report.debug ("Loaded " ++ path.toText ++ " for module " ++
      (loaded.patch index).module.getD "None")
    return loaded

def loadModule (host : Host) (patchFile : String) (loading : Loading) (name : String)
    (roots : List FilePath) : Report Loading := do
  match ← Report.ofExcept (patchFileOf? host patchFile roots) with
  | some path =>
    let (ref, unit) := loading.unit.create (some name)
    let unit ← loadFile host unit ref.index path
    return { loading with unit := unit, patches := loading.patches ++ [(ref, roots)] }
  | none =>
    match loading.implicit with
    | none =>
      let (ref, unit) := loading.unit.create (some name)
      return {
        unit := unit
        patches := loading.patches ++ [(ref, roots)]
        implicit := some ref.index }
    | some index =>
      match CompilationUnit.sameReads index (some name) with
      | none => return loading
      | some ref => return { loading with patches := loading.patches ++ [(ref, roots)] }

def loadModules (host : Host) (patchFile : String) (loading : Loading) :
    List (String × DistinctList FilePath) → Report Loading
  | [] => return loading
  | (name, roots) :: rest => do
    let loading ← loadModule host patchFile loading name roots.toList
    loadModules host patchFile loading rest

/-- Notes the options that are offered without a value worth writing. -/
def noteOmitted : List Offer → Report Unit
  | [] => return ()
  | (option, value) :: rest => do
    if Text.isBlankText value then Report.debug ("Omitting " ++ option ++ ": no value")
    noteOmitted rest

def patchModuleOffers (unit : CompilationUnit) (patches : List (PatchRef × List FilePath)) :
    List Offer :=
  patches.filterMap fun (ref, roots) =>
    match unit.module ref with
    | none => none
    | some name =>
      if name = "" then none
      else some ("--patch-module", name ++ "=" ++ Text.joinFields ":" (roots.map (·.toText)))

def declarationWarning (root : FilePath) : String :=
  "The test directory " ++ root.toText ++ " should not contain a module-info.java file. " ++
    "Use --add-reads, --add-modules and related options instead."

def warnOfDeclarations (host : Host) : List SourceDirectory → Report Unit
  | [] => return ()
  | directory :: rest => do
    if ← Report.ofExcept (ModuleDeclaration.isIn host directory.root) then
      Report.tell .warning (declarationWarning directory.root)
    warnOfDeclarations host rest

def fullIndexes (patches : List (PatchRef × List FilePath)) : List Nat :=
  patches.filterMap fun (ref, _) =>
    match ref with
    | .full index => some index
    | .readsOnly .. => none

def releaseGroups (host : Host) (directories : List SourceDirectory)
    (excludes : List Document.Value) : Report (List ReleaseGroup) := do
  let sources ← Discovery.sources host directories excludes
  let groups := groupByRelease sources
  Report.debug ("Sources grouped into releases " ++ describeReleases groups)
  return groups

/-- Takes the test dependencies into the full patches, if this is for tests and there are
dependencies. -/
def classify (host : Host) (view : Option DependencyView) (settings : PlanSettings)
    (loading : Loading) : Report CompilationUnit :=
  match settings.test, view with
  | true, some view => do
    let (unit, _) ← loading.unit.expandAll (Artifact.describe host) settings.runtime view
      (fullIndexes loading.patches)
    return unit
  | _, _ => return loading.unit

def make (host : Host) (directories : List SourceDirectory) (view : Option DependencyView)
    (settings : PlanSettings) : Report Plan := do
  let groups ← releaseGroups host directories settings.excludes
  let modules := moduleRoots settings.defaultModule directories
  let loading ← loadModules host settings.patchFile {} modules.entries
  Report.debug ("Modules: " ++ Text.quotedList modules.keys)
  let unit ← classify host view settings loading
  let (offers, unit) := unit.writeAll settings.test (loading.patches.map Prod.fst)
  noteOmitted offers
  let options := CompilerOptions.addAll {} offers
  let options :=
    if settings.test then options.addAll (patchModuleOffers unit loading.patches) else options
  if settings.test then
    noteOmitted (patchModuleOffers unit loading.patches)
    warnOfDeclarations host directories
  Report.debug (toString options.pairs.length ++ " options, " ++ toString groups.length ++
    " release groups")
  return {
    test := settings.test
    options := options
    groups := groups
    unit := unit
    patches := loading.patches.map Prod.fst }

end Plan

end ModulePlan
