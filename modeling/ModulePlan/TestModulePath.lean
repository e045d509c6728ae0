/-
The modules of the test dependencies, taken into a patch.

The dependencies on the test module path are asked for their modules in order, until one
cannot be read.  A module that is not yet added or read is added or read as the patch asks;
then what it requires is on the graph already and is passed over, which keeps the options
short.  Packages exported to the test modules are exported to all of them, passed over or
not, and to the unnamed module in place of artifacts that are no modules.
-/

import ModulePlan.DependencyView
import ModulePlan.ModulePatch

namespace ModulePlan.TestModulePath

/-- What a pass through the dependencies changes.  `done` holds the modules seen and those
that modules added or read in this pass require. -/
structure Progress where
  names : NameSet
  reads : NameSet
  testModules : NameSet
  done : NameSet := .empty
deriving DecidableEq

structure Request where
  adds : Bool
  reads : Bool
  exports : Bool
deriving DecidableEq

def Request.ofPatch (patch : ModulePatch) : Request :=
  ⟨patch.addTestModules, patch.readTestModules, !patch.exportsToTest.isEmpty⟩

def Request.isAny (request : Request) : Bool :=
  request.adds || request.reads || request.exports

def Progress.noteExport (progress : Progress) (request : Request) (name : String) : Progress :=
  if request.exports then { progress with testModules := progress.testModules.insert name }
  else progress

def Progress.unnamed (progress : Progress) (request : Request) : Progress :=
  if request.reads then { progress with reads := progress.reads.insert allUnnamed } else progress

/-- Does a module change the modules added or read, as far as the request goes? -/
def Progress.isNew (progress : Progress) (request : Request) (name : String) : Bool :=
  (request.adds && name ∉ progress.names) || (request.reads && name ∉ progress.reads)

def Progress.addAndRead (progress : Progress) (request : Request) (name : String) : Progress :=
  { progress with
    names := if request.adds then progress.names.insert name else progress.names
    reads := if request.reads then progress.reads.insert name else progress.reads }

def Progress.named (progress : Progress) (request : Request) (module : ModuleDescriptor) :
    Progress :=
  let seen := { progress with done := progress.done.insert module.name }
  if progress.isNew request module.name then
    let changed := seen.addAndRead request module.name
    { changed with done := module.requires.foldl .insert changed.done }
  else seen

def Progress.step (request : Request) (progress : Progress) (answer : Answer) : Progress :=
  match answer.descriptor with
  | none => (progress.noteExport request allUnnamed).unnamed request
  | some module =>
    let noted := progress.noteExport request module.name
    if module.name ∈ noted.done then noted else noted.named request module

def Progress.notes (request : Request) (progress : Progress) (answer : Answer) : List Note :=
  match answer.descriptor with
  | none => []
  | some module =>
    if module.name ∈ progress.done || progress.isNew request module.name then []
    else
      [⟨.debug, "Module " ++ module.name ++ " of " ++ answer.dependency.coordinates ++
        " already present"⟩]

def Progress.run (request : Request) (progress : Progress) (answers : List Answer) : Progress :=
  answers.foldl (Progress.step request) progress

/-- What is told on the way: with each answer what was told while it was found, and the note
about it. -/
def Progress.trace (request : Request) (progress : Progress) : List Answer → Trace
  | [] => {}
  | answer :: rest =>
    (answer.trace.append { notes := progress.notes request answer }).append
      ((progress.step request answer).trace request rest)

/-- A patch after a pass, with the modules of the compilation, the view and the report. -/
structure Pass where
  roots : RootModules
  patch : ModulePatch
  view : DependencyView
  report : Report Unit

def Progress.finish (progress : Progress) (roots : RootModules) (patch : ModulePatch) :
    RootModules × ModulePatch :=
  ({ roots with names := progress.names },
    { patch with addReads := progress.reads, testModules := progress.testModules })

def Progress.start (roots : RootModules) (patch : ModulePatch) : Progress :=
  { names := roots.names, reads := patch.addReads, testModules := patch.testModules }

def summary (roots : RootModules) (patch : ModulePatch) : String :=
  "Test module path of " ++ patch.module.getD "None" ++ ": " ++
    toString roots.names.size ++ " added, " ++ toString patch.addReads.size ++ " read"

/-- One pass of the test dependencies into a patch.  A patch that asks for nothing does not
look at them.  If an artifact cannot be read, what came before it stays taken in. -/
def expand (inspection : Inspection) (view : DependencyView) (runtime : Bool)
    (roots : RootModules) (patch : ModulePatch) : Pass :=
  let request := Request.ofPatch patch
  if request.isAny then
    let survey := Survey.take inspection view (view.applicable runtime)
    let start := Progress.start roots patch
    let (newRoots, newPatch) := (start.run request survey.answers).finish roots patch
    let told := start.trace request survey.answers
    let ending : Report Unit := match survey.failure with
      | some (trace, fault) => ⟨trace, .error fault⟩
      | none => Report.debug (summary newRoots newPatch)
    ⟨newRoots, newPatch, survey.view, ending.after told⟩
  else ⟨roots, patch, view, pure ()⟩

end ModulePlan.TestModulePath
