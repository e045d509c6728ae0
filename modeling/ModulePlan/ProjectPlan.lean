/-
Plans of projects.

A project is planned by its configuration: where its sources are, where its classes go, and
which module the sources belong to that name none.  For the main code that is the module
declared in the first root with a declaration; for tests it is the module that the main
classes are.  The dependencies come from a listing or from a Maven project.
-/

import ModulePlan.Configuration
import ModulePlan.DependencyListing
import ModulePlan.Location
import ModulePlan.MavenProject
import ModulePlan.Plan

namespace ModulePlan

/-- What is asked of a project.  What is said here has precedence over its configuration. -/
structure ProjectRequest where
  project : FilePath
  test : Option Bool := none
  runtime : Bool := false
  dependencies : Option Location := none
  pom : Option Location := none

namespace Configuration

/-- The source directory of a configured root.  The number of its release is written into the
path of its classes. -/
def directory (configuration : Configuration) (source : SourceSetting) :
    Except Fault SourceDirectory := do
  if let some release := source.release then
    let _ ← Fault.written (Document.writeWhole release)
  return .create source.root configuration.effectiveOutput source.module source.release .source

def directories (configuration : Configuration) : Except Fault (List SourceDirectory) :=
  configuration.effectiveSources.mapM configuration.directory

/-- The first module that is declared in one of some roots. -/
def declaredModule (host : Host) : List SourceSetting → Report (Option String)
  | [] => return none
  | source :: rest => do
    match ← ModuleDeclaration.read host source.root with
    | some name => return some name
    | none => declaredModule host rest

def mainModule (host : Host) (configuration : Configuration) : Report (Option String) := do
  if ← Report.ofExcept (host.isDirectory configuration.effectiveMainOutput) then
    return (← Artifact.describe host configuration.effectiveMainOutput).map (·.name)
  else return none

def defaultModule (host : Host) (configuration : Configuration) : Report (Option String) :=
  match configuration.module.filter (· ≠ "") with
  | some name => return some name
  | none =>
    if configuration.test then mainModule host configuration
    else declaredModule host configuration.effectiveSources

end Configuration

namespace ProjectRequest

def adjust (request : ProjectRequest) (configuration : Configuration) : Configuration :=
  { configuration with test := request.test.getD configuration.test }

/-- The dependencies: what the request names comes before what the configuration names, and a
listing before a Maven project. -/
def view (host : Host) (request : ProjectRequest) (configuration : Configuration) :
    Report (Option DependencyView) := do
  match request.dependencies, request.pom, configuration.dependencies, configuration.pom with
  | some (.path path), _, _, _ => return some (← DependencyListing.load host path)
  | some .nowhere, _, _, _ => .fail (.kind .listingNowhere)
  | none, some (.path path), _, _ => return some (← MavenProject.load host path)
  | none, some .nowhere, _, _ => .fail (MavenProject.nowhereFault host)
  | none, none, some path, _ => return some (← DependencyListing.load host path)
  | none, none, none, some path => return some (← MavenProject.load host path)
  | none, none, none, none => return none

def place (host : Host) (request : ProjectRequest) : Except Fault FilePath :=
  match Host.namingFault? request.project with
  | some fault => .error fault
  | none => .ok (request.project.resolve host.directory)

def artifacts (host : Host) (request : ProjectRequest) : List FilePath :=
  let report : Report (Option DependencyView) := do
    let project ← Report.ofExcept (place host request)
    let configuration ← Configuration.load host project
    request.view host configuration
  match report.result with
  | .ok (some view) => view.dependencies.values
  | _ => []

def plan (host : Host) (request : ProjectRequest) : Report Plan := do
  let project ← Report.ofExcept (place host request)
  let loaded ← Configuration.load host project
  let configuration := request.adjust loaded
  let directories ← Report.ofExcept configuration.directories
  let defaultModule ← configuration.defaultModule host
  let view ← request.view host configuration
  Plan.make host directories view {
    test := configuration.test
    runtime := request.runtime
    defaultModule := defaultModule
    patchFile := configuration.patchFile
    excludes := configuration.excludes }

end ProjectRequest

end ModulePlan
