/-
The dependencies of a Maven project, by its project file.

They are given by a resolver.  A dependency whose scope is unknown or whose artifact cannot
be resolved is passed over.
-/

import ModulePlan.DependencyView
import ModulePlan.Host
import ModulePlan.ScopeValue

namespace ModulePlan.MavenProject

def modelFault (path : FilePath) : ResolverFault → Fault
  | .system text => .file (.resolver text)
  | .value text => .setting (.unresolved path text)
  | .key text => .setting (.unresolved path (ResolverFault.key text).reason)
  | .kind _ => .kind .resolver

def coordinates (dependency : MavenDependency) : String :=
  dependency.group ++ ":" ++ dependency.artifact

def fileOf (dependency : MavenDependency) : Report (Option FilePath) :=
  match dependency.file with
  | .ok file => return some (.ofText file)
  | .error (.kind _) => .fail (.kind .resolver)
  | .error fault => do
    Report.debug
      ("Could not resolve artifact " ++ coordinates dependency ++ ": " ++ fault.reason)
    return none

/-- Adds a dependency to a view unless it is passed over. -/
def addDependency (view : DependencyView) (dependency : MavenDependency) :
    Report DependencyView :=
  match Scope.ofValue dependency.scope with
  | .error (.value (.unknownScope text)) => do
    Report.debug
      ("Skipping " ++ coordinates dependency ++ ": unknown scope " ++ Text.quoted text)
    return view
  | .error fault => .fail fault
  | .ok scope => do
    match ← fileOf dependency with
    | none => return view
    | some file => return view.add ⟨coordinates dependency, scope⟩ file none true

def addDependencies (view : DependencyView) : List MavenDependency → Report DependencyView
  | [] => return view
  | dependency :: rest => do
    let view ← addDependency view dependency
    addDependencies view rest

def model (host : Host) (path : FilePath) : Except Fault MavenModel :=
  match host.maven with
  | none => .error (.setting .resolverMissing)
  | some model => do
    if ← host.has path then
      match model.fault with
      | some fault => .error (modelFault path fault)
      | none => .ok model
    else .error (.file (.noProject path))

/-- The fault of a project file that is nowhere, which is met only by a resolver. -/
def nowhereFault (host : Host) : Fault :=
  match host.maven with
  | none => .setting .resolverMissing
  | some _ => .kind .projectNowhere

def load (host : Host) (path : FilePath) : Report DependencyView := do
  let model ← Report.ofExcept (model host path)
  let view ← addDependencies {} model.dependencies
  Report.debug
    ("Maven deps: " ++ toString view.size ++ " resolved from " ++ path.toText)
  return view

end ModulePlan.MavenProject
