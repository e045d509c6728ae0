/-
The resolved dependencies and what is known of their artifacts.

A view holds the path of each dependency and the descriptors known by path.  A descriptor
that came with a dependency is used as it is; another artifact is looked at the first time it
is asked for.  That an artifact is no module is remembered like any descriptor; a look that
fails is not, and will be taken again.
-/

import ModulePlan.Dependency
import ModulePlan.KeyedList
import ModulePlan.Report

namespace ModulePlan

abbrev Inspection := FilePath → Report (Option ModuleDescriptor)

structure DependencyView where
  dependencies : KeyedList Dependency FilePath := .empty
  descriptors : KeyedList FilePath (Option ModuleDescriptor) := .empty
deriving DecidableEq, Inhabited

namespace DependencyView

/-- Adds a dependency, or moves it to another path.  A descriptor is remembered; without one
the artifact is remembered as no module unless it is to be inspected. -/
def add (view : DependencyView) (dependency : Dependency) (path : FilePath)
    (descriptor : Option ModuleDescriptor) (inspect : Bool) : DependencyView where
  dependencies := view.dependencies.insert dependency path
  descriptors :=
    if descriptor.isSome || !inspect then view.descriptors.insert path descriptor
    else view.descriptors

def size (view : DependencyView) : Nat :=
  view.dependencies.size

def lookUp (inspection : Inspection) (view : DependencyView) (path : FilePath) :
    Report (Option ModuleDescriptor × DependencyView) :=
  match view.descriptors.get? path with
  | some known => return (known, view)
  | none => do
    let found ← inspection path
    return (found, { view with descriptors := view.descriptors.insert path found })

/-- The name of the module that an artifact is. -/
def nameOf (inspection : Inspection) (view : DependencyView) (path : FilePath) :
    Report (Option String × DependencyView) := do
  let (descriptor, view) ← view.lookUp inspection path
  return (descriptor.map (·.name), view)

def applicable (view : DependencyView) (runtime : Bool) : List (Dependency × FilePath) :=
  view.dependencies.entries.filter fun (dependency, _) => dependency.scope.appliesTo runtime

end DependencyView

/-- A dependency with the descriptor of its artifact, and what was told while it was read. -/
structure Answer where
  dependency : Dependency
  descriptor : Option ModuleDescriptor
  trace : Trace
deriving DecidableEq

def Answer.name (answer : Answer) : Option String :=
  answer.descriptor.map (·.name)

/-- The answers about some dependencies up to the first whose artifact cannot be read, the
view that remembers them, and what happened there. -/
structure Survey where
  answers : List Answer
  view : DependencyView
  failure : Option (Trace × Fault)

def Survey.take (inspection : Inspection) (view : DependencyView) :
    List (Dependency × FilePath) → Survey
  | [] => ⟨[], view, none⟩
  | (dependency, path) :: rest =>
    let report := view.lookUp inspection path
    match report.result with
    | .error fault => ⟨[], view, some (report.trace, fault)⟩
    | .ok (descriptor, view) =>
      let later := Survey.take inspection view rest
      { later with answers := ⟨dependency, descriptor, report.trace⟩ :: later.answers }

end ModulePlan
