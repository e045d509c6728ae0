/-
What the directives of a patch file come to.

Directives of one keyword add up, each name counting where it is first given.  The word for
the modules of the test dependencies is taken out of every list and kept as a request.
-/

import ModulePlan.Patch.Declaration

namespace ModulePlan.Patch

structure Overrides where
  addModules : NameSet := .empty
  limitModules : NameSet := .empty
  addReads : NameSet := .empty
  addExports : Targets := .empty
  addOpens : Targets := .empty
  addTestModules : Bool := false
  readTestModules : Bool := false
  exportsToTest : NameSet := .empty
deriving DecidableEq

namespace Overrides

/-- The names of a list without the word for the test dependencies. -/
def plainNames (names : List String) : NameSet :=
  (DistinctList.ofList names).erase testModulePath

def asksForTest (names : List String) : Bool :=
  testModulePath ∈ names

def add (overrides : Overrides) : Directive → Overrides
  | .addModules names =>
    { overrides with
      addModules := overrides.addModules.union (plainNames names)
      addTestModules := overrides.addTestModules || asksForTest names }
  | .limitModules names =>
    { overrides with
      limitModules := overrides.limitModules.union (DistinctList.ofList names) }
  | .addReads names =>
    { overrides with
      addReads := overrides.addReads.union (plainNames names)
      readTestModules := overrides.readTestModules || asksForTest names }
  | .addExports package targets =>
    { overrides with
      addExports := addTargets overrides.addExports package (plainNames targets)
      exportsToTest :=
        if asksForTest targets then overrides.exportsToTest.insert package
        else overrides.exportsToTest }
  | .addOpens package targets =>
    { overrides with
      addOpens := addTargets overrides.addOpens package (DistinctList.ofList targets) }

end Overrides

def Declaration.overrides (declaration : Declaration) : Overrides :=
  declaration.directives.foldl Overrides.add {}

end ModulePlan.Patch
