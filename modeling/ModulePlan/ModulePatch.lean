/-
Changes to the module graph for one module, and the options they are written as.

A patch changes one module.  It is made before any patch file is read, and then asks for all
modules of the test dependencies to be added and read; reading a file replaces both requests
by those of the file.  The modules to be added to the whole compilation are kept apart,
since there is one option for them: they are written once and then forgotten.
-/

import ModulePlan.CompilerOptions
import ModulePlan.Patch.Overrides

namespace ModulePlan

/-- The modules to be added to a compilation, and whether they were written already. -/
structure RootModules where
  names : NameSet := .empty
  written : Bool := false
deriving DecidableEq

structure ModulePatch where
  module : Option String
  limitModules : NameSet := .empty
  addReads : NameSet := .empty
  addExports : Targets := .empty
  addOpens : Targets := .empty
  addTestModules : Bool := true
  readTestModules : Bool := true
  exportsToTest : NameSet := .empty
  /-- The modules of the test dependencies, once they are known. -/
  testModules : NameSet := .empty
deriving DecidableEq

/-- An option and its value, before it is known whether the value is worth writing. -/
abbrev Offer := String × String

/-- Offers an option for names with commas between them, perhaps behind a key and an equals
sign.  Without names nothing is offered. -/
def offer (option : String) (key : Option String) (names : NameSet) : List Offer :=
  if names.isEmpty then []
  else
    let joined := Text.joinFields "," names.toList
    match key with
    | none => [("--" ++ option, joined)]
    | some key => [("--" ++ option, key ++ "=" ++ joined)]

namespace RootModules

def addAll (roots : RootModules) (names : NameSet) : RootModules :=
  { roots with names := roots.names.union names }

/-- The option for the modules, unless it was written before. -/
def offers (roots : RootModules) : List Offer :=
  if roots.written then [] else offer "add-modules" none roots.names

/-- What is left once the modules are written: after the first time, nothing is forgotten any
more. -/
def afterWriting (roots : RootModules) : RootModules :=
  if roots.written then roots else { names := .empty, written := true }

end RootModules

namespace ModulePatch

/-- A patch for a module that has no patch file so far.  A blank name is none. -/
def create (module : Option String) : ModulePatch :=
  { module := module.filter fun name => !Text.isBlankText name }

def mergeTargets (targets others : Targets) : Targets :=
  others.entries.foldl (fun merged entry => addTargets merged entry.1 entry.2) targets

def apply (patch : ModulePatch) (declaration : Patch.Declaration) : ModulePatch :=
  let overrides := declaration.overrides
  { patch with
    module := some declaration.module
    addTestModules := overrides.addTestModules
    readTestModules := overrides.readTestModules
    limitModules := patch.limitModules.union overrides.limitModules
    addReads := patch.addReads.union overrides.addReads
    addExports := mergeTargets patch.addExports overrides.addExports
    addOpens := mergeTargets patch.addOpens overrides.addOpens
    exportsToTest := patch.exportsToTest.union overrides.exportsToTest }

/-- The targets of a package's exports, with the modules of the test dependencies if the
package is exported to them. -/
def exportTargets (patch : ModulePatch) (package : String) (targets : NameSet) : NameSet :=
  if package ∈ patch.exportsToTest then targets.union patch.testModules else targets

/-- The options that belong to a named module.  Packages are opened only on request. -/
def namedOffers (patch : ModulePatch) (opens : Bool) (module : String) : List Offer :=
  offer "add-reads" (some module) patch.addReads ++
    (patch.addExports.entries.flatMap fun (package, targets) =>
      offer "add-exports" (some (module ++ "/" ++ package))
        (patch.exportTargets package targets)) ++
    if opens then
      patch.addOpens.entries.flatMap fun (package, targets) =>
        offer "add-opens" (some (module ++ "/" ++ package)) targets
    else []

/-- The options of a patch, without that for the modules of the whole compilation. -/
def offers (patch : ModulePatch) (opens : Bool) : List Offer :=
  offer "limit-modules" none patch.limitModules ++
    match patch.module with
    | none => []
    | some module => patch.namedOffers opens module

end ModulePatch

end ModulePlan
