/-
The patches of one compilation.

A unit holds the modules added to the whole compilation and its full patches.  A module
without a patch of its own may read what a full patch reads; it is given by its name and the
place of that patch, so it follows every later change to those reads.
-/

import ModulePlan.TestModulePath

namespace ModulePlan

/-- The modules added to a compilation and its full patches, in the order of their making. -/
structure CompilationUnit where
  roots : RootModules := {}
  patches : List ModulePatch := []
deriving DecidableEq, Inhabited

/-- A patch of a unit: a full one, or a module that reads what a full one reads. -/
inductive PatchRef where
  | full (index : Nat)
  | readsOnly (module : String) (index : Nat)
deriving DecidableEq

namespace PatchRef

def index : PatchRef → Nat
  | .full index => index
  | .readsOnly _ index => index

end PatchRef

namespace CompilationUnit

/-- The full patch at a place; a place without one means an untouched patch without a module. -/
def patch (unit : CompilationUnit) (index : Nat) : ModulePatch :=
  unit.patches.getD index (.create none)

def create (unit : CompilationUnit) (module : Option String) : PatchRef × CompilationUnit :=
  (.full unit.patches.length, { unit with patches := unit.patches ++ [.create module] })

def modify (unit : CompilationUnit) (index : Nat) (change : ModulePatch → ModulePatch) :
    CompilationUnit :=
  { unit with patches := unit.patches.modify index change }

def apply (unit : CompilationUnit) (index : Nat) (declaration : Patch.Declaration) :
    CompilationUnit :=
  { unit.modify index (·.apply declaration) with
    roots := unit.roots.addAll declaration.overrides.addModules }

/-- Reads a patch file into the full patch at a place.  A faulty file changes nothing. -/
def load (unit : CompilationUnit) (index : Nat) (text : String) :
    Except Patch.Fault CompilationUnit := do
  return unit.apply index (← Patch.Declaration.ofText text)

/-- A module that reads what a full patch reads; a blank name gives none. -/
def sameReads (index : Nat) (module : Option String) : Option PatchRef :=
  match module with
  | none => none
  | some name => if Text.isBlankText name then none else some (.readsOnly name index)

structure Expansion where
  unit : CompilationUnit
  view : DependencyView
  report : Report Unit

def expand (inspection : Inspection) (view : DependencyView) (runtime : Bool)
    (unit : CompilationUnit) (index : Nat) : Expansion :=
  let pass := TestModulePath.expand inspection view runtime unit.roots (unit.patch index)
  ⟨{ unit.modify index fun _ => pass.patch with roots := pass.roots }, pass.view, pass.report⟩

/-- Takes the test dependencies into the full patches at some places, one after another. -/
def expandAll (inspection : Inspection) (runtime : Bool) (view : DependencyView)
    (unit : CompilationUnit) : List Nat → Report (CompilationUnit × DependencyView)
  | [] => return (unit, view)
  | index :: rest => do
    let expansion := unit.expand inspection view runtime index
    expansion.report
    expandAll inspection runtime expansion.view expansion.unit rest

def module (unit : CompilationUnit) : PatchRef → Option String
  | .full index => (unit.patch index).module
  | .readsOnly module _ => some module

/-- The options of a patch, and the unit once they are written.  The first full patch written
carries the option for the modules of the whole compilation. -/
def write (unit : CompilationUnit) (opens : Bool) :
    PatchRef → List Offer × CompilationUnit
  | .full index =>
    (unit.roots.offers ++ (unit.patch index).offers opens,
      { unit with roots := unit.roots.afterWriting })
  | .readsOnly module index => (offer "add-reads" (some module) (unit.patch index).addReads, unit)

def writeAll (unit : CompilationUnit) (opens : Bool) :
    List PatchRef → List Offer × CompilationUnit
  | [] => ([], unit)
  | ref :: rest =>
    let (offers, unit) := unit.write opens ref
    let (others, unit) := unit.writeAll opens rest
    (offers ++ others, unit)

def describe (unit : CompilationUnit) (ref : PatchRef) : String :=
  let shown := ((unit.module ref).map Text.quoted).getD "None"
  match ref with
  | .full _ => "ModulePatch(" ++ shown ++ ")"
  | .readsOnly .. => "ReadsOnlyPatch(" ++ shown ++ ")"

end CompilationUnit

end ModulePlan
