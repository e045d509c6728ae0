/-
Names of modules and packages, and the words that stand for more than one module.
-/

import ModulePlan.DistinctList
import ModulePlan.KeyedList
import ModulePlan.Text.Fields
import ModulePlan.Text.Identifier

namespace ModulePlan

def isValidName (name : String) : Bool :=
  (Text.fields '.' name.toList).all Text.isIdentifier

/-- All the modules on the module path; the compiler knows this word. -/
def allModulePath : String := "ALL-MODULE-PATH"

/-- All the classes outside named modules; the compiler knows this word. -/
def allUnnamed : String := "ALL-UNNAMED"

/-- The modules of the test dependencies.  The compiler does not know this word: it is
replaced once the dependencies are resolved. -/
def testModulePath : String := "TEST-MODULE-PATH"

/-- Names in the order in which they were first given. -/
abbrev NameSet := DistinctList String

abbrev Targets := KeyedList String NameSet

/-- Adds a package's targets; a package without any so far is put last. -/
def addTargets (targets : Targets) (package : String) (names : NameSet) : Targets :=
  targets.alter package fun present => (present.getD .empty).union names

end ModulePlan
