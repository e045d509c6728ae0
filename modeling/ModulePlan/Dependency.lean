/-
Resolved dependencies: their scopes, their coordinates, and the modules they are.
-/

import ModulePlan.Text.Blank
import ModulePlan.Text.Quoted

namespace ModulePlan

inductive Scope where
  | none
  | compile
  | compileOnly
  | provided
  | runtime
  | system
  | test
  | testOnly
  | testRuntime
deriving DecidableEq

namespace Scope

def word : Scope → String
  | .none => "none"
  | .compile => "compile"
  | .compileOnly => "compile-only"
  | .provided => "provided"
  | .runtime => "runtime"
  | .system => "system"
  | .test => "test"
  | .testOnly => "test-only"
  | .testRuntime => "test-runtime"

def all : List Scope :=
  [.none, .compile, .compileOnly, .provided, .runtime, .system, .test, .testOnly, .testRuntime]

/-- The form in which scope words are compared: without blank ends, in small letters, with
hyphens for underscores.  Only the letters `A` to `Z` have small forms among the letters of
scope words. -/
def normalForm (text : String) : String :=
  String.ofList ((Text.stripChars text.toList).map fun c =>
    if c = '_' then '-' else Text.lowerAscii c)

/-- The scope that a text names: compile for a missing or blank text, nothing for a text
that names no scope. -/
def parse? : Option String → Option Scope
  | .none => some .compile
  | some text =>
    if Text.isBlankText text then some .compile
    else all.find? fun scope => scope.word = normalForm text

def isTest : Scope → Bool
  | .test | .testOnly | .testRuntime => true
  | _ => false

/-- Is a dependency of this scope on the test module path?  Scope test-only is for compiling
the tests and test-runtime for running them. -/
def appliesTo (scope : Scope) (runtime : Bool) : Bool :=
  match scope with
  | .test => true
  | .testOnly => !runtime
  | .testRuntime => runtime
  | _ => false

end Scope

def unknownScopeMessage (text : String) : String :=
  "Unknown dependency scope: " ++ Text.quoted text

structure Dependency where
  coordinates : String
  scope : Scope := .compile
deriving DecidableEq

/-- What matters of a module for the module graph: its name, the modules it requires, and
whether it is automatic. -/
structure ModuleDescriptor where
  name : String
  requires : List String := []
  automatic : Bool := false
deriving DecidableEq

end ModulePlan
