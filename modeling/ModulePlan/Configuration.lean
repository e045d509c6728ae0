/-
Configurations of projects.

The settings of a project are the table `modpatch` of the file `.modpatch.toml` in its
directory.  Without that file they are the table `tool.modpatch` of `pyproject.toml`.  Paths
in the settings are seen from the project's directory; what is not set follows the
conventions for the places of sources and classes.
-/

import ModulePlan.Document.Toml.Reader
import ModulePlan.Host
import ModulePlan.Patch.Declaration

namespace ModulePlan

open Document (Value)

structure SourceSetting where
  root : FilePath
  module : Option String := none
  release : Option Int := none
deriving DecidableEq

structure Configuration where
  project : FilePath
  test : Bool := false
  output : Option FilePath := none
  mainOutput : Option FilePath := none
  patchFile : String := Patch.conventionalFile
  module : Option String := none
  dependencies : Option FilePath := none
  pom : Option FilePath := none
  excludes : List Value := []
  sources : List SourceSetting := []

namespace Configuration

/-! ### What holds where nothing is set -/

def effectiveOutput (configuration : Configuration) : FilePath :=
  configuration.output.getD ((configuration.project.join "target").join
    (if configuration.test then "test-classes" else "classes"))

def effectiveMainOutput (configuration : Configuration) : FilePath :=
  configuration.mainOutput.getD ((configuration.project.join "target").join "classes")

def effectiveSources (configuration : Configuration) : List SourceSetting :=
  if configuration.sources = [] then
    let branch := if configuration.test then "test" else "main"
    [{ root := ((configuration.project.join "src").join branch).join "java" }]
  else configuration.sources

/-! ### Reading settings -/

structure Settings where
  source : String
  entries : List (Value × Value)

namespace Settings

def refuse {α : Type} (settings : Settings) (key : String) (value : Value) :
    Except Fault α := do
  let shown ← Fault.written value.describe
  .error (.setting (.invalidValue settings.source key shown))

def field? (settings : Settings) (key : String) : Option Value :=
  Value.field? settings.entries key

def text? (settings : Settings) (key : String) : Except Fault (Option String) :=
  match settings.field? key with
  | none => .ok none
  | some (.text text) => .ok (some text)
  | some value => settings.refuse key value

def path? (settings : Settings) (directory : FilePath) (key : String) :
    Except Fault (Option FilePath) := do
  return (← settings.text? key).map directory.join

def bool? (settings : Settings) (key : String) : Except Fault (Option Bool) :=
  match settings.field? key with
  | none => .ok none
  | some (.bool value) => .ok (some value)
  | some value => settings.refuse key value

def int? (settings : Settings) (key : String) : Except Fault (Option Int) :=
  match settings.field? key with
  | none => .ok none
  | some (.int value) => .ok (some value)
  | some value => settings.refuse key value

def list (settings : Settings) (key : String) : Except Fault (List Value) :=
  match settings.field? key with
  | none => .ok []
  | some (.list items) => .ok items
  | some value => settings.refuse key value

end Settings

def sourceOf (settings : Settings) (project : FilePath) (item : Value) :
    Except Fault SourceSetting :=
  match item with
  | .mapping entries => do
    let inner : Settings := ⟨settings.source, entries⟩
    match ← inner.path? project "root" with
    | none => .error (.setting (.sourceWithoutRoot settings.source))
    | some root =>
      let module ← inner.text? "module"
      let release ← inner.int? "release"
      return { root, module, release }
  | value => settings.refuse "sources" value

def ofSettings (project : FilePath) (settings : Settings) : Except Fault Configuration := do
  let test ← settings.bool? "test"
  let output ← settings.path? project "output-directory"
  let mainOutput ← settings.path? project "main-output-directory"
  let patchFile ← settings.text? "patch-file"
  let module ← settings.text? "module"
  let dependencies ← settings.path? project "dependencies"
  let pom ← settings.path? project "pom"
  let excludes ← settings.list "excludes"
  let sources ← (← settings.list "sources").mapM (sourceOf settings project)
  return {
    project, output, mainOutput, module, dependencies, pom, excludes, sources
    test := test.getD false
    patchFile := patchFile.getD Patch.conventionalFile }

/-! ### Reading files -/

def knownKeys : List String :=
  ["test", "output-directory", "main-output-directory", "patch-file", "module",
    "dependencies", "pom", "excludes", "sources"]

def ownFile : String := ".modpatch.toml"

def sharedFile : String := "pyproject.toml"

def readEntries (host : Host) (path : FilePath) : Except Fault (List (Value × Value)) := do
  let text ← host.readText path
  (Document.Toml.read text).mapError (·.inFile path)

def sharedTable? (host : Host) (path : FilePath) : Except Fault (Option Value) := do
  match Value.field? (← readEntries host path) "tool" with
  | none => return none
  | some (.mapping tools) => return Value.field? tools "modpatch"
  | some _ => .error (.kind .toolNotTable)

/-- The settings of a project and the file that holds them, if there are any. -/
def table? (host : Host) (project : FilePath) : Except Fault (Option (Value × FilePath)) := do
  let own := project.join ownFile
  let shared := project.join sharedFile
  if ← host.has own then
    return some (((Value.field? (← readEntries host own) "modpatch").getD (.mapping [])), own)
  else if ← host.has shared then
    return (← sharedTable? host shared).map (·, shared)
  else return none

def noteUnknown (source : String) : List (Value × Value) → Report Unit
  | [] => return ()
  | (key, _) :: rest => do
    if !(knownKeys.map Value.text).any key.sameKey then
      let shown ← Report.ofExcept (Fault.written key.describe)
      Report.debug (source ++ ": ignoring unknown key " ++ shown)
    noteUnknown source rest

def load (host : Host) (project : FilePath) : Report Configuration := do
  match ← Report.ofExcept (table? host project) with
  | none =>
    Report.debug ("No modpatch configuration in " ++ project.toText)
    return { project }
  | some (.mapping entries, path) =>
    noteUnknown path.toText entries
    let configuration ← Report.ofExcept (ofSettings project ⟨path.toText, entries⟩)
    Report.debug ("Configuration read from " ++ path.toText)
    return configuration
  | some (_, path) => .fail (.setting (.notTable path.toText))

end Configuration

end ModulePlan
