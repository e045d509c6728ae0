/-
Source directories: the roots that source files are found under, each for one module and one
release, and the directories that their classes go to.
-/

import ModulePlan.FilePath
import ModulePlan.Text.Blank

namespace ModulePlan

inductive FileKind where
  | source
  | compiled
  | other
deriving DecidableEq

def FileKind.suffix : FileKind → String
  | .source => ".java"
  | .compiled => ".class"
  | .other => ""

/-- A root of source files.  The module is missing rather than blank. -/
structure SourceDirectory where
  root : FilePath
  module : Option String
  release : Option Int
  output : FilePath
  kind : FileKind := .source
  outputKind : FileKind := .compiled
deriving DecidableEq

namespace SourceDirectory

/-- Where the classes of a module and release go: below the base, first the module's name, then
the place of the release's classes. -/
def outputBelow (base : FilePath) (module : Option String) (release : Option Int) : FilePath :=
  let output := match module with
    | some name => base.join name
    | none => base
  match release with
  | some number => ((output.join "META-INF").join "versions").join (toString number)
  | none => output

def properModule (module : Option String) : Option String :=
  module.filter fun name => !Text.isBlankText name

/-- A root of source files; a blank module name counts as none. -/
def create (root base : FilePath) (module : Option String) (release : Option Int)
    (kind : FileKind) : SourceDirectory :=
  { root, module := properModule module, release, kind
    output := outputBelow base (properModule module) release }

def same (left right : SourceDirectory) : Bool :=
  left.root = right.root && left.module = right.module && left.release = right.release &&
    left.output = right.output

def describe (directory : SourceDirectory) : String :=
  "\"" ++ directory.root.toText ++ "\"" ++
    (match directory.module with
      | some name => " for module \"" ++ name ++ "\""
      | none => "") ++
    (match directory.release with
      | some number => " on Java release " ++ toString number
      | none => "")

/-- The module that a directory's files belong to; empty for none. -/
def moduleName (directory : SourceDirectory) : String :=
  directory.module.getD ""

end SourceDirectory

end ModulePlan
