/-
Source files grouped by release, and within a release by module.

Each file goes to the group of its directory's release, where files without a release have
release zero.  A group keeps its files in order, and for each module the roots that gave it
files.  Files of one directory come in long runs, so a group looks at a directory only when
it differs from the one before.
-/

import ModulePlan.DistinctList
import ModulePlan.KeyedList
import ModulePlan.Source.Discovery

namespace ModulePlan

def noRelease : Int := 0

/-- The files of one release.  `directories` holds for each root the first directory with it,
and `latest` the index of the directory of the latest file. -/
structure ReleaseGroup where
  release : Int
  files : List FilePath := []
  roots : KeyedList String (DistinctList FilePath) := .empty
  directories : KeyedList FilePath SourceDirectory := .empty
  latest : Option Nat := none
deriving DecidableEq

namespace ReleaseGroup

/-- Takes note of a directory: its root among those of its module, and the directory itself
unless there is one with its root. -/
def noteDirectory (group : ReleaseGroup) (directory : SourceDirectory) : ReleaseGroup :=
  { group with
    roots := group.roots.alter directory.moduleName fun present =>
      (present.getD .empty).insert directory.root
    directories := group.directories.insertNew directory.root directory }

def add {directories : List SourceDirectory} (group : ReleaseGroup)
    (source : SourceFile directories) : ReleaseGroup :=
  let noted :=
    if group.latest = some source.index.val then group
    else { group.noteDirectory source.directory with latest := some source.index.val }
  { noted with files := group.files ++ [source.file] }

/-- The output directory of each module: that of the first directory known for the module. -/
def outputs (group : ReleaseGroup) : KeyedList String FilePath :=
  group.directories.values.foldl
    (fun outputs directory => outputs.insertNew directory.moduleName directory.output) .empty

def describe (group : ReleaseGroup) : String :=
  "SourcesForRelease(release=" ++ toString group.release ++ ", modules=" ++
    Text.quotedList group.roots.keys ++ ", files=" ++ toString group.files.length ++ ")"

end ReleaseGroup

def SourceFile.release {directories : List SourceDirectory} (source : SourceFile directories) :
    Int :=
  source.directory.release.getD noRelease

def addToGroup {directories : List SourceDirectory} (groups : KeyedList Int ReleaseGroup)
    (source : SourceFile directories) : KeyedList Int ReleaseGroup :=
  groups.alter source.release fun present =>
    (present.getD { release := source.release }).add source

/-- The groups of the releases of some source files, the least release first. -/
def groupByRelease {directories : List SourceDirectory}
    (sources : List (SourceFile directories)) : List ReleaseGroup :=
  let groups := sources.foldl addToGroup .empty
  (groups.entries.mergeSort fun left right => left.1 ≤ right.1).map Prod.snd

def describeReleases (groups : List ReleaseGroup) : String :=
  "[" ++ ", ".intercalate (groups.map fun group => toString group.release) ++ "]"

end ModulePlan
