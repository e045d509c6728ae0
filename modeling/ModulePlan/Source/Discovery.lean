/-
Finding the source files of directories.

The files of a directory are those below its root, at any depth, whose names end as its kind
asks for and whose paths below the root fit no exclude pattern.  They come in the order of
their paths, directory after directory.
-/

import ModulePlan.Host
import ModulePlan.Source.Directory
import ModulePlan.Source.Glob

namespace ModulePlan

structure SourceFile (directories : List SourceDirectory) where
  file : FilePath
  index : Fin directories.length
deriving DecidableEq

namespace SourceFile

def directory {directories : List SourceDirectory} (source : SourceFile directories) :
    SourceDirectory :=
  directories[source.index]

end SourceFile

/-- The directories of those roots that exist, for no module and no release. -/
def SourceDirectory.ofExisting (host : Host) (output : FilePath) :
    List FilePath → Except Fault (List SourceDirectory)
  | [] => .ok []
  | root :: rest => do
    let found ← host.has root
    let others ← ofExisting host output rest
    return if found then .create root output none none .source :: others else others

namespace Discovery

/-- Does a path fit one of the patterns?  They are tried in order, and one that is no text is
refused when it is tried. -/
def isExcluded (path : String) : List Document.Value → Except Fault Bool
  | [] => .ok false
  | .text pattern :: rest => if Glob.accepts pattern path then .ok true else isExcluded path rest
  | _ :: _ => .error (.kind .patternNotText)

def dropExcluded (excludes : List Document.Value) :
    List (List String) → Except Fault (List (List String))
  | [] => .ok []
  | names :: rest => do
    let excluded ← isExcluded (Text.joinFields "/" names) excludes
    let kept ← dropExcluded excludes rest
    return if excluded then kept else names :: kept

def hasSuffix (suffix : String) (names : List String) : Bool :=
  suffix.toList.isSuffixOf (names.getLastD "").toList

def filesOf (host : Host) (directory : SourceDirectory) (excludes : List Document.Value) :
    Report (List FilePath) := do
  let isThere ← Report.ofExcept (host.isDirectory directory.root)
  match isThere, host.files.find host.directory directory.root with
  | true, .ok (place, _) =>
    let eligible := (host.files.filesBelow place).filter (hasSuffix directory.kind.suffix)
    let kept ← Report.ofExcept (dropExcluded excludes eligible)
    Report.debug (directory.describe ++ ": " ++ toString kept.length ++ " source files")
    return kept.map fun names => ⟨directory.root.root, directory.root.names ++ names⟩
  | _, _ =>
    Report.debug ("Skipping missing source root " ++ directory.root.toText)
    return []

def sourcesAt (host : Host) (excludes : List Document.Value)
    {directories : List SourceDirectory} :
    List (Fin directories.length) → Report (List (SourceFile directories))
  | [] => return []
  | index :: rest => do
    let files ← filesOf host directories[index] excludes
    let others ← sourcesAt host excludes rest
    return files.map (⟨·, index⟩) ++ others

def sources (host : Host) (directories : List SourceDirectory)
    (excludes : List Document.Value) : Report (List (SourceFile directories)) :=
  sourcesAt host excludes (List.finRange directories.length)

end Discovery

end ModulePlan
