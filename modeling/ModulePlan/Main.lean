/-
The program: the files it needs are taken from the disk, the call is performed on them, and
what comes of it is written.  There is no javap program and no resolver of Maven projects,
and a file is its bytes, whatever its name.
-/

import ModulePlan.CommandLine.Session

open ModulePlan

namespace ModulePlan.Program

def namesOf (path : String) : List String :=
  (FilePath.ofText path).placeFrom []

/-- Takes what stands at a path of the disk into a tree, with all below it. -/
partial def collect (tree : FileTree) (text : String) : IO FileTree := do
  match ← (IO.FS.realPath text).toBaseIO with
  | .error _ => return tree
  | .ok path =>
    if ← path.isDir then
      let mut known := tree.put (namesOf text) .directory
      for entry in ← path.readDir do
        known ← collect known (text ++ "/" ++ entry.fileName)
      return known
    else
      let data ← IO.FS.readBinFile text
      return tree.put (namesOf text) (.file (.bytes data.toList))

def take (host : Host) (path : FilePath) : IO Host := do
  let files ← collect host.files (path.resolve host.directory).toText
  return { host with files := files }

/-- The host of a call: the working directory, and what the arguments lead to. -/
def hostOf (arguments : CommandLine.Arguments) : IO Host := do
  let directory := namesOf (← IO.currentDir).toString
  let host : Host := { files := FileTree.put {} directory .directory, directory := directory }
  let locations := [arguments.dependencies, arguments.pom].map (·.bind Location.path?)
  let output := (arguments.output.bind Location.path?).map (·.parent)
  let named := some arguments.project :: output :: locations
  let host ← (named.filterMap id).foldlM take host
  let artifacts := (arguments.request.artifacts host).filter fun path =>
    match host.has path with
    | .ok found => !found
    | .error _ => false
  artifacts.foldlM take host

def put (delivery : CommandLine.Delivery) : IO Unit :=
  match delivery.file with
  | none => IO.print delivery.text
  | some path => IO.FS.writeFile path.toText delivery.text

def usage : String :=
  "usage: modpatch [-h] [--test] [--runtime] [--deps DEPS] [--pom POM] " ++
    "[--format \x7bargs,yaml\x7d] [-o OUTPUT] [-v] project_dir"

def finish (session : CommandLine.Session) : IO Unit := do
  for note in session.trace.notes.filter (·.isShown session.verbose) do
    IO.eprintln note.text
  match session.outcome with
  | .ended .help => IO.println usage
  | .ended .usage => IO.eprintln usage
  | .delivered delivery => put delivery
  | .failed => return ()
  | .aborted fault => IO.eprintln fault.message

end ModulePlan.Program

def main (words : List String) : IO UInt32 := do
  let host ←
    match CommandLine.read words with
    | .ok arguments => Program.hostOf arguments
    | .error _ => pure {}
  let session := CommandLine.call host words
  Program.finish session
  return session.status.toUInt32
