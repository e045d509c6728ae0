/-
What the program is given of the world: files, the working directory, the javap program, a
resolver of Maven projects and a parser of source files.
-/

import ModulePlan.FileTree
import ModulePlan.JavaSource
import ModulePlan.Report
import ModulePlan.Text.Lines
import ModulePlan.Text.Utf8

namespace ModulePlan

/-- What one run of javap leaves: its status, its output and its complaints. -/
structure JavapRun where
  status : Int
  output : String
  complaint : String

inductive ResolverFault where
  | system (text : String)
  | value (text : String)
  | key (text : String)
  | kind (text : String)

/-- The reason a resolver gives; a key that is not found is quoted. -/
def ResolverFault.reason : ResolverFault → String
  | .system text | .value text | .kind text => text
  | .key text => Text.quoted text

/-- A dependency of a Maven project and the file that its artifact resolves to. -/
structure MavenDependency where
  group : String
  artifact : String
  scope : Document.Value
  file : Except ResolverFault String

structure MavenModel where
  fault : Option ResolverFault := none
  dependencies : List MavenDependency := []

structure Host where
  files : FileTree := {}
  directory : List String := []
  javap : Option (String → JavapRun) := none
  maven : Option MavenModel := none
  /-- The children of the root of a source file's syntax tree. -/
  parseSource : List UInt8 → List SyntaxNode := JavaSource.parse

namespace Host

/-- Has half a surrogate pair no byte of its own in a file name? -/
def isUnnamable (c : Char) : Bool :=
  (Text.surrogateHalf? c).any fun half => half < 0xdc80 || 0xdcff < half

/-- Why no file can have the name that a path ends in: it holds half a surrogate pair or the
null character. -/
def namingFault? (path : FilePath) : Option Fault :=
  let text := path.toText.toList
  if text.any isUnnamable then some .unencodable
  else if text.contains '\x00' then some (.value .nullCharacter)
  else none

/-- What a path leads to, if it leads to something.  A path that is too long is refused. -/
def node? (host : Host) (path : FilePath) : Except Fault (Option Node) :=
  if (namingFault? path).isSome then .ok none
  else
    match host.files.find host.directory path with
    | .ok (_, node) => .ok (some node)
    | .error .tooLong => .error (.file (.nameTooLong path))
    | .error _ => .ok none

def has (host : Host) (path : FilePath) : Except Fault Bool := do
  return (← host.node? path).isSome

def isDirectory (host : Host) (path : FilePath) : Except Fault Bool := do
  match ← host.node? path with
  | some .directory => return true
  | _ => return false

def isFile (host : Host) (path : FilePath) : Except Fault Bool := do
  match ← host.node? path with
  | some (.file _) => return true
  | _ => return false

def read (host : Host) (path : FilePath) : Except Fault Content :=
  match namingFault? path with
  | some fault => .error fault
  | none =>
    match host.files.find host.directory path with
    | .ok (_, .file content) => .ok content
    | .ok (_, .directory) => .error (.file (.isDirectory path))
    | .error .missing => .error (.file (.missing path))
    | .error .notDirectory => .error (.file (.notDirectory path))
    | .error .tooLong => .error (.file (.nameTooLong path))

/-- The bytes of a file.  An archive is none that can be read. -/
def readBytes (host : Host) (path : FilePath) : Except Fault (List UInt8) := do
  match ← host.read path with
  | .bytes data => return data
  | .archive _ => .error .undecodable

def readText (host : Host) (path : FilePath) : Except Fault String := do
  match Text.Utf8.decode? (← host.readBytes path) with
  | some text => return text
  | none => .error .undecodable

def readLines (host : Host) (path : FilePath) : Except Fault String := do
  let text ← host.readText path
  return String.ofList (Text.unifyLineEnds text.toList)

end Host

end ModulePlan
