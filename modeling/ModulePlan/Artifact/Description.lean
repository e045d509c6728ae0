/-
Module descriptors of artifacts.

A directory of classes is the module of its compiled declaration.  An archive is the module
of the declaration at its root or, without one, of the declaration for the greatest release;
without either it is the automatic module that its manifest names.  Anything else is no
module.
-/

import ModulePlan.Artifact.Listing
import ModulePlan.Artifact.Manifest
import ModulePlan.Host
import ModulePlan.Text.Digit

namespace ModulePlan.Artifact

def compiledDeclaration : String := "module-info.class"

def manifestEntry : String := "META-INF/MANIFEST.MF"

def automaticNameAttribute : String := "Automatic-Module-Name"

def list (host : Host) (target : String) : Report String :=
  match host.javap with
  | none => .fail (.descriptor (.javapMissing target))
  | some javap => do
    Report.noteTarget target
    let run := javap target
    if run.status ≠ 0 then
      let complaint := Text.strip run.complaint
      let output := Text.strip run.output
      Report.fail (.descriptor (.javapFailed target (if complaint = "" then output else complaint)))
    else return run.output

def describeClass (host : Host) (target : String) : Report ModuleDescriptor := do
  match Listing.descriptor? (← list host target) with
  | some descriptor => return descriptor
  | none => Report.fail (.descriptor (.noDeclaration target))

/-- The digits of the release that a versioned entry is for.  A line feed may end the entry. -/
def releaseDigits? (entry : List Char) : Option (List Char) :=
  let start := "META-INF/versions/".toList
  let digits := (entry.drop start.length).takeWhile fun c => (Text.digitValue? c).isSome
  let rest := entry.drop (start.length + digits.length)
  let ending := '/' :: compiledDeclaration.toList
  if start.isPrefixOf entry && digits ≠ [] && (rest = ending || rest = ending ++ ['\n']) then
    some digits
  else none

/-- Does the first release and entry come before the second? -/
def releaseLt (left right : Nat × String) : Bool :=
  left.1 < right.1 || (left.1 = right.1 && left.2 < right.2)

/-- The versioned declaration for the greatest release, and for one release the last by name.
Numbers of more than 4300 digits are refused. -/
def newestDeclaration (latest : Option (Nat × String)) :
    List String → Except Fault (Option (Nat × String))
  | [] => .ok latest
  | entry :: rest =>
    match releaseDigits? entry.toList with
    | none => newestDeclaration latest rest
    | some digits =>
      if 4300 < digits.length then .error (.value (.tooManyDigits digits.length))
      else
        let candidate := ((Text.decimalNat? digits).getD 0, entry)
        let best := match latest with
          | none => candidate
          | some other => if releaseLt other candidate then candidate else other
        newestDeclaration (some best) rest

def declarationEntry (names : List String) : Except Fault (Option String) :=
  if compiledDeclaration ∈ names then .ok (some compiledDeclaration)
  else do
    let newest ← newestDeclaration none names
    return newest.map Prod.snd

def entryTarget (host : Host) (path : FilePath) (entry : String) : String :=
  "jar:" ++ (path.resolve host.directory).address ++ "!/" ++ entry

def manifest? (entries : List (String × List UInt8)) : Option String :=
  (entries.reverse.lookup manifestEntry).map Text.Utf8.decodeLossy

def describeArchive (host : Host) (path : FilePath) (entries : List (String × List UInt8)) :
    Report (Option ModuleDescriptor) := do
  match ← Report.ofExcept (declarationEntry (entries.map Prod.fst)) with
  | some entry => return some (← describeClass host (entryTarget host path entry))
  | none =>
    match (manifest? entries).bind (Manifest.attribute? · automaticNameAttribute) with
    | none => return none
    | some name =>
      if name = "" then return none
      else
        Report.debug (path.name ++ " is automatic module " ++ name)
        return some { name := name, automatic := true }

def isNamedArchive (path : FilePath) : Bool :=
  let suffix := String.ofList (path.suffix.toList.map Text.lowerAscii)
  suffix = ".jar" || suffix = ".zip"

def describe (host : Host) (path : FilePath) : Report (Option ModuleDescriptor) := do
  match ← Report.ofExcept (host.node? path) with
  | none => .fail (.file (.noArtifact path))
  | some .directory =>
    let declaration := path.join compiledDeclaration
    if ← Report.ofExcept (host.isFile declaration) then
      return some (← describeClass host declaration.toText)
    else return none
  | some (.file (.archive entries)) => describeArchive host path entries
  | some (.file (.bytes _)) =>
    if isNamedArchive path then .fail (.descriptor (.notArchive path)) else return none

end ModulePlan.Artifact
