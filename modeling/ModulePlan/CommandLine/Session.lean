/-
What a call of the command line comes to.

The plan of a project is delivered as an argument file or as a document, to the standard
output or to a file.  Faults that are told to the user become the last line of the log.
-/

import ModulePlan.ArgumentFile
import ModulePlan.CommandLine.Arguments
import ModulePlan.PlanDocument
import ModulePlan.ProjectPlan

namespace ModulePlan

/-- Can a file be written at a path?  It may be there or not, but its directory must be. -/
def Host.checkWritable (host : Host) (path : FilePath) : Except Fault Unit :=
  match Host.namingFault? path with
  | some fault => .error fault
  | none =>
    match host.files.find host.directory path with
    | .ok (_, .file _) => .ok ()
    | .ok (_, .directory) => .error (.file (.isDirectory path))
    | .error .notDirectory => .error (.file (.notDirectory path))
    | .error .tooLong => .error (.file (.nameTooLong path))
    | .error .missing => do
      if ← host.isDirectory path.parent then return () else .error (.file (.missing path))

namespace CommandLine

structure Delivery where
  format : Format
  plan : Plan
  file : Option FilePath

def Delivery.text (delivery : Delivery) : String :=
  match delivery.format with
  | .arguments => ArgumentFile.write delivery.plan.options
  | .document => Document.Yaml.write delivery.plan.outline

/-- The names that lead from the working directory to the file that a delivery newly makes
there; nothing if the file is there already or is made elsewhere. -/
def Delivery.newFile? (delivery : Delivery) (host : Host) : Option (List String) := do
  let path ← delivery.file
  let place := path.placeFrom host.directory
  match host.has path with
  | .ok false =>
    if host.directory.isPrefixOf place then some (place.drop host.directory.length) else none
  | _ => none

def Arguments.request (arguments : Arguments) : ProjectRequest where
  project := arguments.project
  test := if arguments.test then some true else none
  runtime := arguments.runtime
  dependencies := arguments.dependencies
  pom := arguments.pom

def nowhereFault : Format → KindFault
  | .arguments => .listingNowhere
  | .document => .projectNowhere

/-- A text with half a surrogate pair has no encoding. -/
def checkEncodable (text : String) : Except Fault Unit :=
  if text.toList.any fun c => (Text.surrogateHalf? c).isSome then .error .unencodable else .ok ()

def deliver (host : Host) (arguments : Arguments) : Report Delivery := do
  let plan ← arguments.request.plan host
  match arguments.output with
  | none => return ⟨arguments.format, plan, none⟩
  | some .nowhere => .fail (.kind (nowhereFault arguments.format))
  | some (.path path) =>
    let delivery : Delivery := ⟨arguments.format, plan, some path⟩
    Report.ofExcept (host.checkWritable path)
    Report.ofExcept (checkEncodable delivery.text)
    Report.tell .info ("Generated " ++ path.toText)
    return delivery

/-- What a call comes to: help or a complaint about its use, a delivery, a failure that was
told, or a fault that ends the program. -/
inductive Outcome where
  | ended (ending : Ending)
  | delivered (delivery : Delivery)
  | failed
  | aborted (fault : Fault)

structure Session where
  verbose : Bool := false
  trace : Trace := {}
  outcome : Outcome

def Session.status (session : Session) : Nat :=
  match session.outcome with
  | .ended ending => ending.status
  | .delivered _ => 0
  | .failed | .aborted _ => 1

def Session.log (session : Session) : List String :=
  session.trace.lines session.verbose

def perform (host : Host) (arguments : Arguments) : Session :=
  let report := deliver host arguments
  match report.result with
  | .ok delivery => ⟨arguments.verbose, report.trace, .delivered delivery⟩
  | .error fault =>
    if fault.isTold then
      let told : Trace := { notes := [⟨.error, fault.message⟩] }
      ⟨arguments.verbose, report.trace.append told, .failed⟩
    else ⟨arguments.verbose, report.trace, .aborted fault⟩

def call (host : Host) (words : List String) : Session :=
  match read words with
  | .ok arguments => perform host arguments
  | .error ending => { outcome := .ended ending }

end CommandLine

end ModulePlan
