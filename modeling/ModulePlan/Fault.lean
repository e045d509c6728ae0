/-
What can go wrong, by cause, and how it is told.

The faults fall into those of patch files, of configurations and listings, of module
descriptors and of the file system, which are told to the user, and those that stop the
program because a value is not of the kind that is worked with.
-/

import ModulePlan.Dependency
import ModulePlan.Document.Value
import ModulePlan.FilePath
import ModulePlan.Patch.Fault

namespace ModulePlan

/-- What is wrong with a configuration, a listing of dependencies or their resolution.
`source` is the text by which the document is known. -/
inductive SettingFault where
  | malformed (path : FilePath)
  | notTable (source : String)
  | invalidValue (source key shown : String)
  | sourceWithoutRoot (source : String)
  | notMapping (source : String)
  | dependenciesNotList (source : String)
  | dependencyWithoutPath (source : String) (number : Nat)
  | unknownScope (source scope : String)
  | requiresNotList (source coordinates : String)
  | resolverMissing
  | unresolved (project : FilePath) (reason : String)

namespace SettingFault

def message : SettingFault → String
  | .malformed path => "Could not parse " ++ path.toText
  | .notTable source => source ++ ": modpatch configuration must be a table"
  | .invalidValue source key shown =>
    source ++ ": '" ++ key ++ "' has an invalid value " ++ shown
  | .sourceWithoutRoot source => source ++ ": source entry without 'root'"
  | .notMapping source => source ++ ": expected a mapping at top level"
  | .dependenciesNotList source => source ++ ": 'dependencies' must be a list"
  | .dependencyWithoutPath source number =>
    source ++ ": dependency #" ++ toString number ++ " has no 'path'"
  | .unknownScope source scope => source ++ ": " ++ unknownScopeMessage scope
  | .requiresNotList source coordinates =>
    source ++ ": 'requires' of " ++ coordinates ++ " must be a list"
  | .resolverMissing =>
    "jgo is not installed, cannot resolve Maven dependencies. " ++
      "Install with: pip install modpatch[maven]"
  | .unresolved project reason =>
    "Could not resolve dependencies of " ++ project.toText ++ ": " ++ reason

end SettingFault

inductive DescriptorFault where
  | javapMissing (target : String)
  | javapFailed (target complaint : String)
  | noDeclaration (target : String)
  | notArchive (path : FilePath)

def DescriptorFault.message : DescriptorFault → String
  | .javapMissing target =>
    "javap not found on PATH, cannot read the module descriptor of " ++ target ++
      ". Ensure a JDK is installed."
  | .javapFailed target complaint => "javap failed for " ++ target ++ ": " ++ complaint
  | .noDeclaration target => "No module declaration in " ++ target
  | .notArchive path => "Not a valid jar file: " ++ path.toText

inductive FileFault where
  | noArtifact (path : FilePath)
  | noProject (path : FilePath)
  | missing (path : FilePath)
  | isDirectory (path : FilePath)
  | notDirectory (path : FilePath)
  | nameTooLong (path : FilePath)
  | resolver (reason : String)

def FileFault.message : FileFault → String
  | .noArtifact path => "No such artifact: " ++ path.toText
  | .noProject path => "No such POM: " ++ path.toText
  | .missing path => "[Errno 2] No such file or directory: " ++ Text.quoted path.toText
  | .isDirectory path => "[Errno 21] Is a directory: " ++ Text.quoted path.toText
  | .notDirectory path => "[Errno 20] Not a directory: " ++ Text.quoted path.toText
  | .nameTooLong path => "[Errno 36] File name too long: " ++ Text.quoted path.toText
  | .resolver reason => reason

inductive ValueFault where
  | unknownScope (text : String)
  | nullCharacter
  | calendar (problem : Document.CalendarProblem)
  | tooManyDigits (count : Nat)
  | longNumber
  | notWhole (base : Nat) (digits : String)
  | notFloat (text : String)
  | noCharacter

/-- How much is shown of a text that is no whole number, with its quotes. -/
def shownDigits : Nat := 200

def ValueFault.message : ValueFault → String
  | .unknownScope text => unknownScopeMessage text
  | .nullCharacter => "embedded null byte"
  | .calendar problem => problem.message
  | .tooManyDigits count =>
    "Exceeds the limit (4300 digits) for integer string conversion: value has " ++
      toString count ++ " digits; use sys.set_int_max_str_digits() to increase the limit"
  | .longNumber =>
    "Exceeds the limit (4300 digits) for integer string conversion; " ++
      "use sys.set_int_max_str_digits() to increase the limit"
  | .notWhole base digits =>
    "invalid literal for int() with base " ++ toString base ++ ": " ++
      String.ofList ((Text.quoted digits).toList.take shownDigits)
  | .notFloat text => "could not convert string to float: " ++ Text.quoted text
  | .noCharacter => "chr() arg not in range(0x110000)"

/-- A value of the wrong kind where no kind is checked. -/
inductive KindFault where
  | scopeNotText
  | scopeOfBytes
  | toolNotTable
  | notDate
  | patternNotText
  | resolver
  | notTruthValue
  | emptyNumber
  | numberTooLarge
  | dateOfMapping
  | tooDeep
  /-- A listing, or the place of an argument file, that is no path. -/
  | listingNowhere
  /-- A project file, or the place of a document, that is no path. -/
  | projectNowhere

inductive Fault where
  | patch (path : Option FilePath) (fault : Patch.Fault)
  | setting (fault : SettingFault)
  | descriptor (fault : DescriptorFault)
  | file (fault : FileFault)
  | value (fault : ValueFault)
  | kind (fault : KindFault)
  | undecodable
  | unencodable

namespace Fault

/-- The text of a fault.  A fault in a patch file names the file where it is known. -/
def message : Fault → String
  | .patch none fault => fault.message
  | .patch (some path) fault => path.toText ++ ": " ++ fault.message
  | .setting fault => fault.message
  | .descriptor fault => fault.message
  | .file fault => fault.message
  | .value fault => fault.message
  | .kind _ => "value of an unexpected kind"
  | .undecodable => "bytes that are not UTF-8"
  | .unencodable => "text without an encoding in UTF-8"

/-- Is this fault told to the user of the command line, rather than ending the program? -/
def isTold : Fault → Bool
  | .patch .. | .setting _ | .descriptor _ | .file _ => true
  | .value _ | .kind _ | .undecodable | .unencodable => false

def ofWriting : Document.WritingProblem → Fault
  | .tooManyDigits => .value .longNumber
  | .tooDeep => .kind .tooDeep

/-- The text of a value, or the fault of one that is not written. -/
def written (writing : Document.Writing) : Except Fault String :=
  writing.mapError ofWriting

end Fault

end ModulePlan
