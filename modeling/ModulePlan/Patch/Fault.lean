/-
What can be wrong with a patch file, where, and how it is told.
-/

import ModulePlan.Patch.Token

namespace ModulePlan.Patch

inductive NameKind where
  | module
  | package
deriving DecidableEq

def NameKind.word : NameKind → String
  | .module => "module"
  | .package => "package"

inductive Problem where
  | commentWithoutEnd
  | expectedWord (word : String)
  | expectedMark (mark : Mark)
  | expectedName (kind : NameKind)
  | invalidName (kind : NameKind)
  | unknownKeyword
  | missingSeparator
  | expectedEnd
deriving DecidableEq

/-- A problem, the text of the token that does not fit (nothing at the end of the file),
and the line of that token. -/
structure Fault where
  problem : Problem
  found : Option String
  line : Nat
deriving DecidableEq

def describeFound : Option String → String
  | some text => "\"" ++ text ++ "\""
  | none => "end of file"

def Problem.describe (problem : Problem) (found : Option String) : String :=
  let shown := describeFound found
  match problem with
  | .commentWithoutEnd => "Unterminated comment"
  | .expectedWord word => "Expected \"" ++ word ++ "\" but found " ++ shown
  | .expectedMark mark => "Expected \"" ++ String.singleton mark.char ++ "\" but found " ++ shown
  | .expectedName kind => "Expected a " ++ kind.word ++ " name but found " ++ shown
  | .invalidName kind => "Invalid " ++ kind.word ++ " name " ++ shown
  | .unknownKeyword => "Unknown keyword " ++ shown
  | .missingSeparator => "Missing ';' or ',' before " ++ shown
  | .expectedEnd => "Expected end of file but found " ++ shown

def Fault.message (fault : Fault) : String :=
  fault.problem.describe fault.found ++ " (line " ++ toString fault.line ++ ")"

end ModulePlan.Patch
