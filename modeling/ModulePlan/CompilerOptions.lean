/-
Options for the compiler: pairs of an option and its value, in the order of addition.
An option without a value worth writing is left out.
-/

import ModulePlan.Text.Blank
import ModulePlan.Text.Quoted

namespace ModulePlan

structure CompilerOptions where
  pairs : List (String × String) := []
deriving DecidableEq, Inhabited

namespace CompilerOptions

/-- A value is worth writing when it is there and not blank. -/
def isWorthWriting : Option String → Bool
  | none => false
  | some value => !Text.isBlankText value

def add (options : CompilerOptions) (option : String) (value : Option String) :
    CompilerOptions :=
  match value with
  | none => options
  | some text =>
    if Text.isBlankText text then options else ⟨options.pairs ++ [(option, text)]⟩

def addAll (options : CompilerOptions) (offered : List (String × String)) : CompilerOptions :=
  offered.foldl (fun added pair => added.add pair.1 (some pair.2)) options

def values (options : CompilerOptions) (option : String) : List String :=
  (options.pairs.filter (·.1 = option)).map Prod.snd

def arguments (options : CompilerOptions) : List String :=
  options.pairs.flatMap fun (option, value) => [option, value]

def describe (options : CompilerOptions) : String :=
  let shown := options.pairs.map fun (option, value) =>
    "(" ++ Text.quoted option ++ ", " ++ Text.quoted value ++ ")"
  "Options([" ++ ", ".intercalate shown ++ "])"

end CompilerOptions

end ModulePlan
