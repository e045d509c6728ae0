/-
Where a caller says that something is: at a path, or nowhere, where a path was asked for and
something else was given.
-/

import ModulePlan.FilePath

namespace ModulePlan

inductive Location where
  | path (path : FilePath)
  | nowhere
deriving DecidableEq

def Location.path? : Location → Option FilePath
  | .path target => some target
  | .nowhere => none

end ModulePlan
