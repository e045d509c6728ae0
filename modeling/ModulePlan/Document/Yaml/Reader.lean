/-
Reading YAML documents.

A file holds at most one document; a file without one is read as null.
-/

import ModulePlan.Document.Yaml.Construction
import ModulePlan.Document.Yaml.Portion

namespace ModulePlan.Document.Yaml

def read (data : List UInt8) : Except Refusal Graph := do
  let (nodes, root) ← Node.ofTokens (.ofPassage (.ofBytes data))
  match root with
  | some number => Construction.graph nodes number
  | none => return .ofValue .null

end ModulePlan.Document.Yaml
