/-
Manifests of archives.

A manifest holds attributes, one on each line, as a name, a colon and a value.  A line that
begins with a space goes on with the line before.  The main section ends with the first
blank line.
-/

import ModulePlan.Text.Fields
import ModulePlan.Text.Lines

namespace ModulePlan.Manifest

def unfold : List Char → List Char
  | [] => []
  | '\r' :: '\n' :: ' ' :: rest => unfold rest
  | '\n' :: ' ' :: rest => unfold rest
  | c :: rest => c :: unfold rest

/-- The value of the first attribute of a name in the main section. -/
def lookUp? (name : List Char) : List (List Char) → Option (List Char)
  | [] => none
  | line :: rest =>
    if line.all Text.isBlank then none
    else
      match Text.cutAt? ':' line with
      | some (found, value) =>
        if Text.stripChars found = name then some (Text.stripChars value) else lookUp? name rest
      | none => lookUp? name rest

def attribute? (manifest name : String) : Option String :=
  (lookUp? name.toList (Text.splitLines (unfold manifest.toList))).map String.ofList

end ModulePlan.Manifest
