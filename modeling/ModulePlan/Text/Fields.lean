/-
Texts cut into fields at a separator, and fields joined again.
-/

namespace ModulePlan.Text

/-- The parts of a text between the occurrences of a separator.  There is always one part
more than there are separators. -/
def fields (separator : Char) : List Char → List (List Char)
  | [] => [[]]
  | c :: rest =>
    if c = separator then [] :: fields separator rest
    else
      match fields separator rest with
      | [] => [[c]]
      | field :: others => (c :: field) :: others

def joinFields (separator : String) (parts : List String) : String :=
  separator.intercalate parts

/-- A text up to the first separator and the text after it, if there is one. -/
def cutAt? (separator : Char) : List Char → Option (List Char × List Char)
  | [] => none
  | c :: rest =>
    if c = separator then some ([], rest)
    else (cutAt? separator rest).map fun (before, after) => (c :: before, after)

end ModulePlan.Text
