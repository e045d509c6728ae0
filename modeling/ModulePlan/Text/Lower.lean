/-
Texts in small letters.

The capital sigma becomes a final sigma at the end of a word of more than one letter, and the
capital I with a dot becomes two characters; any other capital letter becomes one small letter.
-/

import ModulePlan.Text.Blank
import ModulePlan.Text.CaseRanges

namespace ModulePlan.Text

/-- Is a character skipped where the letters beside another one are looked for? -/
def isCaseIgnorable (c : Char) : Bool :=
  if isAscii c then ['\'', '.', ':', '^', '\x60'].contains c else caseIgnorables.holds c

def isCased (c : Char) : Bool :=
  if isAscii c then isAsciiLetter c else casedLetters.holds c

/-- The small letter of a character outside ASCII, which is the character itself if it has
none. -/
def smallLetter (c : Char) : Char :=
  let fits := fun ((first, last, step, _) : Nat × Nat × Nat × Int) =>
    first ≤ c.toNat && c.toNat ≤ last && (c.toNat - first) % step = 0
  match capitals.find? fits with
  | some (_, _, _, distance) => Char.ofNat (c.toNat + distance).toNat
  | none => c

def beginsCased (text : List Char) : Bool :=
  (text.find? (!isCaseIgnorable ·)).any isCased

/-- A character in small letters, given whether a letter with case stands before it, and the
text behind it. -/
def lowerChar (afterCased : Bool) (c : Char) (rest : List Char) : List Char :=
  if isAscii c then [lowerAscii c]
  else if c = 'Σ' then [if afterCased && !beginsCased rest then 'ς' else 'σ']
  else if c = 'İ' then ['i', '\u0307']
  else [smallLetter c]

/-- A text in small letters, behind what is already written with the last character first. -/
def lowerFrom (afterCased : Bool) (done : List Char) : List Char → List Char
  | [] => done.reverse
  | c :: rest =>
    lowerFrom (if isCaseIgnorable c then afterCased else isCased c)
      ((lowerChar afterCased c rest).reverse ++ done) rest

def lower (text : List Char) : List Char :=
  lowerFrom false [] text

end ModulePlan.Text
