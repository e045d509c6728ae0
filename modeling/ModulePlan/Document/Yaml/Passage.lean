/-
Passages of YAML documents: characters with the places where they stand.

A passage ends with the text, or where the text cannot be read any further.  Lines end with a
line feed, a next line character, or a line or paragraph separator.  A character is looked at
only where a reader needs it, so that a reader that does not come to the end of what can be
read does not see why it ends there.
-/

import ModulePlan.Document.Refusal
import ModulePlan.Text.CodeRange

namespace ModulePlan.Document.Yaml

/-! ### Classes of characters -/

def endMark : Char := '\x00'

def byteOrderMark : Char := '\ufeff'

def isReadable (c : Char) : Bool :=
  let code := c.toNat
  code = 9 || code = 10 || code = 13 || (32 ≤ code && code ≤ 126) || code = 0x85 ||
  (0xa0 ≤ code && code ≤ 0xfffd) || 0x10000 ≤ code

def isBreak (c : Char) : Bool :=
  c = '\n' || c.toNat = 0x85 || c.toNat = 0x2028 || c.toNat = 0x2029

def isBreakOrEnd (c : Char) : Bool :=
  isBreak c || c = endMark

def isSpacing (c : Char) : Bool :=
  c = ' ' || c = '\t'

def isSpaceOrEnd (c : Char) : Bool :=
  c = ' ' || isBreakOrEnd c

def isGap (c : Char) : Bool :=
  isSpacing c || isBreakOrEnd c

def breakValue (c : Char) : Char :=
  if c.toNat = 0x85 then '\n' else c

def isNameChar (c : Char) : Bool :=
  Text.isAsciiLetter c || Text.isAsciiDigit c || c = '-' || c = '_'

/-! ### Passages -/

/-- How many characters and lines stand before a place, and its column in its line. -/
structure Place where
  index : Nat := 0
  line : Nat := 0
  column : Nat := 0

/-- The place behind a character.  A byte order mark takes no column. -/
def Place.after (place : Place) (c : Char) : Place :=
  if isBreak c then ⟨place.index + 1, place.line + 1, 0⟩
  else if c = byteOrderMark then { place with index := place.index + 1 }
  else { place with index := place.index + 1, column := place.column + 1 }

structure Spot where
  char : Char
  place : Place

/-- The characters from a place on, each with the number of them that are left with it, and
how they end. -/
inductive Passage where
  | more (spot : Spot) (left : Nat) (rest : Passage)
  | ended (place : Place)
  | blocked (refusal : Refusal)

namespace Passage

/-- The characters of a text with their places, the last one first, put before `done`. -/
def spots (place : Place) (done : List Spot) : List Char → List Spot
  | [] => done
  | c :: rest => spots (place.after c) (⟨c, place⟩ :: done) rest

/-- The passage of some characters, the last one first, before another passage of which
`left` characters are left. -/
def prepend (left : Nat) (rest : Passage) : List Spot → Passage
  | [] => rest
  | spot :: before => prepend (left + 1) (.more spot (left + 1) rest) before

def ofText (text : List Char) : Passage :=
  let spots := spots {} [] text
  let last := (spots.head?.map fun spot => spot.place.after spot.char).getD {}
  prepend 0 (.ended last) spots

def ofBlocked (text : List Char) (refusal : Refusal) : Passage :=
  prepend 0 (.blocked refusal) (spots {} [] text)

def left : Passage → Nat
  | .more _ left _ => left
  | _ => 0

/-- The next character.  Where the text cannot be read any further, the reading ends. -/
def next : Passage → Except Refusal Char
  | .more spot _ _ => .ok spot.char
  | .ended _ => .ok endMark
  | .blocked refusal => .error refusal

def behind : Passage → Passage
  | .more _ _ rest => rest
  | passage => passage

def place : Passage → Place
  | .more spot _ _ => spot.place
  | .ended place => place
  | .blocked _ => {}

def column (passage : Passage) : Nat :=
  passage.place.column

def pass : Nat → Passage → Except Refusal Passage
  | 0, passage => do
    let _ ← passage.next
    return passage
  | count + 1, passage => pass count passage.behind

/-- The longest run of characters of a class behind those already found, which are given with
the last one first. -/
def runFrom (isIn : Char → Bool) (found : List Char) : Passage →
    Except Refusal (List Char × Passage)
  | .more spot left rest =>
    if isIn spot.char then runFrom isIn (spot.char :: found) rest
    else .ok (found.reverse, .more spot left rest)
  | .ended place => .ok (found.reverse, .ended place)
  | .blocked refusal => .error refusal

def run (isIn : Char → Bool) (passage : Passage) : Except Refusal (List Char × Passage) :=
  passage.runFrom isIn []

def skip (isIn : Char → Bool) : Passage → Except Refusal Passage
  | .more spot left rest =>
    if isIn spot.char then skip isIn rest else .ok (.more spot left rest)
  | .ended place => .ok (.ended place)
  | .blocked refusal => .error refusal

/-- Do three characters stand here that begin or end a document?  All three are looked at. -/
def isBoundary (passage : Passage) : Except Refusal Bool := do
  let first ← passage.next
  let second ← passage.behind.next
  let third ← passage.behind.behind.next
  if (first = '-' || first = '.') && second = first && third = first then
    return isGap (← passage.behind.behind.behind.next)
  else return false

def skipComment (passage : Passage) : Except Refusal Passage := do
  if (← passage.next) = '#' then passage.skip (!isBreakOrEnd ·) else return passage

/-- The next line, where no more than spaces and a comment are left of this one. -/
def restOfLine (passage : Passage) : Except Refusal Passage := do
  let rest ← (← passage.skip (· = ' ')).skipComment
  let c ← rest.next
  if isBreak c then rest.pass 1
  else if c = endMark then return rest
  else .error .malformed

end Passage

end ModulePlan.Document.Yaml
