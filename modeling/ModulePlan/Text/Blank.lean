/-
Blank characters, and texts without their blank ends.
-/

import ModulePlan.Text.CodeRange

namespace ModulePlan.Text

/-- White space: tab to carriage return, the four information separators, the space,
and the spaces and separators of the rest of Unicode.  The zero width space and the
byte order mark are not blank. -/
def isBlank (c : Char) : Bool :=
  let code := c.toNat
  (9 ≤ code && code ≤ 13) || (28 ≤ code && code ≤ 32) || code == 0x85 || code == 0xa0 ||
  code == 0x1680 || (0x2000 ≤ code && code ≤ 0x200a) || code == 0x2028 || code == 0x2029 ||
  code == 0x202f || code == 0x205f || code == 0x3000

/-- A text is blank when it holds no other than blank characters; the empty one is. -/
def isBlankText (text : String) : Bool :=
  text.toList.all isBlank

def stripChars (cs : List Char) : List Char :=
  ((cs.dropWhile isBlank).reverse.dropWhile isBlank).reverse

/-- The text without the blank characters at its ends. -/
def strip (text : String) : String :=
  String.ofList (stripChars text.toList)

def lowerAscii (c : Char) : Char :=
  if 'A' ≤ c && c ≤ 'Z' then Char.ofNat (c.toNat + 32) else c

end ModulePlan.Text
