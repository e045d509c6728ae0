/-
Sets of characters, given as ascending lists of inclusive code point ranges.

The tables of the other text modules are values of this type.  Each of them covers
the characters from U+0080 upward; the rules for ASCII are stated in words where the
table is used, so that a fact about an ASCII character never reads a table.
-/

namespace ModulePlan.Text

abbrev CodeRanges := List (Nat × Nat)

def CodeRanges.holds (ranges : CodeRanges) (c : Char) : Bool :=
  ranges.any fun range => range.1 ≤ c.toNat && c.toNat ≤ range.2

def isAscii (c : Char) : Bool :=
  c.toNat < 128

def isAsciiDigit (c : Char) : Bool :=
  '0' ≤ c && c ≤ '9'

def isAsciiLetter (c : Char) : Bool :=
  ('a' ≤ c && c ≤ 'z') || ('A' ≤ c && c ≤ 'Z')

end ModulePlan.Text
