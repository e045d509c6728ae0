/-
Lines of a text.
-/

import ModulePlan.Text.Blank

namespace ModulePlan.Text

/-- The characters that end a line: line feed, vertical tab, form feed, carriage return,
three of the information separators, next line, and the line and paragraph separators. -/
def isLineEnd (c : Char) : Bool :=
  let code := c.toNat
  (10 ≤ code && code ≤ 13) || (28 ≤ code && code ≤ 30) || code == 0x85 ||
  code == 0x2028 || code == 0x2029

/-- Splits a text at its line ends, of which carriage return and line feed together are one.
A line end at the very end begins no further line. -/
def splitLines : List Char → List (List Char)
  | [] => []
  | '\r' :: '\n' :: rest => [] :: splitLines rest
  | c :: rest =>
    if isLineEnd c then [] :: splitLines rest
    else
      match splitLines rest with
      | [] => [[c]]
      | line :: lines => (c :: line) :: lines

/-- The characters behind those already seen, which are given with the last one first.  Every
carriage return, alone or before a line feed, becomes a line feed. -/
def unifyFrom (seen : List Char) : List Char → List Char
  | [] => seen.reverse
  | '\r' :: '\n' :: rest => unifyFrom ('\n' :: seen) rest
  | c :: rest => unifyFrom ((if c = '\r' then '\n' else c) :: seen) rest

/-- Every carriage return, alone or before a line feed, becomes a line feed. -/
def unifyLineEnds (cs : List Char) : List Char :=
  unifyFrom [] cs

end ModulePlan.Text
