/-
Bytes written in base 64.

Four characters stand for three bytes.  Characters outside the alphabet do not count, and
equals signs fill up the last four.
-/

import ModulePlan.Text.CodeRange

namespace ModulePlan.Document

def base64Value? (c : Char) : Option Nat :=
  if 'A' ≤ c && c ≤ 'Z' then some (c.toNat - 65)
  else if 'a' ≤ c && c ≤ 'z' then some (c.toNat - 71)
  else if Text.isAsciiDigit c then some (c.toNat + 4)
  else if c = '+' then some 62
  else if c = '/' then some 63
  else none

/-- The numbers that are written before the end, which are four or an equals sign that fills
up at least half of the last four.  `count` numbers of the last four have been read, and
`fill` equals signs in a row. -/
def base64Values (count fill : Nat) : List Char → List Nat × Bool
  | [] => ([], false)
  | c :: rest =>
    if c = '=' then
      if 2 ≤ count && 4 ≤ count + fill + 1 then ([], true)
      else base64Values count (if 2 ≤ count then fill + 1 else fill) rest
    else
      match base64Value? c with
      | none => base64Values count fill rest
      | some number =>
        let (numbers, filled) := base64Values ((count + 1) % 4) 0 rest
        (number :: numbers, filled)

def base64Bytes : List Nat → List UInt8
  | a :: b :: c :: d :: rest =>
    (4 * a + b / 16).toUInt8 :: (16 * (b % 16) + c / 4).toUInt8 :: (64 * (c % 4) + d).toUInt8 ::
      base64Bytes rest
  | [a, b, c] => [(4 * a + b / 16).toUInt8, (16 * (b % 16) + c / 4).toUInt8]
  | [a, b] => [(4 * a + b / 16).toUInt8]
  | _ => []

/-- Reads bytes.  The last four characters must be there or be filled up. -/
def base64? (text : List Char) : Option (List UInt8) :=
  let (numbers, filled) := base64Values 0 0 text
  if numbers.length % 4 = 0 || filled then some (base64Bytes numbers) else none

end ModulePlan.Document
