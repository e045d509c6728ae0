/-
Quoted texts, as they stand in messages.

A quoted text stands in apostrophes, or in double quotes when it holds apostrophes and no
double quote.  The quote in use and the backslash are written after a backslash, line feed,
carriage return and tab as a letter, and any other character without a visible form by its
number in the fewest of two, four or eight hexadecimal digits.
-/

import ModulePlan.Text.Surrogate
import ModulePlan.Text.UnprintableRanges

namespace ModulePlan.Text

def isPrintable (c : Char) : Bool :=
  if isAscii c then 32 ≤ c.toNat && c.toNat < 127 else !unprintables.holds c

def hexDigits (width number : Nat) : List Char :=
  let digits := Nat.toDigits 16 number
  List.replicate (width - digits.length) '0' ++ digits

def quotedChar (quote c : Char) : List Char :=
  if c == quote || c == '\\' then ['\\', c]
  else if c == '\n' then ['\\', 'n']
  else if c == '\r' then ['\\', 'r']
  else if c == '\t' then ['\\', 't']
  else if isPrintable c then [c]
  else if let some half := surrogateHalf? c then '\\' :: 'u' :: hexDigits 4 half
  else if c.toNat < 0x100 then '\\' :: 'x' :: hexDigits 2 c.toNat
  else if c.toNat < 0x10000 then '\\' :: 'u' :: hexDigits 4 c.toNat
  else '\\' :: 'U' :: hexDigits 8 c.toNat

def quoteFor (cs : List Char) : Char :=
  if cs.contains '\'' && !cs.contains '"' then '"' else '\''

/-- A text in quotes, on one line and without invisible characters. -/
def quoted (text : String) : String :=
  let cs := text.toList
  let quote := quoteFor cs
  String.ofList (quote :: cs.flatMap (quotedChar quote) ++ [quote])

def quotedList (texts : List String) : String :=
  "[" ++ ", ".intercalate (texts.map quoted) ++ "]"

end ModulePlan.Text
