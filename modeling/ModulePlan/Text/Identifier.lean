/-
Identifiers: a character that may begin one, then any that may continue it.
Currency signs count as the underscore does, so `$` may stand anywhere in one.
-/

import ModulePlan.Text.IdentifierRanges

namespace ModulePlan.Text

def currencySigns : CodeRanges :=
  [(162, 165), (1423, 1423), (1547, 1547), (2046, 2047), (2546, 2547), (2555, 2555), (2801, 2801),
   (3065, 3065), (3647, 3647), (6107, 6107), (8352, 8384), (43064, 43064), (65020, 65020),
   (65129, 65129), (65284, 65284), (65504, 65505), (65509, 65510), (73693, 73696),
   (123647, 123647), (126128, 126128)]

def isIdentifierStart (c : Char) : Bool :=
  if isAscii c then isAsciiLetter c || c == '_' || c == '$'
  else identifierStarts.holds c || currencySigns.holds c

/-- May this character stand in an identifier after the first one? -/
def isIdentifierPart (c : Char) : Bool :=
  isIdentifierStart c ||
    (if isAscii c then isAsciiDigit c else identifierContinuations.holds c)

/-- Identifiers are not empty, begin with a start character and go on with part characters. -/
def isIdentifier : List Char → Bool
  | [] => false
  | c :: rest => isIdentifierStart c && rest.all isIdentifierPart

end ModulePlan.Text
