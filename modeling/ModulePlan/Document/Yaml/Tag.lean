/-
Tags of YAML nodes, and the tags that plain scalars have by their form.
-/

import ModulePlan.Document.Yaml.Passage
import ModulePlan.Text.Digit
import ModulePlan.Text.Fields

namespace ModulePlan.Document.Yaml

inductive Tag where
  | null
  | bool
  | int
  | float
  | text
  | timestamp
  | binary
  | sequence
  | mapping
  | set
  | orderedPairs
  | pairs
  | merge
  | value
  | unknown
deriving DecidableEq

def standardLeader : String := "tag:yaml.org,2002:"

def Tag.ofText (text : String) : Tag :=
  let known := [("null", Tag.null), ("bool", .bool), ("int", .int), ("float", .float),
    ("str", .text), ("timestamp", .timestamp), ("binary", .binary), ("seq", .sequence),
    ("map", .mapping), ("set", .set), ("omap", .orderedPairs), ("pairs", .pairs)]
  ((known.find? fun entry => standardLeader ++ entry.1 = text).map (·.2)).getD
    (if text = standardLeader ++ "merge" then .merge
     else if text = standardLeader ++ "value" then .value
     else .unknown)

open Text (isAsciiDigit isHexDigit)

def truthWords : List (String × Bool) :=
  [("yes", true), ("no", false), ("true", true), ("false", false), ("on", true), ("off", false)]

/-- Is a text a word in small letters, in capitals, or with one capital at its beginning? -/
def isWord (word : String) (text : List Char) : Bool :=
  let small := word.toList
  text = small || text = small.map Char.toUpper ||
    text = (small.take 1).map Char.toUpper ++ small.drop 1

def dropSign : List Char → List Char
  | [] => []
  | c :: rest => if c = '+' || c = '-' then rest else c :: rest

/-- Digits of some kind and underscores, but at least one of them. -/
def areDigits (isDigit : Char → Bool) (text : List Char) : Bool :=
  text ≠ [] && text.all fun c => isDigit c || c = '_'

def beginsWithDigit (isDigit : Char → Bool) (text : List Char) : Bool :=
  text.head?.any isDigit && (text.drop 1).all fun c => isAsciiDigit c || c = '_'

def isSixtieth (text : List Char) : Bool :=
  match text with
  | [c] => isAsciiDigit c
  | [c, d] => '0' ≤ c && c ≤ '5' && isAsciiDigit d
  | _ => false

def isNonzeroDigit (c : Char) : Bool :=
  '1' ≤ c && c ≤ '9'

/-- Is this a whole number: binary, octal, decimal, hexadecimal or in base sixty? -/
def isWhole (text : List Char) : Bool :=
  match dropSign text with
  | ['0'] => true
  | '0' :: 'b' :: digits => areDigits (fun c => c = '0' || c = '1') digits
  | '0' :: 'x' :: digits => areDigits isHexDigit digits
  | '0' :: digits => areDigits (fun c => '0' ≤ c && c ≤ '7') digits
  | digits =>
    match Text.fields ':' digits with
    | [] => false
    | first :: others => beginsWithDigit isNonzeroDigit first && others.all isSixtieth

def isExponent (text : List Char) : Bool :=
  match text with
  | [] => true
  | c :: d :: digits =>
    (c = 'e' || c = 'E') && (d = '+' || d = '-') && digits ≠ [] && digits.all isAsciiDigit
  | _ => false

/-- Is this a fraction of digits and underscores, perhaps with an exponent? -/
def isFraction (text : List Char) : Bool :=
  isExponent (text.dropWhile fun c => isAsciiDigit c || c = '_')

/-- Is this a number with a point, infinity, or what is no number? -/
def isFloat (text : List Char) : Bool :=
  let unsigned := dropSign text
  match unsigned with
  | '.' :: rest =>
    isWord "inf" rest ||
    (text = unsigned && ([['n', 'a', 'n'], ['N', 'a', 'N'], ['N', 'A', 'N']].contains rest ||
      (rest.head?.any isAsciiDigit && isFraction rest)))
  | _ =>
    match Text.cutAt? '.' unsigned with
    | none => false
    | some (whole, fraction) =>
      match Text.fields ':' whole with
      | [] => false
      | first :: others =>
        beginsWithDigit isAsciiDigit first && others.all isSixtieth &&
          (if others = [] then isFraction fraction
           else fraction.all fun c => isAsciiDigit c || c = '_')

/-- The numbers of a timestamp, as they are written: the day, and the time and offset if there
are any. -/
structure Stamp where
  year : List Char
  month : List Char
  day : List Char
  time : Option (List Char × List Char × List Char × List Char) := none
  offset : Option (Bool × List Char × List Char) := none

/-- A run of at least so many and at most so many digits. -/
def digits? (least most : Nat) (text : List Char) : Option (List Char × List Char) :=
  let digits := (text.take most).takeWhile isAsciiDigit
  if digits.length < least then none else some (digits, text.drop digits.length)

def after? (c : Char) : List Char → Option (List Char)
  | [] => none
  | d :: rest => if d = c then some rest else none

def offsetMinutes? (text : List Char) : Option (List Char) :=
  match text with
  | [] => some []
  | _ => do
    let (minutes, rest) ← digits? 2 2 (← after? ':' text)
    if rest = [] then some minutes else none

def stampOffset? (text : List Char) : Option (Option (Bool × List Char × List Char)) :=
  match text.dropWhile isSpacing with
  | [] => if text = [] then some none else none
  | 'Z' :: rest => if rest = [] then some (some (false, [], [])) else none
  | c :: rest =>
    if c = '+' || c = '-' then do
      let (hours, rest) ← digits? 1 2 rest
      let minutes ← offsetMinutes? rest
      return some (c = '-', hours, minutes)
    else none

def stampTime? (stamp : Stamp) (text : List Char) : Option Stamp :=
  match text with
  | [] => some stamp
  | c :: rest => do
    let start ←
      if c = 'T' || c = 't' then some rest
      else if isSpacing c then some (rest.dropWhile isSpacing)
      else none
    let (hour, rest) ← digits? 1 2 start
    let (minute, rest) ← digits? 2 2 (← after? ':' rest)
    let (second, rest) ← digits? 2 2 (← after? ':' rest)
    let fraction := match rest with
      | '.' :: rest => rest.takeWhile isAsciiDigit
      | _ => []
    let rest := if rest.head? = some '.' then rest.drop (fraction.length + 1) else rest
    let offset ← stampOffset? rest
    return { stamp with time := some (hour, minute, second, fraction), offset := offset }

def Stamp.ofText? (text : List Char) : Option Stamp := do
  let (year, rest) ← digits? 4 4 text
  let (month, rest) ← digits? 1 2 (← after? '-' rest)
  let (day, rest) ← digits? 1 2 (← after? '-' rest)
  stampTime? { year, month, day } rest

/-- Is this a timestamp? Without a time, month and day have two digits each. -/
def isTimestamp (text : List Char) : Bool :=
  (Stamp.ofText? text).any fun stamp =>
    stamp.time.isSome || (stamp.month.length = 2 && stamp.day.length = 2)

/-- A text without the line feed at its end, if there is one. -/
def dropLineFeed (text : List Char) : List Char :=
  if text.getLast? = some '\n' then text.dropLast else text

def Tag.ofForm (text : List Char) : Tag :=
  if text = [] || text = ['~'] || isWord "null" text then .null
  else if truthWords.any fun entry => isWord entry.1 text then .bool
  else if isWhole text then .int
  else if isFloat text then .float
  else if isTimestamp text then .timestamp
  else if text = ['<', '<'] then .merge
  else if text = ['='] then .value
  else if text = ['!'] || text = ['&'] || text = ['*'] then .unknown
  else .text

/-- The tag that a plain scalar has by its form.  A line feed behind it does not count, unless
it stands alone. -/
def Tag.ofPlain (text : List Char) : Tag :=
  if text = ['\n'] then .text else .ofForm (dropLineFeed text)

end ModulePlan.Document.Yaml
