/-
Numbers, dates and times of YAML scalars.

The text of a number may hold underscores, which do not count.  Parts with colons between
them are a number in base sixty.
-/

import ModulePlan.Document.Value
import ModulePlan.Document.Yaml.Tag
import ModulePlan.Text.Lower

namespace ModulePlan.Document.Yaml

open Text (isAsciiDigit)

/-- The digit of a base that a character stands for, in any script if it is decimal. -/
def digitIn? (base : Nat) (c : Char) : Option Nat :=
  let value := match Text.digitValue? c with
    | some value => some value
    | none => if Text.isHexDigit c then some (Text.hexDigitValue c) else none
  value.filter (· < base)

def natIn? (base : Nat) (digits : List Char) : Option Nat :=
  if digits = [] then none
  else digits.foldl (fun total c => do return base * (← total) + (← digitIn? base c)) (some 0)

def dropBaseMark (base : Nat) (text : List Char) : List Char :=
  let letter := if base = 2 then 'b' else if base = 8 then 'o' else 'x'
  match text with
  | '0' :: c :: rest => if base ≠ 10 && Text.lowerAscii c = letter then rest else text
  | _ => text

def hasMinus (text : List Char) : Bool :=
  text.head? = some '-'

/-- The blank characters that may stand around a number.  The information separators are none
of them. -/
def isNumberBlank (c : Char) : Bool :=
  if Text.isAscii c then (9 ≤ c.toNat && c.toNat ≤ 13) || c = ' ' else Text.isBlank c

def stripNumber (text : List Char) : List Char :=
  ((text.dropWhile isNumberBlank).reverse.dropWhile isNumberBlank).reverse

/-- A whole number of a base, perhaps with blanks around it, a sign, and a mark of the base. -/
def wholeIn (base : Nat) (text : List Char) : Except Refusal Int := do
  let stripped := stripNumber text
  let digits := dropBaseMark base (dropSign stripped)
  let counted := (digits.takeWhile fun c => (digitIn? 10 c).isSome).length
  if base = 10 && digitLimit < counted then
    .error (.fault (.value (.tooManyDigits counted)))
  else
    match natIn? base digits with
    | some size => return if hasMinus stripped then -(size : Int) else size
    | none => .error (.fault (.value (.notWhole base (String.ofList text))))

/-- The number whose digits in base sixty are given, the first one counting most. -/
def inSixties (digits : List Int) : Int :=
  digits.foldl (fun total digit => 60 * total + digit) 0

def unsignedWhole (text : List Char) : Except Refusal Int :=
  match text with
  | [] => .error (.fault (.kind .emptyNumber))
  | ['0'] => .ok 0
  | '0' :: 'b' :: digits => wholeIn 2 digits
  | '0' :: 'x' :: digits => wholeIn 16 digits
  | '0' :: _ => wholeIn 8 text
  | _ =>
    if text.contains ':' then do
      return inSixties (← (Text.fields ':' text).mapM (wholeIn 10))
    else wholeIn 10 text

def whole (text : List Char) : Except Refusal Int := do
  let text := text.filter (· ≠ '_')
  if text = [] then .error (.fault (.kind .emptyNumber))
  else
    let size ← unsignedWhole (dropSign text)
    return if hasMinus text then -size else size

/-- The digits of a number with all scripts' digits written as those of ASCII. -/
def plainDigit (c : Char) : Char :=
  ((Text.digitValue? c).map Nat.digitChar).getD c

def exponent? (text : List Char) : Option Int :=
  (natIn? 10 (dropSign text)).map fun size => if hasMinus text then -(size : Int) else size

/-- A decimal number with a point, an exponent, both or none. -/
def decimal? (negative : Bool) (text : List Char) : Option Binary64 := do
  let mantissa := text.takeWhile (· ≠ 'e')
  let exponent ←
    match text.drop mantissa.length with
    | [] => some 0
    | _ :: rest => exponent? rest
  let whole := mantissa.takeWhile (· ≠ '.')
  let fraction := (mantissa.drop whole.length).drop 1
  let number ← natIn? 10 (whole ++ fraction)
  return .ofDecimal negative number (exponent - fraction.length)

def floatOfText (text : List Char) : Except Refusal Binary64 :=
  let stripped := (stripNumber text).map plainDigit
  let negative := hasMinus stripped
  let unsigned := String.ofList (dropSign stripped)
  if unsigned = "inf" || unsigned = "infinity" then .ok (.infinite negative)
  else if unsigned = "nan" then .ok .notANumber
  else
    match decimal? negative unsigned.toList with
    | some number => .ok number
    | none => .error (.fault (.value (.notFloat (String.ofList text))))

/-- The number whose digits in base sixty are given, the first one counting least.  Each digit
is rounded as it is multiplied and added; a power of sixty beyond all numbers is refused. -/
def sumOfSixties (power : Nat) (total : Binary64) : List Binary64 → Except Refusal Binary64
  | [] => .ok total
  | digit :: rest =>
    match Binary64.ofNat power with
    | .infinite _ => .error (.fault (.kind .numberTooLarge))
    | factor => sumOfSixties (60 * power) (total.plus (digit.times factor)) rest

def unsignedFloat (text : List Char) : Except Refusal Binary64 :=
  if text = ".inf".toList then .ok (.infinite false)
  else if text = ".nan".toList then .ok .notANumber
  else if text.contains ':' then do
    let digits ← (Text.fields ':' text).mapM floatOfText
    sumOfSixties 1 (.ofNat 0) digits.reverse
  else floatOfText text

/-- The text of a number in small letters, without what does not count. -/
def floatText (text : List Char) : List Char :=
  Text.lower (text.filter (· ≠ '_'))

def float (text : List Char) : Except Refusal Binary64 := do
  let text := floatText text
  if text = [] then .error (.fault (.kind .emptyNumber))
  else
    let size ← unsignedFloat (dropSign text)
    return if hasMinus text then size.negated else size

/-- Is this the one word that always means the same thing that is no number? -/
def isNoNumber (text : List Char) : Bool :=
  dropSign (floatText text) = ".nan".toList

def number (digits : List Char) : Nat :=
  (natIn? 10 digits).getD 0

def offsetOf (negative : Bool) (hours minutes : List Char) : Except CalendarProblem Int :=
  let size : Int := 60 * number hours + number minutes
  let offset := if negative then -size else size
  if 1440 ≤ size then .error (.offset offset) else .ok offset

def Stamp.value (stamp : Stamp) : Except CalendarProblem Value := do
  let day : Date := ⟨number stamp.year, number stamp.month, number stamp.day⟩
  match stamp.time with
  | none => return .date (← day.check)
  | some (hour, minute, second, fraction) =>
    let offset ←
      match stamp.offset with
      | none => pure none
      | some (negative, hours, minutes) => some <$> offsetOf negative hours minutes
    let counted := fraction.take 6
    let microsecond := number (counted ++ List.replicate (6 - counted.length) '0')
    let day ← day.check
    let time ← TimeOfDay.check ⟨number hour, number minute, number second, microsecond⟩
    return .dateTime day time offset

def timestamp (text : List Char) : Except Refusal Value :=
  match Stamp.ofText? (dropLineFeed text) with
  | none => .error (.fault (.kind .notDate))
  | some stamp =>
    match stamp.value with
    | .ok value => .ok value
    | .error problem => .error (.fault (.value (.calendar problem)))

end ModulePlan.Document.Yaml
