/-
Texts, numbers, dates and times of TOML documents.

Every reader takes a text and gives what stands at its beginning, with the rest of the text.
-/

import ModulePlan.Document.Refusal
import ModulePlan.Text.Digit

namespace ModulePlan.Document.Toml

open Text (isAsciiDigit isAsciiLetter isHexDigit natOfDigits)

/-- Control characters may not stand in comments and texts, except the tab. -/
def isControl (c : Char) : Bool :=
  (c.toNat < 32 || c.toNat = 127) && c ≠ '\t'

/-- The digits of a number in some notation: a digit, then digits each of which one underscore
may precede.  The underscores are dropped. -/
def digitRun (isDigit : Char → Bool) : List Char → List Char × List Char
  | [] => ([], [])
  | '_' :: d :: rest =>
    if isDigit d then
      let (digits, after) := digitRun isDigit rest
      (d :: digits, after)
    else ([], '_' :: d :: rest)
  | d :: rest =>
    if isDigit d then
      let (digits, after) := digitRun isDigit rest
      (d :: digits, after)
    else ([], d :: rest)

def digits? (isDigit : Char → Bool) (cs : List Char) : Option (List Char × List Char) :=
  if cs.head?.any isDigit then some (digitRun isDigit cs) else none

def isOctalDigit (c : Char) : Bool :=
  '0' ≤ c && c ≤ '7'

def isBinaryDigit (c : Char) : Bool :=
  c = '0' || c = '1'

def basedWhole? : List Char → Option (Value × List Char)
  | '0' :: 'x' :: rest => (digits? isHexDigit rest).map fun (digits, after) =>
      (.int (natOfDigits 16 digits), after)
  | '0' :: 'b' :: rest => (digits? isBinaryDigit rest).map fun (digits, after) =>
      (.int (natOfDigits 2 digits), after)
  | '0' :: 'o' :: rest => (digits? isOctalDigit rest).map fun (digits, after) =>
      (.int (natOfDigits 8 digits), after)
  | _ => none

def sign : List Char → Bool × List Char
  | '-' :: rest => (true, rest)
  | '+' :: rest => (false, rest)
  | cs => (false, cs)

/-- The whole part of a decimal number, which has no zero before other digits. -/
def wholePart? : List Char → Option (List Char × List Char)
  | '0' :: rest => some (['0'], rest)
  | cs => digits? isAsciiDigit cs

def fractionPart : List Char → Option (List Char) × List Char
  | '.' :: rest =>
    match digits? isAsciiDigit rest with
    | some (digits, after) => (some digits, after)
    | none => (none, '.' :: rest)
  | cs => (none, cs)

def exponentPart : List Char → Option Int × List Char
  | [] => (none, [])
  | c :: rest =>
    if c = 'e' || c = 'E' then
      let (negative, start) := sign rest
      match digits? isAsciiDigit start with
      | some (digits, after) =>
        let size : Int := Nat.ofDigitChars 10 digits 0
        (some (if negative then -size else size), after)
      | none => (none, c :: rest)
    else (none, c :: rest)

/-- A decimal number: a whole one, or a float if it has a fraction or an exponent. -/
def decimal? (cs : List Char) : Option (Reading Value) :=
  let (negative, start) := sign cs
  (wholePart? start).map fun (whole, rest) =>
    let (fraction, rest) := fractionPart rest
    let (exponent, rest) := exponentPart rest
    if fraction.isNone && exponent.isNone then
      (wholeOfDigits whole).map fun size => (.int (if negative then -(size : Int) else size), rest)
    else
      let fraction := fraction.getD []
      let number := Nat.ofDigitChars 10 (whole ++ fraction) 0
      .ok (.float (.ofDecimal negative number (exponent.getD 0 - fraction.length)), rest)

def specialFloat? (cs : List Char) : Option (Value × List Char) :=
  let (negative, start) := sign cs
  match start with
  | 'i' :: 'n' :: 'f' :: rest => some (.float (.infinite negative), rest)
  | 'n' :: 'a' :: 'n' :: rest => some (.float .notANumber, rest)
  | _ => none

def fixedNumber? (width low high : Nat) (cs : List Char) : Option (Nat × List Char) :=
  let digits := cs.take width
  let number := Nat.ofDigitChars 10 digits 0
  if digits.length = width && digits.all isAsciiDigit && low ≤ number && number ≤ high then
    some (number, cs.drop width)
  else none

def after? (c : Char) : List Char → Option (List Char)
  | [] => none
  | d :: rest => if d = c then some rest else none

def fractionMicroseconds (cs : List Char) : Nat × List Char :=
  match cs with
  | '.' :: rest =>
    let digits := rest.takeWhile isAsciiDigit
    if digits = [] then (0, cs)
    else
      let counted := digits.take 6
      (Nat.ofDigitChars 10 (counted ++ List.replicate (6 - counted.length) '0') 0,
        rest.drop digits.length)
  | _ => (0, cs)

def time? (cs : List Char) : Option (TimeOfDay × List Char) := do
  let (hour, rest) ← fixedNumber? 2 0 23 cs
  let (minute, rest) ← fixedNumber? 2 0 59 (← after? ':' rest)
  let (second, rest) ← fixedNumber? 2 0 59 (← after? ':' rest)
  let (microsecond, rest) := fractionMicroseconds rest
  return (⟨hour, minute, second, microsecond⟩, rest)

def date? (cs : List Char) : Option (Date × List Char) := do
  let (year, rest) ← fixedNumber? 4 0 9999 cs
  let (month, rest) ← fixedNumber? 2 1 12 (← after? '-' rest)
  let (day, rest) ← fixedNumber? 2 1 31 (← after? '-' rest)
  return (⟨year, month, day⟩, rest)

def offset (cs : List Char) : Option Int × List Char :=
  match cs with
  | [] => (none, [])
  | c :: rest =>
    if c = 'Z' || c = 'z' then (some 0, rest)
    else if c = '+' || c = '-' then
      let found := do
        let (hours, rest) ← fixedNumber? 2 0 23 rest
        let (minutes, rest) ← fixedNumber? 2 0 59 (← after? ':' rest)
        return (60 * hours + minutes, rest)
      match found with
      | some (minutes, rest) => (some (if c = '-' then -(minutes : Int) else minutes), rest)
      | none => (none, cs)
    else (none, cs)

def timeAfterDate? : List Char → Option (TimeOfDay × List Char)
  | [] => none
  | c :: rest => if c = 'T' || c = 't' || c = ' ' then time? rest else none

/-- A date, perhaps with a time and an offset.  A day that its month does not have is
malformed. -/
def dateTime? (cs : List Char) : Option (Reading Value) :=
  (date? cs).map fun (date, rest) =>
    match date.check with
    | .error _ => .error .malformed
    | .ok date =>
      match timeAfterDate? rest with
      | none => .ok (.date date, rest)
      | some (time, rest) =>
        let (minutes, rest) := offset rest
        .ok (.dateTime date time minutes, rest)

def escapedChar? (c : Char) : Option Char :=
  if c = 'b' then some '\x08'
  else if c = 't' then some '\t'
  else if c = 'n' then some '\n'
  else if c = 'f' then some '\x0c'
  else if c = 'r' then some '\r'
  else if c = '"' then some '"'
  else if c = '\\' then some '\\'
  else none

def numberedChar? (width : Nat) (cs : List Char) : Option Char :=
  let digits := cs.take width
  let number := natOfDigits 16 digits
  if digits.length = width && digits.all isHexDigit &&
      (number < 0xd800 || (0xdfff < number && number < 0x110000)) then
    some (Char.ofNat number)
  else none

/-- The text behind a line feed and all further white space, if nothing else stands before the
line feed. -/
def afterLineEnd? (cs : List Char) : Option (List Char) :=
  match cs.dropWhile fun c => c = ' ' || c = '\t' with
  | [] => some []
  | '\n' :: rest => some (rest.dropWhile fun c => c = ' ' || c = '\t' || c = '\n')
  | _ => none

/-- What stands for the text behind a backslash, and the text behind that. -/
def escape? (multiline : Bool) (cs : List Char) : Option (List Char × List Char) :=
  match if multiline then afterLineEnd? cs else none with
  | some after => some ([], after)
  | none =>
    match cs with
    | [] => none
    | 'u' :: rest => (numberedChar? 4 rest).map fun c => ([c], rest.drop 4)
    | 'U' :: rest => (numberedChar? 8 rest).map fun c => ([c], rest.drop 8)
    | c :: rest => (escapedChar? c).map fun d => ([d], rest)

theorem length_of_afterLineEnd {cs after : List Char} (found : afterLineEnd? cs = some after) :
    after.length ≤ cs.length := by
  unfold afterLineEnd? at found
  have fewer := (List.dropWhile_sublist (fun c => decide (c = ' ') || decide (c = '\t'))
    (l := cs)).length_le
  split at found
  · cases found
    simp
  · rename_i rest here
    cases found
    rw [here, List.length_cons] at fewer
    have least := (List.dropWhile_sublist
      (fun c => decide (c = ' ') || decide (c = '\t') || decide (c = '\n')) (l := rest)).length_le
    omega
  · cases found

theorem length_of_escape {multiline : Bool} {cs written after : List Char}
    (found : escape? multiline cs = some (written, after)) : after.length ≤ cs.length := by
  unfold escape? at found
  split at found
  · rename_i rest folded
    cases found
    split at folded
    · exact length_of_afterLineEnd folded
    · cases folded
  · split at found
    · cases found
    · obtain ⟨c, _, same⟩ := Option.map_eq_some_iff.mp found
      cases same
      simp only [List.length_drop, List.length_cons]
      omega
    · obtain ⟨c, _, same⟩ := Option.map_eq_some_iff.mp found
      cases same
      simp only [List.length_drop, List.length_cons]
      omega
    · obtain ⟨d, _, same⟩ := Option.map_eq_some_iff.mp found
      cases same
      simp only [List.length_cons]
      omega

def basicText (multiline : Bool) (cs : List Char) : Reading (List Char) :=
  match cs with
  | [] => .error .malformed
  | c :: rest =>
    if c = '"' && !multiline then .ok ([], rest)
    else if c = '"' && ['"', '"'].isPrefixOf rest then .ok ([], rest.drop 2)
    else if c = '\\' then
      match _found : escape? multiline rest with
      | none => .error .malformed
      | some (written, after) =>
        (basicText multiline after).map fun (text, after) => (written ++ text, after)
    else if isControl c && !(multiline && c = '\n') then .error .malformed
    else (basicText multiline rest).map fun (text, after) => (c :: text, after)
termination_by cs.length
decreasing_by
  · have := length_of_escape _found
    simp only [List.length_cons]
    omega
  · simp only [List.length_cons]
    omega

def literalText : List Char → Reading (List Char)
  | [] => .error .malformed
  | '\'' :: rest => .ok ([], rest)
  | c :: rest =>
    if isControl c then .error .malformed
    else (literalText rest).map fun (text, after) => (c :: text, after)

def literalLines : List Char → Reading (List Char)
  | [] => .error .malformed
  | '\'' :: '\'' :: '\'' :: rest => .ok ([], rest)
  | c :: rest =>
    if isControl c && c ≠ '\n' then .error .malformed
    else (literalLines rest).map fun (text, after) => (c :: text, after)

def extraQuotes (quote : Char) (text : List Char) (rest : List Char) : List Char × List Char :=
  let extra := (rest.take 2).takeWhile (· = quote)
  (text ++ extra, rest.drop extra.length)

/-- A line feed at the beginning of a text of several lines does not count. -/
def dropFirstLineFeed : List Char → List Char
  | '\n' :: rest => rest
  | cs => cs

def text? (cs : List Char) : Option (Reading (List Char)) :=
  match cs with
  | '"' :: '"' :: '"' :: rest => some ((basicText true (dropFirstLineFeed rest)).map
      fun (text, after) => extraQuotes '"' text after)
  | '"' :: rest => some (basicText false rest)
  | '\'' :: '\'' :: '\'' :: rest => some ((literalLines (dropFirstLineFeed rest)).map
      fun (text, after) => extraQuotes '\'' text after)
  | '\'' :: rest => some (literalText rest)
  | _ => none

def plainScalar (cs : List Char) : Reading Value :=
  match cs with
  | 't' :: 'r' :: 'u' :: 'e' :: rest => .ok (.bool true, rest)
  | 'f' :: 'a' :: 'l' :: 's' :: 'e' :: rest => .ok (.bool false, rest)
  | _ =>
    match dateTime? cs with
    | some reading => reading
    | none =>
      match time? cs with
      | some (time, rest) => .ok (.time time, rest)
      | none =>
        match basedWhole? cs with
        | some found => .ok found
        | none =>
          match decimal? cs with
          | some reading => reading
          | none =>
            match specialFloat? cs with
            | some found => .ok found
            | none => .error .malformed

end ModulePlan.Document.Toml
