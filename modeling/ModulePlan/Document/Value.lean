/-
Values of configuration and listing documents, and how they are written as text.

A document is built from null, truth values, numbers, texts, dates and times, byte strings,
lists and mappings.  In messages a value is described: texts stand in quotes, and lists and
mappings in brackets.  As a text of its own a value is written in the same way, save that
texts stand without quotes and dates and times in their usual form.  Whole numbers of more
digits than numbers may have are not written.

A list, set or mapping may also stand by itself as a part of a document, to which values
refer by its number.
-/

import ModulePlan.Document.Binary64
import ModulePlan.Document.Calendar
import ModulePlan.Text.Quoted

namespace ModulePlan.Document

/-- A value of a document.  Mappings keep the order of their entries; a `record` is a list of
fixed length, and a `group` is a set. -/
inductive Value where
  | null
  | bool (value : Bool)
  | int (value : Int)
  | float (value : Binary64)
  | text (value : String)
  | bytes (data : List UInt8)
  | date (value : Date)
  | time (value : TimeOfDay)
  | dateTime (date : Date) (time : TimeOfDay) (offset : Option Int)
  | list (items : List Value)
  | record (items : List Value)
  | group (items : List Value)
  | mapping (entries : List (Value × Value))
  | part (number : Nat)
deriving Inhabited

/-- The greatest number of decimal digits that a whole number may have. -/
def digitLimit : Nat := 4300

inductive WritingProblem where
  | tooManyDigits
  | tooDeep
deriving DecidableEq

abbrev Writing := Except WritingProblem String

def writeWhole (number : Int) : Writing :=
  if Binary64.tenTo digitLimit ≤ number.natAbs then .error .tooManyDigits
  else .ok (toString number)

namespace Value

def describeByte (quote : Char) (byte : UInt8) : List Char :=
  let c := Char.ofNat byte.toNat
  if c == quote || c == '\\' then ['\\', c]
  else if c == '\n' then ['\\', 'n']
  else if c == '\r' then ['\\', 'r']
  else if c == '\t' then ['\\', 't']
  else if byte < 32 || 127 ≤ byte then '\\' :: 'x' :: Text.hexDigits 2 byte.toNat
  else [c]

def describeBytes (data : List UInt8) : String :=
  let quote := Text.quoteFor (data.map fun byte => Char.ofNat byte.toNat)
  String.ofList ('b' :: quote :: data.flatMap (describeByte quote) ++ [quote])

/-- The numbers of a time of day; seconds and microseconds only as far as needed. -/
def timeFields (time : TimeOfDay) : List String :=
  [toString time.hour, toString time.minute] ++
    (if time.second = 0 && time.microsecond = 0 then [] else [toString time.second]) ++
    (if time.microsecond = 0 then [] else [toString time.microsecond])

def dateFields (date : Date) : List String :=
  [toString date.year, toString date.month, toString date.day]

def describeDateTime (day : Date) (hours : TimeOfDay) (offset : Option Int) : String :=
  let zone := match offset with
    | none => []
    | some minutes => ["tzinfo=" ++ describeOffset minutes]
  "datetime.datetime(" ++ ", ".intercalate (dateFields day ++ timeFields hours ++ zone) ++ ")"

def writingDepth : Nat := 980

/-- What is written inside brackets, if the room is not used up. -/
def inside {α : Type} (room : Nat) (write : Nat → Except WritingProblem α) :
    Except WritingProblem α :=
  match room with
  | 0 => .error .tooDeep
  | room + 1 => write room

mutual

/-- The description of a value in messages, given what is shown for each part, and how deeply
lists and mappings may still be nested. -/
def describeWith (shown : Nat → Writing) (room : Nat) : Value → Writing
  | .null => .ok "None"
  | .bool value => .ok (if value then "True" else "False")
  | .int value => writeWhole value
  | .float value => .ok value.toText
  | .text value => .ok (Text.quoted value)
  | .bytes data => .ok (describeBytes data)
  | .date value => .ok ("datetime.date(" ++ ", ".intercalate (dateFields value) ++ ")")
  | .time value => .ok ("datetime.time(" ++ ", ".intercalate (timeFields value) ++ ")")
  | .dateTime day hours offset => .ok (describeDateTime day hours offset)
  | .list items => do
    return "[" ++ ", ".intercalate (← inside room (describeAll shown · items)) ++ "]"
  | .record [] => .ok "()"
  | .record [item] => do return "(" ++ (← inside room (describeWith shown · item)) ++ ",)"
  | .record items => do
    return "(" ++ ", ".intercalate (← inside room (describeAll shown · items)) ++ ")"
  | .group [] => .ok "set()"
  | .group items => do
    return "\x7b" ++ ", ".intercalate (← inside room (describeAll shown · items)) ++ "\x7d"
  | .mapping entries => do
    return "\x7b" ++ ", ".intercalate (← inside room (describeEntries shown · entries)) ++ "\x7d"
  | .part number => shown number

def describeAll (shown : Nat → Writing) (room : Nat) :
    List Value → Except WritingProblem (List String)
  | [] => .ok []
  | item :: rest => do
    let first ← describeWith shown room item
    return first :: (← describeAll shown room rest)

def describeEntries (shown : Nat → Writing) (room : Nat) :
    List (Value × Value) → Except WritingProblem (List String)
  | [] => .ok []
  | (key, value) :: rest => do
    let first :=
      (← describeWith shown room key) ++ ": " ++ (← describeWith shown room value)
    return first :: (← describeEntries shown room rest)

end

def toTextWith (shown : Nat → Writing) : Value → Writing
  | .text value => .ok value
  | .date value => .ok value.toText
  | .time value => .ok value.toText
  | .dateTime day hours offset =>
    .ok (day.toText ++ " " ++ hours.toText ++ (offset.map offsetText).getD "")
  | value => value.describeWith shown writingDepth

def noPart (_number : Nat) : Writing :=
  .ok "..."

/-- The description in messages of a value without parts. -/
def describe (value : Value) : Writing :=
  value.describeWith noPart writingDepth

/-- Null, false, zero and whatever is empty count as missing. -/
def isPresent : Value → Bool
  | .null => false
  | .bool value => value
  | .int value => value ≠ 0
  | .float value => !value.isZero
  | .text value => !value.isEmpty
  | .bytes data => !data.isEmpty
  | .date _ | .time _ | .dateTime .. => true
  | .list items | .record items | .group items => !items.isEmpty
  | .mapping entries => !entries.isEmpty
  | .part _ => true

def whole? : Value → Option Int
  | .bool value => some (if value then 1 else 0)
  | .int value => some value
  | _ => none

/-- Are two numbers one key?  What is no number equals nothing. -/
def sameNumber (left right : Binary64) : Bool :=
  left ≠ .notANumber && (left = right || (left.isZero && right.isZero))

/-- Are two dates with their times one key?  With offsets from universal time they are if they
are the same moment; one with and one without an offset are not. -/
def sameMoment (day otherDay : Date) (hours otherHours : TimeOfDay) :
    Option Int → Option Int → Bool
  | none, none => day = otherDay && hours = otherHours
  | some offset, some otherOffset =>
    moment day hours offset = moment otherDay otherHours otherOffset
  | _, _ => false

/-- Are two values one key of a mapping?  Numbers and truth values count by their size, so
true, one and one point zero are the same key. -/
def sameKey : Value → Value → Bool
  | .null, .null => true
  | .text left, .text right => left = right
  | .bytes left, .bytes right => left = right
  | .date left, .date right => left = right
  | .time left, .time right => left = right
  | .dateTime day hours offset, .dateTime otherDay otherHours otherOffset =>
    sameMoment day otherDay hours otherHours offset otherOffset
  | .float left, .float right => sameNumber left right
  | .float left, right => right.whole?.any left.equalsInt
  | left, .float right => left.whole?.any right.equalsInt
  | left, right => left.whole?.isSome && left.whole? = right.whole?

def putEntry (key value : Value) : List (Value × Value) → List (Value × Value)
  | [] => [(key, value)]
  | (other, old) :: rest =>
    if other.sameKey key then (other, value) :: rest else (other, old) :: putEntry key value rest

def field? (entries : List (Value × Value)) (key : String) : Option Value :=
  match entries with
  | [] => none
  | (.text name, value) :: rest => if name = key then some value else field? rest key
  | _ :: rest => field? rest key

end Value

end ModulePlan.Document
