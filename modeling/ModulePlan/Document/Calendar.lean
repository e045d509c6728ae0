/-
Dates, times of day and offsets from universal time.
-/

namespace ModulePlan.Document

structure Date where
  year : Nat
  month : Nat
  day : Nat
deriving DecidableEq

structure TimeOfDay where
  hour : Nat
  minute : Nat
  second : Nat
  microsecond : Nat := 0
deriving DecidableEq

inductive CalendarProblem where
  | year (year : Nat)
  | month
  | day
  | hour
  | minute
  | second
  | offset (minutes : Int)
deriving DecidableEq

namespace Date

def isLeapYear (year : Nat) : Bool :=
  year % 4 = 0 && (year % 100 ≠ 0 || year % 400 = 0)

def daysInMonth (year month : Nat) : Nat :=
  match month with
  | 2 => if isLeapYear year then 29 else 28
  | 4 | 6 | 9 | 11 => 30
  | _ => 31

def check (date : Date) : Except CalendarProblem Date :=
  if date.year < 1 || 9999 < date.year then .error (.year date.year)
  else if date.month < 1 || 12 < date.month then .error .month
  else if date.day < 1 || daysInMonth date.year date.month < date.day then .error .day
  else .ok date

end Date

/-- The number of days before a day, counted from the first day of the year nought. -/
def Date.count (date : Date) : Nat :=
  let years := date.year - 1
  let months := (List.range date.month).drop 1
  365 * years + years / 4 - years / 100 + years / 400 +
    (months.map (Date.daysInMonth date.year)).foldl (· + ·) 0 + date.day

def TimeOfDay.count (time : TimeOfDay) : Nat :=
  1000000 * (3600 * time.hour + 60 * time.minute + time.second) + time.microsecond

/-- The microseconds before a time of a day, in universal time, given the offset in minutes. -/
def moment (date : Date) (time : TimeOfDay) (offset : Int) : Int :=
  86400000000 * (date.count : Int) + time.count - 60000000 * offset

def TimeOfDay.check (time : TimeOfDay) : Except CalendarProblem TimeOfDay :=
  if 23 < time.hour then .error .hour
  else if 59 < time.minute then .error .minute
  else if 59 < time.second then .error .second
  else .ok time

def padded (width number : Nat) : String :=
  let digits := Nat.toDigits 10 number
  String.ofList (List.replicate (width - digits.length) '0' ++ digits)

def Date.toText (date : Date) : String :=
  padded 4 date.year ++ "-" ++ padded 2 date.month ++ "-" ++ padded 2 date.day

/-- Hour, minute and second with colons between them, and microseconds if there are any. -/
def TimeOfDay.toText (time : TimeOfDay) : String :=
  padded 2 time.hour ++ ":" ++ padded 2 time.minute ++ ":" ++ padded 2 time.second ++
    (if time.microsecond = 0 then "" else "." ++ padded 6 time.microsecond)

def offsetText (minutes : Int) : String :=
  (if minutes < 0 then "-" else "+") ++ padded 2 (minutes.natAbs / 60) ++ ":" ++
    padded 2 (minutes.natAbs % 60)

def describeDuration (minutes : Int) : String :=
  let days := minutes.fdiv 1440
  let seconds := (minutes.fmod 1440) * 60
  let parts := (if days = 0 then [] else ["days=" ++ toString days]) ++
    (if seconds = 0 then [] else ["seconds=" ++ toString seconds])
  "datetime.timedelta(" ++ (if parts = [] then "0" else ", ".intercalate parts) ++ ")"

def describeOffset (minutes : Int) : String :=
  if minutes = 0 then "datetime.timezone.utc"
  else "datetime.timezone(" ++ describeDuration minutes ++ ")"

def CalendarProblem.message : CalendarProblem → String
  | .year number => "year " ++ toString number ++ " is out of range"
  | .month => "month must be in 1..12"
  | .day => "day is out of range for month"
  | .hour => "hour must be in 0..23"
  | .minute => "minute must be in 0..59"
  | .second => "second must be in 0..59"
  | .offset length =>
    "offset must be a timedelta strictly between -timedelta(hours=24) and timedelta(hours=24), " ++
      "not " ++ describeDuration length ++ "."

end ModulePlan.Document
