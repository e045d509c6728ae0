/-
Why a document is not read: it is malformed, or a value in it stops the reading by a fault of
its own.
-/

import ModulePlan.Fault

namespace ModulePlan.Document

inductive Refusal where
  | malformed
  | fault (fault : Fault)

abbrev Reading (α : Type) := Except Refusal (α × List Char)

/-- A whole number by its decimal digits, unless there are too many. -/
def wholeOfDigits (digits : List Char) : Except Refusal Nat :=
  if digitLimit < digits.length then .error (.fault (.value (.tooManyDigits digits.length)))
  else .ok (Nat.ofDigitChars 10 digits 0)

def Refusal.inFile (refusal : Refusal) (path : FilePath) : Fault :=
  match refusal with
  | .malformed => .setting (.malformed path)
  | .fault cause => cause

end ModulePlan.Document
