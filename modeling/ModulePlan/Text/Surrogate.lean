/-
Halves of surrogate pairs.

A text may hold one of the 2048 numbers that stand for half a character, which are no
characters themselves.  Such a half is held as the private character whose number is greater
by 0x100000; no other use is made of those characters.
-/

namespace ModulePlan.Text

def isSurrogate (number : Nat) : Bool :=
  0xd800 ≤ number && number ≤ 0xdfff

def ofNumber (number : Nat) : Char :=
  Char.ofNat (if isSurrogate number then number + 0x100000 else number)

/-- The number of the half pair that a character stands for, if it stands for one. -/
def surrogateHalf? (c : Char) : Option Nat :=
  if 0x10d800 ≤ c.toNat && c.toNat ≤ 0x10dfff then some (c.toNat - 0x100000) else none

end ModulePlan.Text
