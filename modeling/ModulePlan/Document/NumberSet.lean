/-
The order in which the numbers of a set are shown.

Numbers stand in a row of slots, by the residue of the number modulo the prime 2^61 - 1, in
which fractions have residues too: a number and its double differ by the factor two.  Numbers
that are equal have one residue.  Each number goes to the slot that its residue names, or to
the next free one in a fixed order, and the set is shown from the first slot to the last.
-/

import ModulePlan.Document.Value

namespace ModulePlan.Document.NumberSet

def prime : Nat :=
  Binary64.twoTo 61 - 1

/-- The residue of a number, which has the sign of the number and is never minus one. -/
def residue (negative : Bool) (size : Nat) : Int :=
  let rest := size % prime
  if !negative then rest else if rest = 1 then -2 else -(rest : Int)

def residue? : Value → Option Int
  | .bool value => some (if value then 1 else 0)
  | .int value => some (residue (value < 0) value.natAbs)
  | .float (.finite negative significand exponent) =>
    -- The sixty-first power of two has the residue one.
    some (residue negative (significand * Binary64.twoTo (exponent % 61).toNat))
  | .float (.infinite negative) => some (if negative then -314159 else 314159)
  | _ => none

def slotCount (count : Nat) : Nat :=
  if count ≤ 4 then 8 else Binary64.twoTo (Nat.log2 (2 * count) + 1)

abbrev Slots := Array (Option Value)

def free? (slots : Slots) (start count : Nat) : Option Nat :=
  ((List.range count).map (start + ·)).find? fun slot => (slots.getD slot none).isNone

def rowLength : Nat := 10

/-- Puts a value into the first free slot.  `spread` is what is left of its residue to choose
slots by. -/
def put (value : Value) : Nat → Nat → Nat → Slots → Slots
  | 0, _, _, slots => slots
  | fuel + 1, start, spread, slots =>
    let count := if start + rowLength ≤ slots.size then rowLength else 1
    match free? slots start count with
    | some slot => slots.set! slot (some value)
    | none =>
      let spread := spread / 32
      put value fuel ((5 * start + 1 + spread) % slots.size) spread slots

def insert (slots : Slots) (value : Value) (residue : Int) : Slots :=
  let spread := (residue % (Binary64.twoTo 64 : Int)).toNat
  put value (slots.size + 64) (spread % slots.size) spread slots

/-- The members of a set in the order in which they are shown.  A set that holds anything but
numbers keeps its order. -/
def arrange (members : List Value) : List Value :=
  match members.mapM fun value => (residue? value).map fun residue => (value, residue) with
  | none => members
  | some numbers =>
    let slots := numbers.foldl (fun slots (value, residue) => insert slots value residue)
      (Array.replicate (slotCount members.length) none)
    slots.toList.filterMap id

end ModulePlan.Document.NumberSet
