/-
Floating point numbers of 64 bits, read from decimals and written with the fewest digits.

A finite number is a sign and a whole number times a power of two.  Reading takes the
nearest such number, an even one when two are equally near.  Writing takes the shortest
decimal that reads back as the same number, and of those the nearest.
-/

namespace ModulePlan.Document

/-- A floating point number.  Of finite numbers, the significand has 53 bits unless the
exponent is the least one, so equal numbers of one sign have equal fields. -/
inductive Binary64 where
  | finite (negative : Bool) (significand : Nat) (exponent : Int)
  | infinite (negative : Bool)
  | notANumber
deriving DecidableEq

namespace Binary64

def twoTo (exponent : Nat) : Nat :=
  Nat.pow 2 exponent

def tenTo (exponent : Nat) : Nat :=
  Nat.pow 10 exponent

def leastExponent : Int := -1074

/-- A quotient of natural numbers, to the nearest and to the even one in the middle. -/
def roundedQuotient (numerator denominator : Nat) : Nat :=
  let low := numerator / denominator
  let doubled := 2 * (numerator % denominator)
  if doubled < denominator then low
  else if denominator < doubled then low + 1
  else low + low % 2

def scaled (numerator denominator : Nat) (exponent : Int) : Nat × Nat :=
  if exponent < 0 then (numerator * twoTo exponent.natAbs, denominator)
  else (numerator, denominator * twoTo exponent.natAbs)

def ofQuotient (negative : Bool) (numerator denominator : Nat) : Binary64 :=
  let guess := (Nat.log2 numerator : Int) - Nat.log2 denominator - 53
  let first := if guess < leastExponent then leastExponent else guess
  let exponent :=
    let (top, bottom) := scaled numerator denominator first
    if top / bottom < twoTo 53 then first else first + 1
  let (top, bottom) := scaled numerator denominator exponent
  let significand := roundedQuotient top bottom
  let (significand, exponent) :=
    if significand = twoTo 53 then (twoTo 52, exponent + 1) else (significand, exponent)
  if 971 < exponent then .infinite negative else .finite negative significand exponent

def ofDecimal (negative : Bool) (digits : Nat) (exponent : Int) : Binary64 :=
  let magnitude := (Nat.toDigits 10 digits).length + exponent
  if digits = 0 || magnitude < -330 then .finite negative 0 leastExponent
  else if 320 < magnitude then .infinite negative
  else if exponent < 0 then ofQuotient negative digits (tenTo exponent.natAbs)
  else ofQuotient negative (digits * tenTo exponent.natAbs) 1

/-- A decimal candidate lies in the interval of what reads back as a number.  All three are
given over one denominator; the ends belong to the interval when the significand is even. -/
def readsBack (low candidate high : Nat) (inclusive : Bool) : Bool :=
  if inclusive then low ≤ candidate && candidate ≤ high else low < candidate && candidate < high

/-- Looks for the coarsest decimal grid that meets the interval, from the given one on.
`value`, `low` and `high` are numerators over `denominator`. -/
def searchGrid (low value high denominator : Nat) (inclusive : Bool) :
    Nat → Int → Nat × Int
  | 0, exponent => (0, exponent)
  | fuel + 1, exponent =>
    let (stretch, step) :=
      if exponent < 0 then (tenTo exponent.natAbs, denominator)
      else (1, denominator * tenTo exponent.natAbs)
    let below := value * stretch / step
    let lowFits := readsBack (low * stretch) (below * step) (high * stretch) inclusive
    let highFits := readsBack (low * stretch) ((below + 1) * step) (high * stretch) inclusive
    let toLow := value * stretch - below * step
    let toHigh := (below + 1) * step - value * stretch
    if lowFits && (!highFits || toLow < toHigh || (toLow = toHigh && below % 2 = 0)) then
      (below, exponent)
    else if highFits then (below + 1, exponent)
    else searchGrid low value high denominator inclusive fuel (exponent - 1)

def leadingPower (numerator denominator : Nat) : Int :=
  let whole := numerator / denominator
  if whole ≠ 0 then (Nat.toDigits 10 whole).length - 1
  else
    -- The least power of ten that lifts the quotient to one or more.
    match (List.range 400).find? fun power => denominator ≤ numerator * tenTo power with
    | some power => -(power : Int)
    | none => 0

/-- The shortest decimal that reads back as a positive number: its digits and power of ten. -/
def shortest (significand : Nat) (exponent : Int) : Nat × Int :=
  -- Quarters of the last place hold both ends of the interval.
  let value := 4 * significand
  let high := value + 2
  let low :=
    if significand = twoTo 52 && leastExponent < exponent then value - 1 else value - 2
  let quarter := exponent - 2
  let shift := if quarter < 0 then 1 else twoTo quarter.natAbs
  let denominator := if quarter < 0 then twoTo quarter.natAbs else 1
  searchGrid (low * shift) (value * shift) (high * shift) denominator (significand % 2 = 0) 25
    (leadingPower (value * shift) denominator)

/-- Digits without zeros at their end, and the power of ten raised accordingly. -/
def dropZeros : List Char → Int → List Char × Int
  | '0' :: rest, power => dropZeros rest (power + 1)
  | digits, power => (digits, power)

/-- The text of a number.  Powers of ten from -4 to 15 are written out with a point and at
least one digit behind it, others with a signed exponent of at least two digits. -/
def toText : Binary64 → String
  | .notANumber => "nan"
  | .infinite negative => if negative then "-inf" else "inf"
  | .finite negative significand exponent =>
    let sign := if negative then "-" else ""
    if significand = 0 then sign ++ "0.0"
    else
      let (number, power) := shortest significand exponent
      let (reversed, power) := dropZeros (Nat.toDigits 10 number).reverse power
      let digits := reversed.reverse
      let leading : Int := power + digits.length - 1
      let body :=
        if leading < -4 || 16 ≤ leading then
          let fraction := digits.drop 1
          let size := Nat.toDigits 10 leading.natAbs
          digits.take 1 ++ (if fraction = [] then [] else '.' :: fraction) ++
            ['e', if leading < 0 then '-' else '+'] ++
            List.replicate (2 - size.length) '0' ++ size
        else if leading < 0 then
          ['0', '.'] ++ List.replicate (leading.natAbs - 1) '0' ++ digits
        else
          let whole := leading.natAbs + 1
          let fraction := digits.drop whole
          digits.take whole ++ List.replicate (whole - digits.length) '0' ++
            '.' :: (if fraction = [] then ['0'] else fraction)
      sign ++ String.ofList body

def ofScaled (whole : Int) (exponent : Int) : Binary64 :=
  if whole = 0 then .finite false 0 leastExponent
  else if exponent < 0 then ofQuotient (whole < 0) whole.natAbs (twoTo exponent.natAbs)
  else ofQuotient (whole < 0) (whole.natAbs * twoTo exponent.natAbs) 1

def signed (negative : Bool) (significand : Nat) : Int :=
  if negative then -(significand : Int) else significand

/-- The number nearest to a sum.  Infinities of two signs have none. -/
def plus : Binary64 → Binary64 → Binary64
  | .finite negative significand exponent, .finite otherNegative otherSignificand otherExponent =>
    let lower := if exponent < otherExponent then exponent else otherExponent
    ofScaled
      (signed negative significand * twoTo (exponent - lower).natAbs +
        signed otherNegative otherSignificand * twoTo (otherExponent - lower).natAbs)
      lower
  | .infinite negative, .infinite otherNegative =>
    if negative = otherNegative then .infinite negative else .notANumber
  | .infinite negative, .finite .. | .finite .., .infinite negative => .infinite negative
  | _, _ => .notANumber

def ofNat (whole : Nat) : Binary64 :=
  ofScaled whole 0

/-- The number nearest to a product.  Infinity times zero has none. -/
def times : Binary64 → Binary64 → Binary64
  | .finite negative significand exponent, .finite otherNegative otherSignificand otherExponent =>
    let product := significand * otherSignificand
    let exponent := exponent + otherExponent
    let isNegative := negative != otherNegative
    if product = 0 then .finite isNegative 0 leastExponent
    else if exponent < 0 then ofQuotient isNegative product (twoTo exponent.natAbs)
    else ofQuotient isNegative (product * twoTo exponent.natAbs) 1
  | .infinite negative, .infinite otherNegative => .infinite (negative != otherNegative)
  | .infinite negative, .finite otherNegative significand _ =>
    if significand = 0 then .notANumber else .infinite (negative != otherNegative)
  | .finite otherNegative significand _, .infinite negative =>
    if significand = 0 then .notANumber else .infinite (negative != otherNegative)
  | _, _ => .notANumber

def floor : Binary64 → Nat
  | .finite _ significand exponent =>
    if exponent < 0 then significand / twoTo exponent.natAbs
    else significand * twoTo exponent.natAbs
  | _ => 0

def negated : Binary64 → Binary64
  | .finite negative significand exponent => .finite (!negative) significand exponent
  | .infinite negative => .infinite (!negative)
  | .notANumber => .notANumber

def equalsInt (number : Binary64) (whole : Int) : Bool :=
  match number with
  | .finite negative significand exponent =>
    let scaledWhole := whole * twoTo 1074
    let scaledNumber : Int := significand * twoTo (exponent + 1074).natAbs
    (if negative then -scaledNumber else scaledNumber) = scaledWhole
  | _ => false

def isZero : Binary64 → Bool
  | .finite _ significand _ => significand = 0
  | _ => false

end Binary64

end ModulePlan.Document
