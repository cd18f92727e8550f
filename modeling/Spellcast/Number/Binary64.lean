/-!
# Binary64 numbers

A binary floating-point number of 64 bits, kept as its bits, with all arithmetic done on exact fractions of
natural numbers. `Binary64.ofRatio` rounds a fraction to the nearest number, a tie going to the even
significand, and answers nothing when the nearest number is beyond the largest finite one.
-/

namespace Spellcast

/-- A binary floating-point number, kept as its 64 bits: a sign, 11 bits of exponent and 52 bits of
fraction. Two values are equal as terms when their bits are. -/
structure Binary64 where
  bits : UInt64
deriving DecidableEq

namespace Binary64

def signWeight : Nat := 0x8000000000000000

/-- The weight of the exponent among the bits, and the least significand of a number that is not tiny. -/
def unit : Nat := 0x10000000000000

def power (exponent : Nat) : Nat := Nat.pow 2 exponent

def zero : Binary64 := ⟨0⟩

instance : Inhabited Binary64 := ⟨zero⟩

/-- The number is negative, a negative zero included. -/
def isNegative (number : Binary64) : Bool :=
  signWeight ≤ number.bits.toNat

/-- The exponent and the fraction in one number, without the sign. Magnitudes of finite numbers are ordered
as these are. -/
def magnitude (number : Binary64) : Nat :=
  number.bits.toNat % signWeight

/-- The magnitude of infinity; every finite magnitude is below it. -/
def infiniteMagnitude : Nat := 0x7FF * unit

def isFinite (number : Binary64) : Bool :=
  number.magnitude < infiniteMagnitude

def isUndefined (number : Binary64) : Bool :=
  infiniteMagnitude < number.magnitude

def ofMagnitude (negative : Bool) (magnitude : Nat) : Binary64 :=
  ⟨UInt64.ofNat (magnitude % signWeight + if negative then signWeight else 0)⟩

def infinity (negative : Bool) : Binary64 :=
  ofMagnitude negative infiniteMagnitude

def undefined : Binary64 :=
  ofMagnitude false (infiniteMagnitude + unit / 2)

/-- The significand of a finite number: it is the significand times two to the power of
`scale number - 1074`. -/
def significand (number : Binary64) : Nat :=
  let fraction := number.magnitude % unit
  if number.magnitude < unit then fraction else fraction + unit

/-- How many powers of two the significand is scaled up by, counted from the least exponent. -/
def scale (number : Binary64) : Nat :=
  number.magnitude / unit - 1

/-- The magnitude of a finite number as a fraction, numerator and denominator. -/
def ratio (number : Binary64) : Nat × Nat :=
  (number.significand * power number.scale, power 1074)

/-- Numeric equality: both zeros are equal, and an undefined number equals nothing. -/
def same (first second : Binary64) : Bool :=
  !first.isUndefined && !second.isUndefined &&
    (first.bits == second.bits || (first.magnitude == 0 && second.magnitude == 0))

instance : BEq Binary64 := ⟨same⟩

/-- The quotient of two numbers rounded to the nearest, a tie to the even neighbour. -/
def roundQuotient (numerator denominator : Nat) : Nat :=
  let quotient := numerator / denominator
  let rest := 2 * (numerator % denominator)
  if rest < denominator then quotient
  else if denominator < rest then quotient + 1
  else quotient + quotient % 2

/-- The fraction, scaled down by `2 ^ (scale - 1074)`. -/
def scaledQuotient (numerator denominator scale : Nat) : Nat × Nat :=
  (numerator * power 1074, denominator * power scale)

/-- The scale at which the fraction has a significand of 53 bits, or the least scale when it is too small
for that. -/
def scaleOfRatio (numerator denominator : Nat) : Nat :=
  let guess := (Nat.log2 numerator + 1074) - (Nat.log2 denominator + 53)
  let (top, bottom) := scaledQuotient numerator denominator guess
  if top / bottom < 2 * unit then guess else guess + 1

/-- The magnitude nearest to a fraction; it may exceed the magnitude of infinity. -/
def magnitudeOfRatio (numerator denominator : Nat) : Nat :=
  if numerator = 0 then 0
  else
    let scale := scaleOfRatio numerator denominator
    let (top, bottom) := scaledQuotient numerator denominator scale
    scale * unit + roundQuotient top bottom

/-- The number nearest to a fraction, a tie to the even significand; nothing when it would be infinite. -/
def ofRatio? (negative : Bool) (numerator denominator : Nat) : Option Binary64 :=
  let magnitude := magnitudeOfRatio numerator denominator
  if magnitude < infiniteMagnitude then some (ofMagnitude negative magnitude) else none

/-- The number nearest to an integer of the machine. -/
def ofInt (value : Int) : Binary64 :=
  (ofRatio? (value < 0) value.natAbs 1).getD (infinity (value < 0))

def decimalRatio (digits : Nat) (exponent : Int) : Nat × Nat :=
  if exponent < 0 then (digits, Nat.pow 10 exponent.natAbs) else (digits * Nat.pow 10 exponent.natAbs, 1)

/-- The number nearest to a decimal, `digits * 10 ^ exponent`. An exponent far out of range is decided
without computing the power. -/
def ofDecimal? (negative : Bool) (digits : Nat) (exponent : Int) : Option Binary64 :=
  if digits = 0 then some (ofMagnitude negative 0)
  else if 310 < exponent then none
  else if exponent + (Nat.log2 digits + 1) < -330 then some (ofMagnitude negative 0)
  else
    let (numerator, denominator) := decimalRatio digits exponent
    ofRatio? negative numerator denominator

/-- The rounded product of two finite magnitudes, with the sign given. -/
def product? (negative : Bool) (first second : Binary64) : Option Binary64 :=
  let (top, bottom) := first.ratio
  let (factor, divisor) := second.ratio
  ofRatio? negative (top * factor) (bottom * divisor)

/-- The rounded quotient of two finite magnitudes, the second of them not zero. -/
def quotient? (negative : Bool) (first second : Binary64) : Option Binary64 :=
  let (top, bottom) := first.ratio
  let (factor, divisor) := second.ratio
  ofRatio? negative (top * divisor) (bottom * factor)

end Binary64

end Spellcast
