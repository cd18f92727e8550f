import Spellcast.Number.Binary64

/-!
# The shortest decimal of a binary number

The fewest significant digits that read back as the same number: of the decimals with that many digits, the
one nearest to it. `Layout.text` then places the point: positionally for exponents from -5 to 15, with an
exponent otherwise.
-/

namespace Spellcast

/-- A positive decimal `digits * 10 ^ exponent`. -/
structure Decimal where
  digits : Nat
  exponent : Int
deriving DecidableEq

namespace Decimal

def ratio (decimal : Decimal) : Nat × Nat :=
  Binary64.decimalRatio decimal.digits decimal.exponent

end Decimal

/-- The fraction `first / second` is at most the fraction `third / fourth`. -/
def ratioLE (first second third fourth : Nat) : Bool :=
  first * fourth ≤ third * second

def leadingExponent (numerator denominator : Nat) : Int :=
  let guess : Int := ((Nat.log2 numerator : Int) - Nat.log2 denominator) * 30103 / 100000
  let reaches (exponent : Int) : Bool :=
    let (top, bottom) := Binary64.decimalRatio 1 exponent
    ratioLE top bottom numerator denominator
  if reaches (guess + 1) then guess + 1
  else if reaches guess then guess
  else guess - 1

namespace Binary64

/-- Twice the numbers that bound the decimals reading back as the given magnitude, over the denominator
`2 ^ 1075`: the midpoints to its two neighbours. -/
def bounds (number : Binary64) : Nat × Nat :=
  let center := 2 * number.significand * power number.scale
  let step := power number.scale
  let below := if number.significand = unit ∧ 0 < number.scale then step / 2 else step
  (center - below, center + step)

/-- The decimal reads back as the number: it lies between the midpoints to the neighbours, and on a midpoint
only when the significand is even. -/
def readsBack (number : Binary64) (decimal : Decimal) : Bool :=
  let (lower, upper) := number.bounds
  let (top, bottom) := decimal.ratio
  let denominator := power 1075
  if number.significand % 2 = 0 then
    ratioLE lower denominator top bottom && ratioLE top bottom upper denominator
  else
    !ratioLE top bottom lower denominator && !ratioLE upper denominator top bottom

/-- Of the decimals on the grid with the given exponent, the nearest to the number among those that read
back. -/
def nearestOnGrid? (number : Binary64) (exponent : Int) : Option Decimal :=
  let (top, bottom) := number.ratio
  let (numerator, denominator) :=
    if exponent < 0 then (top * Nat.pow 10 exponent.natAbs, bottom) else (top, bottom * Nat.pow 10 exponent.natAbs)
  let floor : Decimal := ⟨numerator / denominator, exponent⟩
  let ceiling : Decimal := ⟨numerator / denominator + 1, exponent⟩
  let rest := 2 * (numerator % denominator)
  let candidates :=
    if rest < denominator || (rest == denominator && floor.digits % 2 == 0) then [floor, ceiling]
    else [ceiling, floor]
  candidates.find? fun decimal => decide (0 < decimal.digits) && number.readsBack decimal

/-- The shortest decimal of a positive finite number. Seventeen digits always suffice. -/
def shortest (number : Binary64) : Decimal :=
  let (top, bottom) := number.ratio
  let leading := leadingExponent top bottom
  ((List.range 17).findSome? fun (count : Nat) => number.nearestOnGrid? (leading - (count : Int))).getD ⟨0, 0⟩

end Binary64

/-- How a decimal is laid out: whether a positive exponent carries a plus sign. -/
structure Layout where
  signedExponent : Bool
deriving DecidableEq

namespace Layout

def digitsOf (number : Nat) : List Char := (Nat.toDigits 10 number)

/-- Removes the zeros at the end of the digits, moving them into the exponent. -/
def trim (decimal : Decimal) : Nat → Decimal
  | 0 => decimal
  | fuel + 1 =>
    if 0 < decimal.digits ∧ decimal.digits % 10 = 0 then
      trim ⟨decimal.digits / 10, decimal.exponent + 1⟩ fuel
    else decimal

def decimalChars (layout : Layout) (decimal : Decimal) : List Char :=
  let digits := digitsOf decimal.digits
  let count : Int := digits.length
  let leading := count + decimal.exponent - 1
  if leading < -5 ∨ 15 < leading then
    let sign := if leading < 0 then ['-'] else if layout.signedExponent then ['+'] else []
    let mantissa := match digits with
      | [] => []
      | [digit] => [digit]
      | digit :: rest => digit :: '.' :: rest
    mantissa ++ 'e' :: sign ++ digitsOf leading.natAbs
  else if 0 ≤ decimal.exponent then
    digits ++ List.replicate decimal.exponent.toNat '0' ++ ['.', '0']
  else if 0 ≤ leading then
    let whole := (leading + 1).toNat
    digits.take whole ++ '.' :: digits.drop whole
  else
    '0' :: '.' :: List.replicate (-leading - 1).toNat '0' ++ digits

/-- The text of a finite number: its shortest decimal, with a point or an exponent in any case. -/
def chars (layout : Layout) (number : Binary64) : List Char :=
  let body :=
    if number.magnitude = 0 then ['0', '.', '0']
    else layout.decimalChars (trim number.shortest 17)
  if number.isNegative then '-' :: body else body

end Layout

end Spellcast
