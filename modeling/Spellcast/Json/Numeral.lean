import Spellcast.Json

/-!
# Numerals

A number as it is written in JSON, and the value it stands for. The digits are gathered into a significand of
64 bits; digits that no longer fit only move the exponent. The significand, as a binary number, is then scaled
by one product or quotient with a power of ten, so a numeral of many digits may end next to the nearest number.
-/

namespace Spellcast

/-- A number as it is written: the sign, the digits before the point, the digits after it, and the exponent
with its sign. -/
structure Numeral where
  negative : Bool
  whole : List Char
  fraction : Option (List Char)
  exponent : Option (Bool × List Char)
deriving DecidableEq

namespace Numeral

def digitValue (digit : Char) : Nat := digit.toNat - '0'.toNat

def greatest : Nat := 0xFFFFFFFFFFFFFFFF

def greatestExponent : Nat := 0x7FFFFFFF

/-- The digits before the point: the significand they make, and the number of digits from the first one on
that did not fit. -/
def gatherWhole : Nat → List Char → Nat × Nat
  | significand, [] => (significand, 0)
  | significand, digit :: rest =>
    let next := significand * 10 + digitValue digit
    if greatest < next then (significand, rest.length + 1) else gatherWhole next rest

/-- The digits after the point: the significand with those that fit, and their number. -/
def gatherFraction : Nat → Nat → List Char → Nat × Nat
  | significand, count, [] => (significand, count)
  | significand, count, digit :: rest =>
    let next := significand * 10 + digitValue digit
    if greatest < next then (significand, count) else gatherFraction next (count + 1) rest

/-- The significand of a numeral and the power of ten it is scaled by, before the written exponent. -/
def parts (numeral : Numeral) : Nat × Int :=
  let (whole, dropped) := gatherWhole 0 numeral.whole
  match numeral.fraction with
  | none => (whole, dropped)
  | some digits =>
    let (significand, count) := gatherFraction whole 0 digits
    (significand, (dropped : Int) - count)

def powerOfTen (exponent : Nat) : Binary64 :=
  (Binary64.ofDecimal? false 1 exponent).getD (Binary64.infinity false)

/-- Divides by the power of ten. An exponent beyond the greatest power is brought down in steps. -/
def shrink (negative : Bool) : Nat → Binary64 → Nat → Binary64
  | 0, value, _ => value
  | steps + 1, value, exponent =>
    if exponent ≤ 308 then (Binary64.quotient? negative value (powerOfTen exponent)).getD value
    else if value.magnitude = 0 then value
    else
      shrink negative steps
        ((Binary64.quotient? negative value (powerOfTen 308)).getD value) (exponent - 308)

/-- The significand times a power of ten; nothing when that is too large. A significand below `2 ^ 64` is
used up by four steps of 308 powers of ten. -/
def scaled? (negative : Bool) (significand : Nat) (exponent : Int) : Option Binary64 :=
  match Binary64.ofRatio? negative significand 1 with
  | none => none
  | some value =>
    if exponent < 0 then some (shrink negative 4 value exponent.natAbs)
    else if exponent ≤ 308 then Binary64.product? negative value (powerOfTen exponent.natAbs)
    else if significand = 0 then some value
    else none

/-- The exponent as it is written, or nothing when it has too many digits. -/
def writtenExponent? (digits : List Char) : Option Nat :=
  let value := digits.foldl (fun sum digit => sum * 10 + digitValue digit) 0
  if greatestExponent < value then none else some value

def clampExponent (exponent : Int) : Int :=
  max (-0x80000000) (min 0x7FFFFFFF exponent)

/-- The value of a numeral. Without a point and an exponent it is an integer as long as it fits 64 bits; a
negative zero and integers that do not fit are binary numbers. Nothing when it is too large for those. -/
def value? (numeral : Numeral) : Option Json :=
  let (significand, power) := numeral.parts
  match numeral.exponent with
  | some (falling, digits) =>
    match writtenExponent? digits with
    | some exponent =>
      let total := clampExponent (if falling then power - exponent else power + exponent)
      (scaled? numeral.negative significand total).map .real
    | none =>
      if significand ≠ 0 ∧ !falling then none
      else some (.real (Binary64.ofMagnitude numeral.negative 0))
  | none =>
    match numeral.fraction with
    | some _ => (scaled? numeral.negative significand power).map .real
    | none =>
      if power ≠ 0 then (scaled? numeral.negative significand power).map .real
      else if !numeral.negative then some (.int significand)
      else if significand = 0 ∨ 0x8000000000000000 < significand then (scaled? true significand 0).map .real
      else some (.int (-significand))

end Numeral

end Spellcast
