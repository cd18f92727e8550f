import Spellcast.Number.Binary64

/-!
# Decimals with a fixed number of places

The text of a number with a given number of digits behind the point. The nearest such decimal is taken, of two the one
with an even last digit.
-/

namespace Spellcast.Fixed

/-- The last digits of a number, with zeros in front if there are fewer. -/
def lastDigits (count number : Nat) : List Char :=
  let digits := Nat.toDigits 10 (number % Nat.pow 10 count)
  List.replicate (count - digits.length) '0' ++ digits

/-- The text of a fraction with so many places, at least one. -/
def ofRatio (places numerator denominator : Nat) : String :=
  let scaled := Binary64.roundQuotient (numerator * Nat.pow 10 places) denominator
  String.ofList (Nat.toDigits 10 (scaled / Nat.pow 10 places) ++ '.' :: lastDigits places scaled)

/-- The text of a finite number with so many places, at least one. -/
def ofBinary64 (places : Nat) (number : Binary64) : String :=
  let (numerator, denominator) := number.ratio
  let text := ofRatio places numerator denominator
  if number.isNegative then "-" ++ text else text

end Spellcast.Fixed
