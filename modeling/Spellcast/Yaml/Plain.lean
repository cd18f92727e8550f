import Spellcast.Json
import Spellcast.Yaml.Cursor

/-!
# What plain texts stand for

A plain text of YAML may stand for null, for a truth value or for a number; all others stand for themselves.
Integers can also be written in the bases two, eight and sixteen. A number with needless zeros in front of it is
no number.
-/

namespace Spellcast.Yaml

def isNullWord (text : String) : Bool := ["null", "Null", "NULL", "~"].contains text

def boolOfWord? (text : String) : Option Bool :=
  if ["true", "True", "TRUE"].contains text then some true
  else if ["false", "False", "FALSE"].contains text then some false
  else none

def digitIn? (base : Nat) (digit : Char) : Option Nat :=
  (hexDigit? digit).filter (· < base)

/-- The natural number that some digits make in a base; at least one digit is needed. -/
def naturalIn? (base : Nat) (digits : List Char) : Option Nat :=
  if digits.isEmpty then none
  else digits.foldlM (fun number digit => (digitIn? base digit).map (number * base + ·)) 0

def baseOf? : Char → Option Nat
  | 'x' => some 16
  | 'o' => some 8
  | 'b' => some 2
  | _ => none

def hasNeedlessZero (digits : List Char) : Bool :=
  match digits with
  | '0' :: _ :: _ => digits.all Char.isDigit
  | _ => false

def unsigned? (text : List Char) : Option Nat :=
  let based : Option Nat := match text with
    | '0' :: letter :: digits => (baseOf? letter).bind (naturalIn? · digits)
    | _ => none
  match based with
  | some number => some number
  | none => if hasNeedlessZero text then none else naturalIn? 10 text

/-- The integer that a text stands for, and whether it carries a minus sign. -/
def integer? (text : List Char) : Option (Bool × Nat) :=
  match text with
  | '-' :: rest => (unsigned? rest).map (true, ·)
  | '+' :: rest => (unsigned? rest).map (false, ·)
  | rest => (unsigned? rest).map (false, ·)

def natural? (limit : Nat) (text : String) : Option Nat :=
  match integer? text.toList with
  | some (false, number) => if number ≤ limit then some number else none
  | _ => none

/-- The digits of an exponent with its sign; nothing if something else follows. -/
def exponent? (text : List Char) : Option Int :=
  let number (digits : List Char) : Option Int := (naturalIn? 10 digits).map Int.ofNat
  match text with
  | [] => some 0
  | letter :: rest =>
    if letter = 'e' ∨ letter = 'E' then
      match rest with
      | '-' :: digits => (number digits).map Int.neg
      | '+' :: digits => number digits
      | digits => number digits
    else none

/-- The digits of a number with a point as one number, and the power of ten it is scaled by. -/
def decimal? (text : List Char) : Option (Nat × Int) := do
  let (whole, rest) := text.span Char.isDigit
  let (fraction, rest) := match rest with
    | '.' :: rest => rest.span Char.isDigit
    | rest => ([], rest)
  let digits ← naturalIn? 10 (whole ++ fraction)
  let exponent ← exponent? rest
  some (digits, exponent - fraction.length)

def finite? (text : List Char) : Option Binary64 :=
  let read (negative : Bool) (rest : List Char) : Option Binary64 := do
    let (digits, exponent) ← decimal? rest
    Binary64.ofDecimal? negative digits exponent
  match text with
  | '-' :: rest => read true rest
  | '+' :: rest => read false rest
  | rest => read false rest

def isUnbounded (text : String) : Bool :=
  [".inf", ".Inf", ".INF", "+.inf", "+.Inf", "+.INF", "-.inf", "-.Inf", "-.INF", ".nan", ".NaN",
    ".NAN"].contains text

inductive Meaning where
  | null
  | bool (value : Bool)
  | integer (value : Int)
  /-- A number with a point; none for infinity and for what is no number. -/
  | real (value : Option Binary64)
  | text
deriving DecidableEq

/-- The least and the greatest integer that a text can stand for; all others are numbers with a point. -/
def leastInteger : Int := -0x80000000000000000000000000000000

def greatestNatural : Nat := 0xFFFFFFFFFFFFFFFFFFFFFFFFFFFFFFFF

/-- The integer that a text stands for, if it is not too large for one. -/
def bounded? (text : List Char) : Option Int :=
  match integer? text with
  | some (false, number) => if number ≤ greatestNatural then some number else none
  | some (true, number) => if leastInteger ≤ -(number : Int) then some (-number) else none
  | none => none

def real? (text : String) : Option (Option Binary64) :=
  if isUnbounded text then some none else (finite? text.toList).map some

/-- The text begins with a sign that is followed by needless zeros, or with those. -/
def isZeroPadded (text : List Char) : Bool :=
  match text with
  | '-' :: rest => hasNeedlessZero rest
  | '+' :: rest => hasNeedlessZero rest
  | rest => hasNeedlessZero rest

def Meaning.ofText (text : String) : Meaning :=
  if text.isEmpty ∨ isNullWord text then .null
  else
    match boolOfWord? text with
    | some value => .bool value
    | none =>
      match bounded? text.toList with
      | some value => .integer value
      | none =>
        if isZeroPadded text.toList then .text
        else
          match real? text with
          | some value => .real value
          | none => .text

/-- The JSON value of a meaning, with the text itself for those that have none. Integers beyond 64 bits have no
JSON value, and neither infinity nor what is no number is kept. -/
def Meaning.json? (text : String) : Meaning → Option Json
  | null => some .null
  | bool value => some (.bool value)
  | integer value => if -0x8000000000000000 ≤ value ∧ value ≤ 0xFFFFFFFFFFFFFFFF then some (.int value) else none
  | real (some value) => some (.real value)
  | real none => some .null
  | Meaning.text => some (.text text)

end Spellcast.Yaml
