import Spellcast.Json
import Spellcast.Number.Shortest

/-!
# Writing JSON

One printer for both spacings: `compact` writes no blank at all, `indented` puts every item on a line of its
own, two columns further in for each level.
-/

namespace Spellcast.Json

/-- How much room the items of a text get. -/
inductive Spacing where
  | compact
  | indented
deriving DecidableEq

/-- Binary numbers in JSON: a positive exponent carries its sign. -/
def realLayout : Layout := ⟨true⟩

def hexDigit (value : Nat) : Char :=
  if value < 10 then Char.ofNat (value + 48) else Char.ofNat (value + 87)

/-- A character inside quotes: the quote, the backslash and the control characters are escaped, everything
else stands for itself. -/
def escapeChar (character : Char) : List Char :=
  match character with
  | '"' => ['\\', '"']
  | '\\' => ['\\', '\\']
  | '\n' => ['\\', 'n']
  | '\r' => ['\\', 'r']
  | '\t' => ['\\', 't']
  | _ =>
    if character.toNat = 8 then ['\\', 'b']
    else if character.toNat = 12 then ['\\', 'f']
    else if character.toNat < 32 then
      ['\\', 'u', '0', '0', hexDigit (character.toNat / 16), hexDigit (character.toNat % 16)]
    else [character]

def quoted (content : String) : List Char :=
  '"' :: content.toList.flatMap escapeChar ++ ['"']

def intChars (value : Int) : List Char :=
  if value < 0 then '-' :: Layout.digitsOf value.natAbs else Layout.digitsOf value.natAbs

/-- What stands in front of an item at the given level: nothing, or a line break and the indentation. -/
def gap : Spacing → Nat → List Char
  | .compact, _ => []
  | .indented, level => '\n' :: List.replicate (2 * level) ' '

def colon : Spacing → List Char
  | .compact => [':']
  | .indented => [':', ' ']

mutual

def chars (spacing : Spacing) (level : Nat) : Json → List Char
  | null => ['n', 'u', 'l', 'l']
  | bool true => ['t', 'r', 'u', 'e']
  | bool false => ['f', 'a', 'l', 's', 'e']
  | int value => intChars value
  | real value => realLayout.chars value
  | text content => quoted content
  | list [] => ['[', ']']
  | list (first :: rest) =>
    '[' :: gap spacing (level + 1) ++ chars spacing (level + 1) first ++
      itemChars spacing (level + 1) rest ++ gap spacing level ++ [']']
  | object [] => ['\x7b', '\x7d']
  | object ((key, first) :: rest) =>
    '\x7b' :: gap spacing (level + 1) ++ quoted key ++ colon spacing ++
      chars spacing (level + 1) first ++ fieldChars spacing (level + 1) rest ++ gap spacing level ++ ['\x7d']

/-- The characters of the items after the first, each behind a comma. -/
def itemChars (spacing : Spacing) (level : Nat) : List Json → List Char
  | [] => []
  | item :: rest => ',' :: gap spacing level ++ chars spacing level item ++ itemChars spacing level rest

/-- The characters of the fields after the first, each behind a comma. -/
def fieldChars (spacing : Spacing) (level : Nat) : List (String × Json) → List Char
  | [] => []
  | (key, value) :: rest =>
    ',' :: gap spacing level ++ quoted key ++ colon spacing ++ chars spacing level value ++
      fieldChars spacing level rest

end

def compact (value : Json) : String := String.ofList (chars .compact 0 value)

def pretty (value : Json) : String := String.ofList (chars .indented 0 value)

end Spellcast.Json
