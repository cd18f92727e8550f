import Spellcast.Text.Unseen

/-!
# Blank text and quoted text

The characters that count as blank, and the text of a value between quotes as diagnostics show it.
-/

namespace Spellcast.Text

def isBlankChar (character : Char) : Bool :=
  let code := character.toNat
  (9 ≤ code && code ≤ 13) || code == 0x20 || code == 0x85 || code == 0xA0 || code == 0x1680 ||
    (0x2000 ≤ code && code ≤ 0x200A) || code == 0x2028 || code == 0x2029 || code == 0x202F ||
    code == 0x205F || code == 0x3000

def isBlank (text : String) : Bool := text.toList.all isBlankChar

/-- The text without the white space at both ends. -/
def trim (text : List Char) : List Char :=
  ((text.dropWhile isBlankChar).reverse.dropWhile isBlankChar).reverse

def hexDigits (value : Nat) : List Char := Nat.toDigits 16 value

/-- A character as diagnostics show it inside quotes: the quote, the backslash and characters that cannot be
seen are escaped. -/
def debugChar (character : Char) : List Char :=
  match character with
  | '\"' => ['\\', '"']
  | '\\' => ['\\', '\\']
  | '\n' => ['\\', 'n']
  | '\r' => ['\\', 'r']
  | '\t' => ['\\', 't']
  | _ =>
    if character.toNat = 0 then ['\\', '0']
    else if isUnseen character then
      ['\\', 'u', '\x7b'] ++ hexDigits character.toNat ++ ['\x7d']
    else [character]

end Spellcast.Text
