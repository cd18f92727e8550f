/-!
# Places in a YAML text

The characters that YAML knows, and a cursor that goes through a text and counts lines and columns. Every step
of a cursor leaves it at the same place or behind it.
-/

namespace Spellcast.Yaml

def isBreak (character : Char) : Bool :=
  let code := character.toNat
  code == 0x0A || code == 0x0D || code == 0x85 || code == 0x2028 || code == 0x2029

def isBlank (character : Char) : Bool := character == ' ' || character == '\t'

def isGap (character : Char) : Bool := isBlank character || isBreak character

def isWordChar (character : Char) : Bool :=
  ('0' ≤ character && character ≤ '9') || ('a' ≤ character && character ≤ 'z') ||
    ('A' ≤ character && character ≤ 'Z') || character == '_' || character == '-'

def isAllowed (character : Char) : Bool :=
  let code := character.toNat
  code == 0x09 || code == 0x0A || code == 0x0D || (0x20 ≤ code && code ≤ 0x7E) || code == 0x85 ||
    (0xA0 ≤ code && code ≤ 0xFFFD) || 0x10000 ≤ code

/-- The text begins with a blank, with a line break, or not at all. -/
def startsWithGap : List Char → Bool
  | [] => true
  | character :: _ => isGap character

def hexDigit? (digit : Char) : Option Nat :=
  if '0' ≤ digit ∧ digit ≤ '9' then some (digit.toNat - 48)
  else if 'a' ≤ digit ∧ digit ≤ 'f' then some (digit.toNat - 87)
  else if 'A' ≤ digit ∧ digit ≤ 'F' then some (digit.toNat - 55)
  else none

def hexNumber? (digits : List Char) : Option Nat :=
  digits.foldlM (fun number digit => (hexDigit? digit).map (number * 16 + ·)) 0

/-- A place in a text: what follows it, and how many characters, lines and columns are in front of it. -/
structure Cursor where
  rest : List Char
  index : Nat
  line : Nat
  column : Nat
deriving DecidableEq

namespace Cursor

def start (text : List Char) : Cursor := ⟨text, 0, 0, 0⟩

def advance (cursor : Cursor) (count : Nat) : Cursor :=
  let count := min count cursor.rest.length
  { cursor with
    rest := cursor.rest.drop count, index := cursor.index + count, column := cursor.column + count }

def advanceWhile (cursor : Cursor) (test : Char → Bool) : Cursor :=
  cursor.advance (cursor.rest.takeWhile test).length

/-- The line break at the cursor as a text keeps it, and the start of the next line; nothing and the same place
if there is no line break. -/
def lineBreak (cursor : Cursor) : List Char × Cursor :=
  match cursor.rest with
  | '\r' :: '\n' :: rest => (['\n'], ⟨rest, cursor.index + 2, cursor.line + 1, 0⟩)
  | character :: rest =>
    let next : Cursor := ⟨rest, cursor.index + 1, cursor.line + 1, 0⟩
    if character.toNat = 0x2028 ∨ character.toNat = 0x2029 then ([character], next)
    else if isBreak character then (['\n'], next)
    else ([], cursor)
  | [] => ([], cursor)

/-- Goes to the next line, if the cursor is at the end of one. -/
def nextLine (cursor : Cursor) : Cursor := cursor.lineBreak.2

def atEnd (cursor : Cursor) : Bool := cursor.rest.isEmpty

def atBreak (cursor : Cursor) : Bool :=
  match cursor.rest with
  | character :: _ => isBreak character
  | [] => false

def atLineEnd (cursor : Cursor) : Bool := cursor.atEnd || cursor.atBreak

def atBlank (cursor : Cursor) : Bool :=
  match cursor.rest with
  | character :: _ => isBlank character
  | [] => false

/-- A line begins at the cursor with three of one character and nothing close behind them. -/
def atMarker (cursor : Cursor) (mark : Char) : Bool :=
  match cursor.rest with
  | first :: second :: third :: rest =>
    cursor.column == 0 && first == mark && second == mark && third == mark && startsWithGap rest
  | _ => false

def atDocumentMarker (cursor : Cursor) : Bool := cursor.atMarker '-' || cursor.atMarker '.'

end Cursor

end Spellcast.Yaml
