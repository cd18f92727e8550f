import Spellcast.Yaml.Cursor

/-!
# Tags of YAML

Tags as they are written and what they mean. A tag is a row of bytes, since any byte can be written in it as a
percent sign with two digits; it need not be a text, and it ends at its first zero byte.
-/

namespace Spellcast.Yaml

inductive Tag where
  | bool
  | int
  | float
  | null
  /-- A tag that a document makes up. -/
  | custom
  /-- A tag that begins like a made up one and is no text. -/
  | garbled
  /-- Any other tag. -/
  | other
deriving DecidableEq

namespace Tag

def bytesOf (text : String) : List UInt8 := text.toUTF8.toList

def standard : List UInt8 := bytesOf "tag:yaml.org,2002:"

def isText (bytes : List UInt8) : Bool := (String.fromUTF8? ⟨bytes.toArray⟩).isSome

def ofBytes (bytes : List UInt8) : Tag :=
  if bytes = standard ++ bytesOf "bool" then .bool
  else if bytes = standard ++ bytesOf "int" then .int
  else if bytes = standard ++ bytesOf "float" then .float
  else if bytes = standard ++ bytesOf "null" then .null
  else if bytes.take 1 = bytesOf "!" then if isText bytes then .custom else .garbled
  else .other

end Tag

/-- A tag as it is written: a handle that stands for the beginning of it, and the rest. -/
structure TagName where
  handle : String
  suffix : List UInt8
deriving DecidableEq

namespace TagName

/-- What is left of a tag that ends at its first zero byte. -/
def cut (bytes : List UInt8) : List UInt8 := bytes.takeWhile (· ≠ 0)

/-- A character of a tag. Brackets and commas only stand where nothing else can be meant. -/
def isTagChar (anywhere : Bool) (character : Char) : Bool :=
  isWordChar character ||
    [';', '/', '?', ':', '@', '&', '=', '+', '$', '.', '!', '~', '*', '\'', '(', ')'].contains character ||
    (anywhere && [',', '[', ']'].contains character)

/-- The byte of a character of a tag; all of them are ASCII characters. -/
def byteOf (character : Char) : UInt8 := UInt8.ofNat character.toNat

/-- How many bytes a character takes whose first byte is this one. -/
def widthOfByte? (byte : UInt8) : Option Nat :=
  if byte < 0x80 then some 1
  else if 0xC0 ≤ byte ∧ byte < 0xE0 then some 2
  else if 0xE0 ≤ byte ∧ byte < 0xF0 then some 3
  else if 0xF0 ≤ byte ∧ byte < 0xF8 then some 4
  else none

def readByte? : List Char → Option (UInt8 × List Char)
  | '%' :: high :: low :: rest => (hexNumber? [high, low]).map fun byte => (UInt8.ofNat byte, rest)
  | _ => none

def readFurther? : Nat → List Char → Option (List UInt8 × List Char)
  | 0, input => some ([], input)
  | count + 1, input => do
    let (byte, rest) ← readByte? input
    if byte < 0x80 ∨ 0xC0 ≤ byte then none
    else
      let (bytes, rest) ← readFurther? count rest
      some (byte :: bytes, rest)

/-- Reads the bytes of one character. Only their shape is looked at: together they may stand for no character. -/
def readEscape? (input : List Char) : Option (List UInt8 × List Char) := do
  let (first, rest) ← readByte? input
  let width ← widthOfByte? first
  let (others, rest) ← readFurther? (width - 1) rest
  some (first :: others, rest)

/-- Reads the bytes of a tag. The first argument bounds the number of characters. -/
def readBytes? (anywhere : Bool) : Nat → List Char → Option (List UInt8 × List Char)
  | 0, input => some ([], input)
  | _, [] => some ([], [])
  | bound + 1, '%' :: input => do
    let (bytes, rest) ← readEscape? ('%' :: input)
    let (others, rest) ← readBytes? anywhere bound rest
    some (bytes ++ others, rest)
  | bound + 1, character :: input =>
    if isTagChar anywhere character then do
      let (others, rest) ← readBytes? anywhere bound input
      some (byteOf character :: others, rest)
    else some ([], character :: input)

def readPart? (anywhere : Bool) (cursor : Cursor) : Option (List UInt8 × Cursor) := do
  let (bytes, rest) ← readBytes? anywhere cursor.rest.length cursor.rest
  some (bytes, cursor.advance (cursor.rest.length - rest.length))

/-- The exclamation mark at a cursor, the word behind it, and a second exclamation mark if one follows. -/
def readHandle (cursor : Cursor) : List Char × Cursor :=
  let word := (cursor.rest.drop 1).takeWhile isWordChar
  match cursor.rest.drop (1 + word.length) with
  | '!' :: _ => ('!' :: word ++ ['!'], cursor.advance (word.length + 2))
  | _ => ('!' :: word, cursor.advance (word.length + 1))

def readName? (cursor : Cursor) : Option (TagName × Cursor) :=
  match cursor.rest.drop 1 with
  | '<' :: _ => do
    let (bytes, next) ← readPart? true (cursor.advance 2)
    if bytes.isEmpty ∨ next.rest.head? ≠ some '>' then none
    else some (⟨"", cut bytes⟩, next.advance 1)
  | _ =>
    let (handle, next) := readHandle cursor
    if 1 < handle.length ∧ handle.getLast? = some '!' then do
      let (bytes, next) ← readPart? false next
      if bytes.isEmpty then none else some (⟨String.ofList handle, cut bytes⟩, next)
    else do
      let (bytes, next) ← readPart? false next
      let suffix := cut ((handle.drop 1).map byteOf ++ bytes)
      if suffix.isEmpty then some (⟨"", Tag.bytesOf "!"⟩, next) else some (⟨"!", suffix⟩, next)

/-- Reads a tag. Inside of brackets a comma may follow it. -/
def read? (inBrackets : Bool) (cursor : Cursor) : Option (TagName × Cursor) := do
  let (name, next) ← readName? cursor
  if startsWithGap next.rest ∨ (inBrackets ∧ next.rest.head? = some ',') then some (name, next) else none

end TagName

end Spellcast.Yaml
