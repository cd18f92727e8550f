import Spellcast.Json.Numeral

/-!
# The syntax tree of a JSON text

A JSON text as far as it can be read. A fault of the text stays in the tree at the place where it stands, so
that whoever reads the tree in order meets what the text says before the fault first. Numbers keep their
spelling, objects their repeated keys, and a text that escapes half a surrogate pair keeps no content: these are
faults only where a value is wanted, and not where it is passed over.
-/

namespace Spellcast.Json

/-- What a JSON text says, in order, up to its first fault. -/
inductive Tree where
  | null
  | bool (value : Bool)
  | number (numeral : Numeral)
  /-- A text, without content if it escapes half a surrogate pair. -/
  | text (content : Option String)
  /-- The items of a list, and whether it is closed behind them. -/
  | list (items : List Tree) (closed : Bool)
  /-- The members of an object, and whether it is closed behind them. -/
  | object (members : List (Option String × Tree)) (closed : Bool)
  /-- Here the text cannot be read on. -/
  | fault

namespace Tree

abbrev Rest := Option (List Char)

def isBlank (character : Char) : Bool :=
  character == ' ' || character == '\n' || character == '\t' || character == '\r'

def skipBlanks (input : List Char) : List Char := input.dropWhile isBlank

def spanDigits (input : List Char) : List Char × List Char := input.span Char.isDigit

/-- Reads an exponent, if one follows. -/
def readExponent (input : List Char) : Option (Option (Bool × List Char) × List Char) :=
  let digitsAfter (falling : Bool) (rest : List Char) :=
    match spanDigits rest with
    | ([], _) => none
    | (digits, rest) => some (some (falling, digits), rest)
  let signAfter (rest : List Char) :=
    match rest with
    | '+' :: rest => digitsAfter false rest
    | '-' :: rest => digitsAfter true rest
    | rest => digitsAfter false rest
  match input with
  | 'e' :: rest => signAfter rest
  | 'E' :: rest => signAfter rest
  | rest => some (none, rest)

/-- Reads a number behind its sign. A leading zero stands alone in front of the point. -/
def readNumeral (negative : Bool) (input : List Char) : Option (Numeral × List Char) :=
  match spanDigits input with
  | ([], _) => none
  | ('0' :: _ :: _, _) => none
  | (whole, '.' :: rest) =>
    match spanDigits rest with
    | ([], _) => none
    | (fraction, rest) =>
      (readExponent rest).map fun (exponent, rest) => (⟨negative, whole, some fraction, exponent⟩, rest)
  | (whole, rest) =>
    (readExponent rest).map fun (exponent, rest) => (⟨negative, whole, none, exponent⟩, rest)

def hexValue? (digit : Char) : Option Nat :=
  if '0' ≤ digit ∧ digit ≤ '9' then some (digit.toNat - 48)
  else if 'a' ≤ digit ∧ digit ≤ 'f' then some (digit.toNat - 87)
  else if 'A' ≤ digit ∧ digit ≤ 'F' then some (digit.toNat - 55)
  else none

def hexUnit? (first second third fourth : Char) : Option Nat := do
  let first ← hexValue? first
  let second ← hexValue? second
  let third ← hexValue? third
  let fourth ← hexValue? fourth
  return ((first * 16 + second) * 16 + third) * 16 + fourth

/-- A piece of a text: a character, or an escaped unit of sixteen bits that is half a surrogate pair. -/
inductive Piece where
  | character (value : Char)
  | unit (value : Nat)

def Piece.ofUnit (value : Nat) : Piece :=
  if 0xD800 ≤ value ∧ value < 0xE000 then .unit value else .character (Char.ofNat value)

def escaped? : Char → Option Char
  | '"' => some '"'
  | '\\' => some '\\'
  | '/' => some '/'
  | 'b' => some (Char.ofNat 8)
  | 'f' => some (Char.ofNat 12)
  | 'n' => some '\n'
  | 'r' => some '\r'
  | 't' => some '\t'
  | _ => none

def readPieces : List Char → Option (List Piece × List Char)
  | [] => none
  | '"' :: rest => some ([], rest)
  | '\\' :: 'u' :: first :: second :: third :: fourth :: rest =>
    match hexUnit? first second third fourth, readPieces rest with
    | some unit, some (pieces, rest) => some (Piece.ofUnit unit :: pieces, rest)
    | _, _ => none
  | '\\' :: letter :: rest =>
    match escaped? letter, readPieces rest with
    | some character, some (pieces, rest) => some (.character character :: pieces, rest)
    | _, _ => none
  | character :: rest =>
    if character = '\\' ∨ character.toNat < 32 then none
    else (readPieces rest).map fun (pieces, rest) => (.character character :: pieces, rest)

/-- The content of a text: two halves of a surrogate pair make a character, and a half that stands alone
makes none. -/
def content? : List Piece → Option (List Char)
  | [] => some []
  | .character character :: rest => (content? rest).map (character :: ·)
  | .unit high :: .unit low :: rest =>
    if high < 0xDC00 ∧ 0xDC00 ≤ low then
      (content? rest).map (Char.ofNat ((high - 0xD800) * 0x400 + (low - 0xDC00) + 0x10000) :: ·)
    else none
  | .unit _ :: _ => none

def readText (input : List Char) : Option (Option String × List Char) :=
  (readPieces input).map fun (pieces, rest) => ((content? pieces).map String.ofList, rest)

mutual

/-- Reads a value. The first argument bounds the characters still to be read. -/
def readValue : Nat → List Char → Tree × Rest
  | 0, _ => (.fault, none)
  | fuel + 1, input =>
    match skipBlanks input with
    | 'n' :: 'u' :: 'l' :: 'l' :: rest => (.null, some rest)
    | 't' :: 'r' :: 'u' :: 'e' :: rest => (.bool true, some rest)
    | 'f' :: 'a' :: 'l' :: 's' :: 'e' :: rest => (.bool false, some rest)
    | '"' :: rest =>
      match readText rest with
      | some (content, rest) => (.text content, some rest)
      | none => (.fault, none)
    | '[' :: rest =>
      match skipBlanks rest with
      | ']' :: rest => (.list [] true, some rest)
      | rest =>
        let (items, rest) := readItems fuel rest
        (.list items rest.isSome, rest)
    | '\x7b' :: rest =>
      match skipBlanks rest with
      | '\x7d' :: rest => (.object [] true, some rest)
      | rest =>
        let (members, rest) := readMembers fuel rest
        (.object members rest.isSome, rest)
    | '-' :: rest =>
      match readNumeral true rest with
      | some (numeral, rest) => (.number numeral, some rest)
      | none => (.fault, none)
    | rest =>
      match readNumeral false rest with
      | some (numeral, rest) => (.number numeral, some rest)
      | none => (.fault, none)

def readItems : Nat → List Char → List Tree × Rest
  | 0, _ => ([.fault], none)
  | fuel + 1, input =>
    match readValue fuel input with
    | (item, none) => ([item], none)
    | (item, some rest) =>
      match skipBlanks rest with
      | ']' :: rest => ([item], some rest)
      | ',' :: rest =>
        let (items, rest) := readItems fuel rest
        (item :: items, rest)
      | _ => ([item], none)

def readMembers : Nat → List Char → List (Option String × Tree) × Rest
  | 0, _ => ([], none)
  | fuel + 1, input =>
    match skipBlanks input with
    | '"' :: rest =>
      match readText rest with
      | none => ([], none)
      | some (key, rest) =>
        match skipBlanks rest with
        | ':' :: rest =>
          match readValue fuel rest with
          | (value, none) => ([(key, value)], none)
          | (value, some rest) =>
            match skipBlanks rest with
            | '\x7d' :: rest => ([(key, value)], some rest)
            | ',' :: rest =>
              let (members, rest) := readMembers fuel rest
              ((key, value) :: members, rest)
            | _ => ([(key, value)], none)
        | _ => ([(key, .fault)], none)
    | _ => ([], none)

end

/-- Reads a whole text: its tree, and whether nothing but blanks follows what was read. -/
def ofChars (input : List Char) : Tree × Bool :=
  match readValue (2 * input.length + 2) input with
  | (tree, some rest) => (tree, (skipBlanks rest).isEmpty)
  | (tree, none) => (tree, false)

def ofText (input : String) : Tree × Bool := ofChars input.toList

end Tree

end Spellcast.Json
