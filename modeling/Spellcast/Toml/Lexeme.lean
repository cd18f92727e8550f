import Spellcast.Number.Binary64

/-!
# The words of TOML

How the words of a TOML text are read: blanks, comments, keys, texts, numbers, dates and times. Every reader
answers what it has read and what follows it, or nothing if the text is wrong.
-/

namespace Spellcast.Toml

def isBlank (character : Char) : Bool := character == ' ' || character == '\t'

def isForeign (character : Char) : Bool := 0x80 ≤ character.toNat

def isVisible (character : Char) : Bool :=
  character == '\t' || (0x20 ≤ character.toNat && character.toNat ≤ 0x7E) || isForeign character

def isKeyChar (character : Char) : Bool :=
  character.isDigit || ('a' ≤ character && character ≤ 'z') || ('A' ≤ character && character ≤ 'Z') ||
    character == '_' || character == '-'

def hexDigit? (digit : Char) : Option Nat :=
  if '0' ≤ digit ∧ digit ≤ '9' then some (digit.toNat - 48)
  else if 'a' ≤ digit ∧ digit ≤ 'f' then some (digit.toNat - 87)
  else if 'A' ≤ digit ∧ digit ≤ 'F' then some (digit.toNat - 55)
  else none

def skipBlanks (input : List Char) : List Char := input.dropWhile isBlank

def lineBreak? : List Char → Option (List Char)
  | '\n' :: rest => some rest
  | '\r' :: '\n' :: rest => some rest
  | _ => none

/-- The text behind a comment, if there is one. -/
def skipComment (input : List Char) : List Char :=
  match input with
  | '#' :: rest => rest.dropWhile isVisible
  | rest => rest

/-- The text behind the rest of a line, which holds nothing but blanks and a comment. -/
def endLine? (input : List Char) : Option (List Char) :=
  match skipComment (skipBlanks input) with
  | [] => some []
  | rest => lineBreak? rest

/-- The text behind blanks, comments and line breaks. The first argument bounds the number of lines. -/
def skipLines : Nat → List Char → List Char
  | 0, input => input
  | bound + 1, input =>
    let rest := skipComment (skipBlanks input)
    match lineBreak? rest with
    | some rest => skipLines bound rest
    | none => rest

def escape? : Char → Option Char
  | 'b' => some '\x08'
  | 't' => some '\t'
  | 'n' => some '\n'
  | 'f' => some '\x0c'
  | 'r' => some '\r'
  | '"' => some '"'
  | '\\' => some '\\'
  | _ => none

def numbered? (digits : List Char) : Option Char := do
  let number ← digits.foldlM (fun number digit => (hexDigit? digit).map (number * 16 + ·)) 0
  if number < 0xD800 ∨ (0xDFFF < number ∧ number ≤ 0x10FFFF) then some (Char.ofNat number) else none

def readEscape? (input : List Char) : Option (Char × List Char) :=
  let numberOf (width : Nat) (rest : List Char) : Option (Char × List Char) :=
    if rest.length < width then none
    else (numbered? (rest.take width)).map fun character => (character, rest.drop width)
  match input with
  | 'u' :: rest => numberOf 4 rest
  | 'U' :: rest => numberOf 8 rest
  | letter :: rest => (escape? letter).map fun character => (character, rest)
  | [] => none

/-- Reads a text on one line, up to and with its closing quote. The first argument bounds its length. -/
def readBasic? : Nat → List Char → Option (List Char × List Char)
  | 0, _ => none
  | _, [] => none
  | _ + 1, '"' :: rest => some ([], rest)
  | bound + 1, '\\' :: rest => do
    let (character, rest) ← readEscape? rest
    let (others, rest) ← readBasic? bound rest
    some (character :: others, rest)
  | bound + 1, character :: rest =>
    if isVisible character then do
      let (others, rest) ← readBasic? bound rest
      some (character :: others, rest)
    else none

/-- Reads a text on one line that has no escapes, up to and with its closing quote. -/
def readLiteral? (input : List Char) : Option (List Char × List Char) :=
  match input.span fun character => isVisible character && character != '\'' with
  | (text, '\'' :: rest) => some (text, rest)
  | _ => none

/-- The number of quotes that a text begins with, at most five. -/
def quotes (quote : Char) (input : List Char) : Nat :=
  ((input.take 5).takeWhile (· == quote)).length

/-- The text behind blanks and line breaks. The first argument bounds their number. -/
def skipSpace : Nat → List Char → List Char
  | 0, input => input
  | bound + 1, input =>
    match lineBreak? (skipBlanks input) with
    | some rest => skipSpace bound rest
    | none => skipBlanks input

/-- Reads a text of several lines, up to and with its closing quotes. Two quotes may stand in front of those. An
escaped line break is left out together with the blanks behind it. -/
def readLong? (quote : Char) (escapes : Bool) : Nat → List Char → Option (List Char × List Char)
  | 0, _ => none
  | _, [] => none
  | bound + 1, character :: rest =>
    if character = quote then
      let count := quotes quote (character :: rest)
      if 3 ≤ count then some (List.replicate (count - 3) quote, (character :: rest).drop count)
      else do
        let (others, rest) ← readLong? quote escapes bound rest
        some (character :: others, rest)
    else if escapes ∧ character = '\\' then
      match lineBreak? (skipBlanks rest) with
      | some after => readLong? quote escapes bound (skipSpace after.length after)
      | none => do
        let (escaped, rest) ← readEscape? rest
        let (others, rest) ← readLong? quote escapes bound rest
        some (escaped :: others, rest)
    else
      match lineBreak? (character :: rest) with
      | some rest => do
        let (others, rest) ← readLong? quote escapes bound rest
        some ('\n' :: others, rest)
      | none =>
        if isVisible character then do
          let (others, rest) ← readLong? quote escapes bound rest
          some (character :: others, rest)
        else none

/-- Reads a text of any kind at its opening quote. A line break right behind three opening quotes is left
out. -/
def readText? (input : List Char) : Option (String × List Char) :=
  let afterBreak (rest : List Char) : List Char := (lineBreak? rest).getD rest
  let result := match input with
    | '"' :: '"' :: '"' :: rest => readLong? '"' true (rest.length + 1) (afterBreak rest)
    | '\'' :: '\'' :: '\'' :: rest => readLong? '\'' false (rest.length + 1) (afterBreak rest)
    | '"' :: rest => readBasic? (rest.length + 1) rest
    | '\'' :: rest => readLiteral? rest
    | _ => none
  result.map fun (text, rest) => (String.ofList text, rest)

def readKeyPart? (input : List Char) : Option (String × List Char) :=
  match input with
  | '"' :: rest => (readBasic? (rest.length + 1) rest).map fun (text, rest) => (String.ofList text, rest)
  | '\'' :: rest => (readLiteral? rest).map fun (text, rest) => (String.ofList text, rest)
  | _ =>
    match input.span isKeyChar with
    | ([], _) => none
    | (text, rest) => some (String.ofList text, rest)

def longestKey : Nat := 79

/-- Reads a key of at most so many parts, with the blanks around them. -/
def readKey? : Nat → List Char → Option (List String × List Char)
  | 0, _ => none
  | bound + 1, input => do
    let (part, rest) ← readKeyPart? (skipBlanks input)
    match skipBlanks rest with
    | '.' :: rest => do
      let (parts, rest) ← readKey? bound rest
      some (part :: parts, rest)
    | rest => some ([part], rest)

/-- Reads digits that satisfy a test; single underscores may stand between two of them. -/
def readDigits? (test : Char → Bool) : List Char → Option (List Char × List Char)
  | [] => none
  | [digit] => if test digit then some ([digit], []) else none
  | digit :: '_' :: rest =>
    if test digit then (readDigits? test rest).map fun (digits, rest) => (digit :: digits, rest) else none
  | digit :: next :: rest =>
    if !test digit then none
    else if test next then
      (readDigits? test (next :: rest)).map fun (digits, rest) => (digit :: digits, rest)
    else some ([digit], next :: rest)

def numberIn (base : Nat) (digits : List Char) : Nat :=
  digits.foldl (fun number digit => number * base + (hexDigit? digit).getD 0) 0

def isOctal (character : Char) : Bool := '0' ≤ character && character ≤ '7'

def isBinary (character : Char) : Bool := character == '0' || character == '1'

def greatestInteger : Nat := 0x7FFFFFFFFFFFFFFF

def readWhole? (input : List Char) : Option (List Char × List Char) :=
  match readDigits? Char.isDigit input with
  | some ('0' :: _ :: _, _) => match input with
    | '0' :: rest => some (['0'], rest)
    | _ => none
  | result => result

/-- Reads a sign; answers whether it is a minus. -/
def readSign (input : List Char) : Bool × List Char :=
  match input with
  | '-' :: rest => (true, rest)
  | '+' :: rest => (false, rest)
  | rest => (false, rest)

/-- Reads an integer. Only one without a sign can be in another base than ten. -/
def readInteger? (input : List Char) : Option (Int × List Char) :=
  let based (base : Nat) (test : Char → Bool) (rest : List Char) : Option (Int × List Char) := do
    let (digits, rest) ← readDigits? test rest
    let number := numberIn base digits
    if number ≤ greatestInteger then some (number, rest) else none
  match input with
  | '0' :: 'x' :: rest => based 16 (fun digit => (hexDigit? digit).isSome) rest
  | '0' :: 'o' :: rest => based 8 isOctal rest
  | '0' :: 'b' :: rest => based 2 isBinary rest
  | _ => do
    let (negative, rest) := readSign input
    let (digits, rest) ← readWhole? rest
    let number := numberIn 10 digits
    if number ≤ greatestInteger then some (if negative then -number else number, rest)
    else if negative ∧ number = greatestInteger + 1 then some (-number, rest)
    else none

def readExponent? (input : List Char) : Option (Int × List Char) :=
  let number (rest : List Char) : Option (Int × List Char) := do
    let (negative, rest) := readSign rest
    let (digits, rest) ← readDigits? Char.isDigit rest
    let value : Int := numberIn 10 digits
    some (if negative then -value else value, rest)
  match input with
  | 'e' :: rest => number rest
  | 'E' :: rest => number rest
  | _ => none

/-- Reads the digits of a number with a point or an exponent, and the power of ten they are scaled by. -/
def readDecimal? (input : List Char) : Option ((Nat × Int) × List Char) := do
  let (whole, rest) ← readWhole? input
  match rest with
  | '.' :: rest => do
    let (fraction, rest) ← readDigits? Char.isDigit rest
    let number := numberIn 10 (whole ++ fraction)
    match rest with
    | 'e' :: _ | 'E' :: _ => do
      let (exponent, rest) ← readExponent? rest
      some ((number, exponent - fraction.length), rest)
    | _ => some ((number, -fraction.length), rest)
  | _ => do
    let (exponent, rest) ← readExponent? rest
    some ((numberIn 10 whole, exponent), rest)

/-- Goes over a number that is no integer. A positive one must not be too large. -/
def skipReal? (input : List Char) : Option (List Char) :=
  match readSign input with
  | (_, 'i' :: 'n' :: 'f' :: rest) => some rest
  | (_, 'n' :: 'a' :: 'n' :: rest) => some rest
  | (negative, rest) => do
    let ((digits, exponent), rest) ← readDecimal? rest
    if negative ∨ (Binary64.ofDecimal? false digits exponent).isSome then some rest else none

def readFixed? (width : Nat) (input : List Char) : Option (Nat × List Char) :=
  let digits := input.take width
  if digits.length = width ∧ digits.all Char.isDigit then some (numberIn 10 digits, input.drop width) else none

def expect? (character : Char) : List Char → Option (List Char)
  | head :: rest => if head = character then some rest else none
  | [] => none

def daysIn (year month : Nat) : Nat :=
  if month = 2 then
    if year % 4 = 0 ∧ (year % 100 ≠ 0 ∨ year % 400 = 0) then 29 else 28
  else if [4, 6, 9, 11].contains month then 30
  else 31

def skipDate? (input : List Char) : Option (List Char) := do
  let (year, rest) ← readFixed? 4 input
  let (month, rest) ← readFixed? 2 (← expect? '-' rest)
  let (day, rest) ← readFixed? 2 (← expect? '-' rest)
  if 1 ≤ month ∧ month ≤ 12 ∧ 1 ≤ day ∧ day ≤ daysIn year month then some rest else none

/-- Goes over the hour and the minute of a time or of a distance from the meridian. -/
def skipMinutes? (input : List Char) : Option (List Char) := do
  let (hour, rest) ← readFixed? 2 input
  let (minute, rest) ← readFixed? 2 (← expect? ':' rest)
  if hour ≤ 23 ∧ minute ≤ 59 then some rest else none

def skipTime? (input : List Char) : Option (List Char) := do
  let rest ← skipMinutes? input
  let (second, rest) ← readFixed? 2 (← expect? ':' rest)
  if 60 < second then none
  else
    match rest with
    | '.' :: rest =>
      match rest.span Char.isDigit with
      | ([], _) => none
      | (_, rest) => some rest
    | rest => some rest

/-- Goes over the distance from the meridian, if it is given. -/
def skipZone? (input : List Char) : Option (List Char) :=
  match input with
  | 'Z' :: rest => some rest
  | 'z' :: rest => some rest
  | '+' :: rest => skipMinutes? rest
  | '-' :: rest => skipMinutes? rest
  | rest => some rest

def startsTime (input : List Char) : Bool :=
  match readFixed? 2 input with
  | some (_, ':' :: _) => true
  | _ => false

def startsDate (input : List Char) : Bool :=
  match readFixed? 4 input with
  | some (_, '-' :: _) => true
  | _ => false

def skipMoment? (input : List Char) : Option (List Char) :=
  if startsTime input then skipTime? input
  else do
    let rest ← skipDate? input
    match rest with
    | 'T' :: time | 't' :: time | ' ' :: time =>
      if startsTime time then do skipZone? (← skipTime? time) else some rest
    | _ => some rest

end Spellcast.Toml
