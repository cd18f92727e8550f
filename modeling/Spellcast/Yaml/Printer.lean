import Spellcast.Number.Shortest
import Spellcast.Yaml.Node
import Spellcast.Yaml.Plain

/-!
# Writing YAML

JSON values as YAML in blocks: the entries of a map two columns further in than the key in front of it, the
items of a list as far out as their key. A text stands plain where it reads back as itself; otherwise it is
quoted, and a text of several lines is written as a block where that keeps it.
-/

namespace Spellcast.Yaml

def isPrintable (character : Char) : Bool :=
  let code := character.toNat
  code == 0x0A || (0x20 ≤ code && code ≤ 0x7E) ||
    (0xA0 ≤ code && code != 0xFEFF && code != 0xFFFE && code != 0xFFFF)

/-- Which ways of writing keep a text. -/
structure Shape where
  multiline : Bool
  plain : Bool
  single : Bool
  block : Bool
deriving DecidableEq

/-- What has been found out about the beginning of a text. -/
structure Survey where
  indicators : Bool
  breaks : Bool
  special : Bool
  outerGap : Bool
  trailingSpace : Bool
  /-- A line break is followed by a blank. -/
  breakSpace : Bool
  /-- A blank is followed by a line break. -/
  spaceBreak : Bool
deriving DecidableEq

def leads (character : Char) (followed : Bool) : Bool :=
  if character = '?' ∨ character = ':' ∨ character = '-' then followed
  else
    [',', '#', '[', ']', '\x7b', '\x7d', '&', '*', '!', '|', '>', '\'', '"', '%', '@', Char.ofNat 0x60].contains
      character

def cuts (character : Char) (preceded followed : Bool) : Bool :=
  (character == ':' && followed) || (character == '#' && preceded)

/-- Looks at the characters of a text one by one; the character in front of them is missing at the
beginning. -/
def Survey.go : Option Char → List Char → Survey → Survey
  | _, [], survey => survey
  | before, character :: rest, survey =>
    let followed := startsWithGap rest
    let indicator := match before with
      | none => leads character followed
      | some before => cuts character (isGap before) followed
    let space := character == ' '
    let break_ := isBreak character
    let outer := before.isNone || rest.isEmpty
    go (some character) rest
      { indicators := survey.indicators || indicator
        breaks := survey.breaks || break_
        special := survey.special || !isPrintable character
        outerGap := survey.outerGap || (outer && (space || break_))
        trailingSpace := survey.trailingSpace || (rest.isEmpty && space)
        breakSpace := survey.breakSpace || (space && before.any isBreak)
        spaceBreak := survey.spaceBreak || (break_ && before.any (· == ' ')) }

def Survey.ofText (text : List Char) : Survey :=
  let marked := ['-', '-', '-'].isPrefixOf text || ['.', '.', '.'].isPrefixOf text
  go none text
    { indicators := marked, breaks := false, special := false, outerGap := false, trailingSpace := false
      breakSpace := false, spaceBreak := false }

def Shape.ofText (text : List Char) : Shape :=
  let survey := Survey.ofText text
  let lost := survey.spaceBreak || survey.special
  { multiline := survey.breaks
    plain := !(lost || survey.breakSpace || survey.outerGap || survey.breaks || survey.indicators)
    single := !(lost || survey.breakSpace)
    block := !(lost || survey.trailingSpace) }

inductive Writing where
  | plain
  | single
  | double
  | block
deriving DecidableEq

/-- The text would not be read as itself if it were plain. -/
def isMistaken (text : String) : Bool := Meaning.ofText text != .text || isZeroPadded text.toList

def Writing.ofText (text : String) : Writing :=
  let shape := Shape.ofText text.toList
  if text.toList.contains '\n' then if shape.block then .block else .double
  else if shape.plain && !isMistaken text then .plain
  else if shape.single then .single
  else .double

abbrev Output := Array Char

def put (output : Output) (characters : List Char) : Output := characters.foldl Array.push output

/-- Goes to a column of a new line. Where a line has just ended, that is the new line. -/
def putLine (output : Output) (column : Nat) : Output :=
  let output := if output.back?.any isBreak then output else output.push '\n'
  put output (List.replicate column ' ')

def putSingle (indent : Nat) (output : Output) (text : List Char) : Output :=
  let body := text.foldl (fun (output : Output) character =>
    let output := if !isBreak character ∧ output.back?.any isBreak then putLine output indent else output
    if character = '\'' then put output ['\'', '\''] else output.push character) (output.push '\'')
  (if body.back?.any isBreak then putLine body indent else body).push '\''

def upperHexDigit (value : Nat) : Char :=
  if value < 10 then Char.ofNat (value + 48) else Char.ofNat (value + 55)

def hexDigits : Nat → Nat → List Char
  | 0, _ => []
  | width + 1, value => hexDigits width (value / 16) ++ [upperHexDigit (value % 16)]

def escape (character : Char) : List Char :=
  let code := character.toNat
  if character = '"' then ['\\', '"']
  else if character = '\\' then ['\\', '\\']
  else if isPrintable character ∧ !isBreak character then [character]
  else if code = 0x00 then ['\\', '0']
  else if code = 0x07 then ['\\', 'a']
  else if code = 0x08 then ['\\', 'b']
  else if code = 0x09 then ['\\', 't']
  else if code = 0x0A then ['\\', 'n']
  else if code = 0x0B then ['\\', 'v']
  else if code = 0x0C then ['\\', 'f']
  else if code = 0x0D then ['\\', 'r']
  else if code = 0x1B then ['\\', 'e']
  else if code = 0x85 then ['\\', 'N']
  else if code = 0x2028 then ['\\', 'L']
  else if code = 0x2029 then ['\\', 'P']
  else if code ≤ 0xFF then '\\' :: 'x' :: hexDigits 2 code
  else if code ≤ 0xFFFF then '\\' :: 'u' :: hexDigits 4 code
  else '\\' :: 'U' :: hexDigits 8 code

/-- What the head of a block text says: its indentation if it begins with a blank or a line break, and how its
last line breaks are kept. -/
def blockHints (text : List Char) : List Char :=
  let indent := if text.head?.any fun character => character == ' ' || isBreak character then ['2'] else []
  let chomping := match text.reverse with
    | [] => ['-']
    | [last] => if isBreak last then ['+'] else ['-']
    | last :: before :: _ => if !isBreak last then ['-'] else if isBreak before then ['+'] else []
  indent ++ chomping

/-- Writes a text as a block; its lines are indented so far. -/
def putBlock (indent : Nat) (output : Output) (text : List Char) : Output :=
  let head := put output ('|' :: blockHints text ++ ['\n'])
  text.foldl (fun (output : Output) character =>
    let output := if !isBreak character ∧ output.back?.any isBreak then putLine output indent else output
    output.push character) head

/-- Writes a text. Further lines of it are indented so far. -/
def putText (indent : Nat) (output : Output) (text : String) : Output :=
  match Writing.ofText text with
  | .plain => put output text.toList
  | .single => putSingle indent output text.toList
  | .double => put output ('"' :: text.toList.flatMap escape ++ ['"'])
  | .block => putBlock indent output text.toList

/-- Binary numbers in YAML: a positive exponent carries no sign. -/
def realLayout : Layout := ⟨false⟩

def longestKey : Nat := 128

/-- The key stands in front of a colon; otherwise it needs a question mark. -/
def isSimpleKey (key : String) : Bool :=
  !(Shape.ofText key.toList).multiline && key.utf8ByteSize ≤ longestKey

def intChars (value : Int) : List Char :=
  if value < 0 then '-' :: Layout.digitsOf value.natAbs else Layout.digitsOf value.natAbs

def putKey (indent : Nat) (output : Output) (key : String) : Output :=
  if isSimpleKey key then (putText (indent + 2) output key).push ':'
  else (putLine (putText (indent + 2) (put output ['?', ' ']) key) indent).push ':'

mutual

/-- Writes a value behind a dash, or behind a colon in a line of its own; a map or a list begins on the same
line. The mark stands at the column of the indentation. -/
def putItem (indent : Nat) (output : Output) : Json → Output
  | .null => put output [' ', 'n', 'u', 'l', 'l']
  | .bool true => put output [' ', 't', 'r', 'u', 'e']
  | .bool false => put output [' ', 'f', 'a', 'l', 's', 'e']
  | .int value => put output (' ' :: intChars value)
  | .real value => put output (' ' :: realLayout.chars value)
  | .text value => putText (indent + 2) (output.push ' ') value
  | .list [] => put output [' ', '[', ']']
  | .object [] => put output [' ', '\x7b', '\x7d']
  | .list (first :: rest) =>
    putItems (indent + 2) (putItem (indent + 2) (put output [' ', '-']) first) rest
  | .object ((key, first) :: rest) =>
    putEntries (indent + 2) (putValue (indent + 2) key (putKey (indent + 2) (output.push ' ') key) first) rest

def putValue (indent : Nat) (key : String) (output : Output) : Json → Output
  | .null => put output [' ', 'n', 'u', 'l', 'l']
  | .bool true => put output [' ', 't', 'r', 'u', 'e']
  | .bool false => put output [' ', 'f', 'a', 'l', 's', 'e']
  | .int value => put output (' ' :: intChars value)
  | .real value => put output (' ' :: realLayout.chars value)
  | .text value => putText (indent + 2) (output.push ' ') value
  | .list [] => put output [' ', '[', ']']
  | .object [] => put output [' ', '\x7b', '\x7d']
  | .list (first :: rest) =>
    if isSimpleKey key then
      putItems indent (putItem indent ((putLine output indent).push '-') first) rest
    else putItems (indent + 2) (putItem (indent + 2) (put output [' ', '-']) first) rest
  | .object ((inner, first) :: rest) =>
    let output := if isSimpleKey key then putLine output (indent + 2) else output.push ' '
    putEntries (indent + 2) (putValue (indent + 2) inner (putKey (indent + 2) output inner) first) rest

/-- Writes the items of a list behind the first one, each on a line of its own. -/
def putItems (indent : Nat) (output : Output) : List Json → Output
  | [] => output
  | item :: rest => putItems indent (putItem indent ((putLine output indent).push '-') item) rest

/-- Writes the entries of a map behind the first one, each on a line of its own. -/
def putEntries (indent : Nat) (output : Output) : List (String × Json) → Output
  | [] => output
  | (key, value) :: rest =>
    putEntries indent (putValue indent key (putKey indent (putLine output indent) key) value) rest

end

/-- The text of a map with at least one entry, or nothing. -/
def blockText : Json → String
  | .object ((key, first) :: rest) =>
    let output := putEntries 0 (putValue 0 key (putKey 0 #[] key) first) rest
    String.ofList (putLine output 0).toList
  | _ => ""

end Spellcast.Yaml
