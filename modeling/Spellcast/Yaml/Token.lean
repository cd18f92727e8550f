import Spellcast.Yaml.Lexeme

/-!
# Tokens of YAML

A YAML text as a row of tokens. Blocks are found by indentation and get tokens for their beginning and their
end. A word may turn out to be a key only when a colon follows it, so the tokens in front of a key are put in
afterwards, at the place that was remembered for it. `Token.ofText` ends with `fault` where the text cannot be
read on; tokens that still might have become keys there are not shown.

Before its characters are read, a text is looked through in parts of a fixed size for characters that may not stand
in it. So what stands in an earlier part can be read even if a later part has such a character.
-/

namespace Spellcast.Yaml

/-- How a text is written, as far as that makes a difference. -/
inductive Style where
  | plain
  | quoted
  | literal
deriving DecidableEq

inductive Token where
  | directive (directive : Directive)
  | documentStart
  | documentEnd
  | blockSequenceStart
  | blockMappingStart
  | blockEnd
  | flowSequenceStart
  | flowSequenceEnd
  | flowMappingStart
  | flowMappingEnd
  | blockEntry
  | flowEntry
  | key
  | value
  | alias (name : String)
  | anchor (name : String)
  | tag (name : TagName)
  | text (content : String) (style : Style)
  | streamEnd
  /-- The text cannot be read on. -/
  | fault
deriving DecidableEq

/-- A place where a key may begin: the number of its first token, where it stands, and whether there must be a
key because nothing else can begin there. -/
structure KeyPlace where
  number : Nat
  index : Nat
  line : Nat
  column : Nat
  required : Bool
deriving DecidableEq

/-- A text that has been read up to a cursor. -/
structure Lexing where
  cursor : Cursor
  tokens : Array Token
  /-- The indentation of the block around the cursor; -1 outside of all blocks. -/
  indent : Int
  /-- The indentations of the blocks around that one. -/
  outer : List Int
  /-- A key may begin at the cursor. -/
  keyAllowed : Bool
  /-- The text ends behind its last character. If not, what follows there cannot be read. -/
  whole : Bool
  /-- Where a key may have begun: outside of the brackets around the cursor and then inside of each of them,
  the innermost first. -/
  places : List (Option KeyPlace)

namespace Lexing

/-- The start of a text, of which the whole or a first part is given. -/
def start (text : List Char) (whole : Bool) : Lexing :=
  { cursor := .start text, tokens := #[], indent := -1, outer := [], keyAllowed := true, whole, places := [none] }

/-- So many characters can be seen from a cursor, if the text does not end before. -/
def sees (state : Lexing) (count : Nat) (cursor : Cursor) : Bool :=
  state.whole || count ≤ cursor.rest.length

/-- A word may end at a cursor: it can be seen what follows. -/
def endsWord (state : Lexing) (cursor : Cursor) : Bool := state.sees 1 cursor

def inBrackets (state : Lexing) : Bool := 1 < state.places.length

def push (state : Lexing) (token : Token) (cursor : Cursor) : Lexing :=
  { state with tokens := state.tokens.push token, cursor }

def longestKey : Nat := 1024

/-- A key can no longer have begun at a place that is on an earlier line or too far away. -/
def isStale (cursor : Cursor) (place : KeyPlace) : Bool :=
  place.line < cursor.line || place.index + longestKey < cursor.index

/-- Gives up the places that are stale. Nothing if there had to be a key at one of them. -/
def dropStale? (state : Lexing) : Option Lexing :=
  let stale (place : Option KeyPlace) : Bool := place.any (isStale state.cursor)
  if state.places.any fun place => stale place && place.any (·.required) then none
  else some { state with places := state.places.map fun place => if stale place then none else place }

/-- Gives up the place outside of all brackets or inside of the innermost. Nothing if there had to be a key. -/
def dropPlace? (state : Lexing) : Option Lexing :=
  match state.places with
  | some place :: others => if place.required then none else some { state with places := none :: others }
  | _ => some state

/-- Remembers the cursor as a place where a key may begin, if one may. -/
def markPlace? (state : Lexing) : Option Lexing :=
  if state.keyAllowed then do
    let state ← state.dropPlace?
    let cursor := state.cursor
    let place : KeyPlace :=
      { number := state.tokens.size, index := cursor.index, line := cursor.line, column := cursor.column
        required := !state.inBrackets && state.indent == cursor.column }
    some { state with places := some place :: state.places.tail }
  else some state

/-- Begins a block at a column, if that is further in than the block around it. The token goes to the place with
the given number. -/
def openBlock (state : Lexing) (column number : Nat) (token : Token) : Lexing :=
  if !state.inBrackets ∧ state.indent < column then
    { state with
      indent := column, outer := state.indent :: state.outer, tokens := state.tokens.insertIdxIfInBounds number token }
  else state

def closeBlocks (column : Int) : List Int → Lexing → Lexing
  | [], state => state
  | indent :: outer, state =>
    if state.indent ≤ column then state
    else closeBlocks column outer { state with indent, outer, tokens := state.tokens.push .blockEnd }

/-- Ends the blocks around the cursor that are further in than a column. Brackets hide blocks. -/
def unroll (state : Lexing) (column : Int) : Lexing :=
  if state.inBrackets then state else closeBlocks column state.outer state

def skipMark (cursor : Cursor) : Cursor :=
  if cursor.column = 0 ∧ cursor.rest.head?.any (·.toNat == 0xFEFF) then cursor.advance 1 else cursor

/-- Goes over blanks, comments and line breaks. Behind a line break outside of brackets a key may begin. The
first argument bounds the number of lines. -/
def skipGaps : Nat → Lexing → Lexing
  | 0, state => state
  | bound + 1, state =>
    let tabs := state.inBrackets || !state.keyAllowed
    let cursor := (skipMark state.cursor).advanceWhile fun character =>
      character == ' ' || (tabs && character == '\t')
    let cursor :=
      if cursor.rest.head? = some '#' then cursor.advanceWhile fun character => !isBreak character else cursor
    if cursor.atBreak then
      skipGaps bound
        { state with cursor := cursor.nextLine, keyAllowed := state.keyAllowed || !state.inBrackets }
    else { state with cursor }

def leaveDocument? (state : Lexing) : Option Lexing := do
  let state ← (state.unroll (-1)).dropPlace?
  some { state with keyAllowed := false }

def readDirective? (state : Lexing) : Option Lexing := do
  let state ← state.leaveDocument?
  let (directive, next) ← Directive.read? state.cursor
  if state.endsWord next then some (state.push (.directive directive) next) else none

def readMarker? (token : Token) (state : Lexing) : Option Lexing := do
  let state ← state.leaveDocument?
  some (state.push token (state.cursor.advance 3))

def openBracket? (token : Token) (state : Lexing) : Option Lexing := do
  let state ← state.markPlace?
  some ({ state with places := none :: state.places, keyAllowed := true }.push token (state.cursor.advance 1))

def closeBracket? (token : Token) (state : Lexing) : Option Lexing := do
  let state ← state.dropPlace?
  let places := if state.inBrackets then state.places.tail else state.places
  some ({ state with places, keyAllowed := false }.push token (state.cursor.advance 1))

def readComma? (state : Lexing) : Option Lexing := do
  let state ← state.dropPlace?
  some ({ state with keyAllowed := true }.push .flowEntry (state.cursor.advance 1))

/-- Begins a block where a key or an item stands. Nothing if no block may begin there. -/
def beginBlock? (token : Token) (state : Lexing) : Option Lexing :=
  if state.inBrackets then some state
  else if state.keyAllowed then some (state.openBlock state.cursor.column state.tokens.size token)
  else none

def readDash? (state : Lexing) : Option Lexing := do
  let state ← state.beginBlock? .blockSequenceStart
  let state ← state.dropPlace?
  some ({ state with keyAllowed := true }.push .blockEntry (state.cursor.advance 1))

def readQuestion? (state : Lexing) : Option Lexing := do
  let state ← state.beginBlock? .blockMappingStart
  let state ← state.dropPlace?
  some ({ state with keyAllowed := !state.inBrackets }.push .key (state.cursor.advance 1))

/-- The colon behind a key. If a key may have begun on this line, it did so, and its token and that of its block
are put in front of it. -/
def readColon? (state : Lexing) : Option Lexing :=
  match state.places with
  | some place :: others =>
    let tokens := state.tokens.insertIdxIfInBounds place.number .key
    let state := { state with tokens, places := none :: others, keyAllowed := false }
    let state := state.openBlock place.column place.number .blockMappingStart
    some (state.push .value (state.cursor.advance 1))
  | _ => do
    let state ← state.beginBlock? .blockMappingStart
    some ({ state with keyAllowed := !state.inBrackets }.push .value (state.cursor.advance 1))

def readWord? (read : Lexing → Option (Token × Cursor)) (state : Lexing) : Option Lexing := do
  let state ← state.markPlace?
  let (token, next) ← read state
  some ({ state with keyAllowed := false }.push token next)

def readAnchor? (token : String → Token) (state : Lexing) : Option (Token × Cursor) :=
  ((Anchor.read? (state.cursor.advance 1)).filter (state.endsWord ·.2)).map fun (name, next) => (token name, next)

def readTag? (state : Lexing) : Option (Token × Cursor) :=
  ((TagName.read? state.inBrackets state.cursor).filter (state.endsWord ·.2)).map fun (name, next) => (.tag name, next)

def readQuoted? (quote : Char) (state : Lexing) : Option (Token × Cursor) :=
  (Quoted.read? quote state.cursor).map fun (content, next) => (.text (String.ofList content) .quoted, next)

/-- A block text. A key may begin behind it. -/
def readBlock? (folding : Bool) (state : Lexing) : Option Lexing := do
  let state ← state.dropPlace?
  let (content, next) ← (Block.read? folding state.indent state.cursor).filter (state.endsWord ·.2)
  let style := if folding then Style.quoted else Style.literal
  some ({ state with keyAllowed := true }.push (.text (String.ofList content) style) next)

/-- A plain text. If the line ends behind it, a key may begin after it. -/
def readPlain? (state : Lexing) : Option Lexing := do
  let state ← state.markPlace?
  let reading ← (Plain.read? state.inBrackets (state.indent + 1).toNat state.cursor).filter (state.endsWord ·.cursor)
  some ({ state with keyAllowed := reading.broken }.push
    (.text (String.ofList reading.content) .plain) reading.cursor)

def isIndicator (character : Char) : Bool :=
  [',', '[', ']', '\x7b', '\x7d', '#', '&', '*', '!', '|', '>', '\'', '"', '%', '@', Char.ofNat 0x60].contains
    character

def startsPlain (inBrackets : Bool) : List Char → Bool
  | [] => false
  | character :: rest =>
    if isGap character then false
    else if character = '-' then !(rest.head?.any isBlank)
    else if character = '?' ∨ character = ':' then !inBrackets && !startsWithGap rest
    else !isIndicator character

def readToken? (state : Lexing) : Option Lexing :=
  let cursor := state.cursor
  match cursor.rest with
  | [] => none
  | character :: rest =>
    let closed := startsWithGap rest
    if cursor.column = 0 ∧ character = '%' then state.readDirective?
    else if cursor.atMarker '-' then state.readMarker? .documentStart
    else if cursor.atMarker '.' then state.readMarker? .documentEnd
    else if character = '[' then state.openBracket? .flowSequenceStart
    else if character = '\x7b' then state.openBracket? .flowMappingStart
    else if character = ']' then state.closeBracket? .flowSequenceEnd
    else if character = '\x7d' then state.closeBracket? .flowMappingEnd
    else if character = ',' then state.readComma?
    else if character = '-' ∧ closed then state.readDash?
    else if character = '?' ∧ (state.inBrackets ∨ closed) then state.readQuestion?
    else if character = ':' ∧ (state.inBrackets ∨ closed) then state.readColon?
    else if character = '*' then state.readWord? (readAnchor? .alias)
    else if character = '&' then state.readWord? (readAnchor? .anchor)
    else if character = '!' then state.readWord? readTag?
    else if character = '|' ∧ !state.inBrackets then state.readBlock? false
    else if character = '>' ∧ !state.inBrackets then state.readBlock? true
    else if character = '\'' then state.readWord? (readQuoted? '\'')
    else if character = '"' then state.readWord? (readQuoted? '"')
    else if startsPlain state.inBrackets cursor.rest then state.readPlain?
    else none

def readEnd? (state : Lexing) : Option Lexing := do
  let state ← state.leaveDocument?
  some { state with tokens := state.tokens.push .streamEnd }

def foresight : Nat := 4

/-- Reads what comes next; also answers whether that was the end of the text. -/
def next? (state : Lexing) : Option (Lexing × Bool) := do
  let state ← (skipGaps (state.cursor.rest.length + 1) state).dropStale?
  let state := state.unroll state.cursor.column
  if !state.sees foresight state.cursor then none
  else if state.cursor.atEnd then (state.readEnd?).map (·, true) else (state.readToken?).map (·, false)

/-- The tokens that nothing can be put in front of any more. -/
def settled (state : Lexing) : List Token :=
  let places := ((state.dropStale?).getD state).places
  let count := places.foldl (fun count place => place.elim count fun place => min count place.number) state.tokens.size
  state.tokens.toList.take count

/-- Reads tokens up to the end of the text. Every one takes at least one character. -/
def run : Nat → Lexing → List Token
  | 0, state => state.settled ++ [.fault]
  | bound + 1, state =>
    match state.next? with
    | none => state.settled ++ [.fault]
    | some (state, true) => state.tokens.toList
    | some (state, false) => run bound state

end Lexing

def partSize : Nat := 0x4000

/-- The parts of a text that hold only characters that may stand in it, up to the first other part, and whether that
is the whole text. The arguments are the last part so far, backwards, and how many bytes are missing from it. -/
def soundParts (part : List Char) (room : Nat) : List Char → List Char × Bool
  | [] => if part.all isAllowed then (part.reverse, true) else ([], false)
  | character :: rest =>
    if character.utf8Size ≤ room then soundParts (character :: part) (room - character.utf8Size) rest
    else if part.all isAllowed then
      let (others, whole) := soundParts [character] (partSize - character.utf8Size) rest
      (part.reverse ++ others, whole)
    else ([], false)

def Token.ofText (text : String) : List Token :=
  let (characters, whole) := soundParts [] partSize text.toList
  Lexing.run (characters.length + 1) (.start characters whole)

end Spellcast.Yaml
