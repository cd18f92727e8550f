import Spellcast.Yaml.Tag

/-!
# The words of YAML

How the words of a YAML text are read at a cursor: plain, quoted and block texts, names of anchors and
directives. Every reader answers what it has read and the place behind it, or nothing if the text is wrong.
-/

namespace Spellcast.Yaml

/-- The blanks and line breaks between two words of a text: the blanks if there is no line break, else the
first line break and the others. -/
structure Gap where
  blanks : List Char
  first : List Char
  others : List Char
  broken : Bool

namespace Gap

def none : Gap := ⟨[], [], [], false⟩

def escaped : Gap := ⟨[], [], [], true⟩

/-- What a gap stands for: a single line break is a blank, several are one less. -/
def folded (gap : Gap) : List Char :=
  if gap.broken then
    if gap.first.head? = some '\n' then
      if gap.others.isEmpty then [' '] else gap.others
    else gap.first ++ gap.others
  else gap.blanks

/-- Reads on in a gap. Nothing if a tab stands in the indentation up to a column. The first argument bounds the
length of the gap. -/
def read? (indent : Nat) : Nat → Gap → Cursor → Option (Gap × Cursor)
  | 0, gap, cursor => some (gap, cursor)
  | bound + 1, gap, cursor =>
    match cursor.rest with
    | [] => some (gap, cursor)
    | character :: _ =>
      if isBlank character then
        if gap.broken then
          if character = '\t' ∧ cursor.column < indent then Option.none
          else read? indent bound gap (cursor.advance 1)
        else read? indent bound { gap with blanks := gap.blanks ++ [character] } (cursor.advance 1)
      else if isBreak character then
        let (text, next) := cursor.lineBreak
        if gap.broken then read? indent bound { gap with others := gap.others ++ text } next
        else read? indent bound ⟨[], text, [], true⟩ next
      else some (gap, cursor)

end Gap

namespace Plain

def isBracketChar (character : Char) : Bool :=
  character == ',' || character == '[' || character == ']' || character == '\x7b' || character == '\x7d'

/-- The characters up to the end of a word. Inside of brackets a colon must not touch one of them. -/
def spanWord? (inBrackets : Bool) : List Char → Option (List Char)
  | [] => some []
  | character :: rest =>
    if isGap character then some []
    else if character = ':' then
      if inBrackets && (rest.head?.any fun next => isBracketChar next || next == '?') then none
      else if startsWithGap rest then some []
      else (spanWord? inBrackets rest).map (character :: ·)
    else if inBrackets && isBracketChar character then some []
    else (spanWord? inBrackets rest).map (character :: ·)

/-- A plain text: its content, the place behind it and the gap that follows it, and whether that gap has a line
break. -/
structure Reading where
  content : List Char
  cursor : Cursor
  broken : Bool

/-- Reads words and the gaps between them. In blocks a line that is indented less ends the text. -/
def readWords? (inBrackets : Bool) (indent : Nat) : Nat → List Char → Gap → Cursor → Option Reading
  | 0, content, gap, cursor => some ⟨content, cursor, gap.broken⟩
  | bound + 1, content, gap, cursor =>
    if cursor.atDocumentMarker ∨ cursor.rest.head? = some '#' then some ⟨content, cursor, gap.broken⟩
    else
      match spanWord? inBrackets cursor.rest with
      | none => none
      | some [] => some ⟨content, cursor, gap.broken⟩
      | some word =>
        let content := content ++ gap.folded ++ word
        let cursor := cursor.advance word.length
        match Gap.read? indent cursor.rest.length .none cursor with
        | none => none
        | some (gap, next) =>
          if next.index = cursor.index ∨ (!inBrackets ∧ next.column < indent) then
            some ⟨content, next, gap.broken⟩
          else readWords? inBrackets indent bound content gap next

/-- Reads a plain text; in a block its lines are indented at least so far. -/
def read? (inBrackets : Bool) (indent : Nat) (cursor : Cursor) : Option Reading :=
  readWords? inBrackets indent (cursor.rest.length + 1) [] .none cursor

end Plain

namespace Quoted

def escape? : Char → Option Char
  | '0' => some '\x00'
  | 'a' => some '\x07'
  | 'b' => some '\x08'
  | 't' => some '\t'
  | '\t' => some '\t'
  | 'n' => some '\n'
  | 'v' => some '\x0b'
  | 'f' => some '\x0c'
  | 'r' => some '\r'
  | 'e' => some '\x1b'
  | ' ' => some ' '
  | '"' => some '"'
  | '/' => some '/'
  | '\\' => some '\\'
  | 'N' => some '\u0085'
  | '_' => some '\u00a0'
  | 'L' => some '\u2028'
  | 'P' => some '\u2029'
  | _ => none

def escapeWidth? : Char → Option Nat
  | 'x' => some 2
  | 'u' => some 4
  | 'U' => some 8
  | _ => none

def numbered? (digits : List Char) : Option Char := do
  let number ← hexNumber? digits
  if number < 0xD800 ∨ (0xDFFF < number ∧ number ≤ 0x10FFFF) then some (Char.ofNat number) else none

/-- A word inside of quotes, its length in the text, and whether the line ends behind it with an escape. -/
structure Word where
  content : List Char
  length : Nat
  continued : Bool

def Word.cons (character : Char) (room : Nat) (word : Word) : Word :=
  { word with content := character :: word.content, length := word.length + room }

/-- Reads a word up to a blank, a line break or the closing quote. The first argument bounds its length. -/
def readWord? (quote : Char) : Nat → List Char → Option Word
  | 0, _ => some ⟨[], 0, false⟩
  | _, [] => some ⟨[], 0, false⟩
  | bound + 1, character :: rest =>
    if isGap character then some ⟨[], 0, false⟩
    else if character = quote then
      match quote, rest with
      | '\'', '\'' :: rest => (readWord? quote bound rest).map (.cons '\'' 2)
      | _, _ => some ⟨[], 0, false⟩
    else if character = '\\' ∧ quote = '"' then
      match rest with
      | [] => none
      | letter :: after =>
        if isBreak letter then some ⟨[], 1, true⟩
        else
          match escape? letter, escapeWidth? letter with
          | some escaped, _ => (readWord? quote bound after).map (.cons escaped 2)
          | none, some width =>
            if after.length < width then none
            else
              match numbered? (after.take width) with
              | some escaped => (readWord? quote bound (after.drop width)).map (.cons escaped (width + 2))
              | none => none
          | none, none => none
    else (readWord? quote bound rest).map (.cons character 1)

def readWords? (quote : Char) : Nat → List Char → Cursor → Option (List Char × Cursor)
  | 0, _, _ => none
  | bound + 1, content, cursor =>
    if cursor.atDocumentMarker ∨ cursor.atEnd then none
    else
      match readWord? quote cursor.rest.length cursor.rest with
      | none => none
      | some word =>
        let content := content ++ word.content
        let cursor := cursor.advance word.length
        let (gap, cursor) := if word.continued then (Gap.escaped, cursor.nextLine) else (Gap.none, cursor)
        if cursor.rest.head? = some quote then some (content, cursor.advance 1)
        else
          match Gap.read? 0 cursor.rest.length gap cursor with
          | none => none
          | some (gap, cursor) => readWords? quote bound (content ++ gap.folded) cursor

def read? (quote : Char) (cursor : Cursor) : Option (List Char × Cursor) :=
  readWords? quote (cursor.rest.length + 1) [] (cursor.advance 1)

end Quoted

namespace Block

/-- Which of the line breaks at the end of a block text are kept. -/
inductive Chomping where
  | strip
  | clip
  | keep
deriving DecidableEq

/-- What the head of a block text says: its chomping and its indentation, counted from the block around it. -/
structure Head where
  chomping : Chomping
  indent : Option Nat

def chomping? : Char → Option Chomping
  | '+' => some .keep
  | '-' => some .strip
  | _ => none

/-- Reads the head of a block text behind its first character: a sign and a digit in any order. -/
def readHead? (cursor : Cursor) : Option (Head × Cursor) :=
  let digitAt (cursor : Cursor) : Option (Option Nat × Cursor) :=
    match cursor.rest with
    | character :: _ =>
      if character = '0' then none
      else if character.isDigit then some (some (character.toNat - 48), cursor.advance 1)
      else some (none, cursor)
    | [] => some (none, cursor)
  let signAt (cursor : Cursor) : Option Chomping × Cursor :=
    match cursor.rest.head?.bind chomping? with
    | some chomping => (some chomping, cursor.advance 1)
    | none => (none, cursor)
  match signAt cursor with
  | (some chomping, cursor) => (digitAt cursor).map fun (indent, cursor) => (⟨chomping, indent⟩, cursor)
  | (none, cursor) =>
    (digitAt cursor).map fun (indent, cursor) =>
      match indent with
      | none => (⟨.clip, none⟩, cursor)
      | some _ =>
        let (chomping, cursor) := signAt cursor
        (⟨chomping.getD .clip, indent⟩, cursor)

/-- The empty lines in front of a line: their breaks, the widest indentation met, and the place where the line
begins. Nothing if a tab stands in the indentation. -/
def readBreaks? (indent : Option Nat) : Nat → List Char → Nat → Cursor → Option (List Char × Nat × Cursor)
  | 0, breaks, widest, cursor => some (breaks, widest, cursor)
  | bound + 1, breaks, widest, cursor =>
    let spaces := (cursor.rest.takeWhile (· == ' ')).length
    let room := match indent with
      | none => spaces
      | some indent => min spaces (indent - cursor.column)
    let cursor := cursor.advance room
    let widest := max widest cursor.column
    let inside : Bool := match indent with
      | none => true
      | some indent => decide (cursor.column < indent)
    if inside ∧ cursor.rest.head? = some '\t' then none
    else if cursor.atBreak then
      let (text, next) := cursor.lineBreak
      readBreaks? indent bound (breaks ++ text) widest next
    else some (breaks, widest, cursor)

/-- The lines of a block text read so far: the content, the break at the end of the last line, the breaks of
the empty lines behind it, and whether the last line began with a blank. -/
structure Lines where
  content : List Char
  lastBreak : List Char
  emptyBreaks : List Char
  startsBlank : Bool

/-- Joins what is read with the next line. A folded text replaces a line break between two lines that do not
begin with a blank. -/
def Lines.joined (lines : Lines) (folding nextBlank : Bool) : List Char :=
  let middle :=
    if folding ∧ lines.lastBreak.head? = some '\n' ∧ !lines.startsBlank ∧ !nextBlank then
      if lines.emptyBreaks.isEmpty then [' '] else []
    else lines.lastBreak
  lines.content ++ middle ++ lines.emptyBreaks

/-- Reads lines as long as they are indented so far. -/
def readLines? (folding : Bool) (indent : Nat) : Nat → Lines → Cursor → Option (Lines × Cursor)
  | 0, lines, cursor => some (lines, cursor)
  | bound + 1, lines, cursor =>
    if cursor.column = indent ∧ !cursor.atEnd then
      let blank := cursor.atBlank
      let text := cursor.rest.takeWhile fun character => !isBreak character
      let content := lines.joined folding blank ++ text
      let (lastBreak, next) := (cursor.advance text.length).lineBreak
      match readBreaks? (some indent) (next.rest.length + 1) [] 0 next with
      | none => none
      | some (emptyBreaks, _, next) =>
        readLines? folding indent bound ⟨content, lastBreak, emptyBreaks, blank⟩ next
    else some (lines, cursor)

def Lines.chomped (lines : Lines) (chomping : Chomping) : List Char :=
  match chomping with
  | .strip => lines.content
  | .clip => lines.content ++ lines.lastBreak
  | .keep => lines.content ++ lines.lastBreak ++ lines.emptyBreaks

/-- The indentation of a block text: the one that is given, or that of its first line, but more than that of
the block around it. -/
def indentOf (outer : Int) (given : Option Nat) (widest : Nat) : Nat :=
  match given with
  | some more => if 0 ≤ outer then outer.toNat + more else more
  | none => max 1 (max widest (outer + 1).toNat)

/-- Reads a block text at its first character. The number is the indentation of the block around it. -/
def read? (folding : Bool) (outer : Int) (cursor : Cursor) : Option (List Char × Cursor) := do
  let (head, cursor) ← readHead? (cursor.advance 1)
  let cursor := cursor.advanceWhile isBlank
  let cursor :=
    if cursor.rest.head? = some '#' then cursor.advanceWhile fun character => !isBreak character else cursor
  if !cursor.atLineEnd then none
  else
    let cursor := cursor.nextLine
    let given := head.indent.map fun _ => indentOf outer head.indent 0
    let (breaks, widest, cursor) ← readBreaks? given (cursor.rest.length + 1) [] 0 cursor
    let indent := indentOf outer head.indent widest
    let (lines, cursor) ←
      readLines? folding indent (cursor.rest.length + 1) ⟨[], [], breaks, false⟩ cursor
    some (lines.chomped head.chomping, cursor)

end Block

namespace Anchor

def mayFollow (character : Char) : Bool :=
  isGap character || ['?', ':', ',', ']', '\x7d', '%', '@', Char.ofNat 0x60].contains character

def read? (cursor : Cursor) : Option (String × Cursor) :=
  let name := cursor.rest.takeWhile isWordChar
  let next := cursor.advance name.length
  if name.isEmpty then none
  else if next.rest.head?.all mayFollow then some (String.ofList name, next)
  else none

end Anchor

/-- A line that says how a document is to be read. -/
inductive Directive where
  | version (major minor : Nat)
  | tag (handle : String) (start : List UInt8)
deriving DecidableEq

namespace Directive

/-- Reads a number of at most nine digits. -/
def readNumber? (cursor : Cursor) : Option (Nat × Cursor) :=
  let digits := cursor.rest.takeWhile Char.isDigit
  if digits.isEmpty ∨ 9 < digits.length then none
  else
    some (digits.foldl (fun number digit => number * 10 + (digit.toNat - 48)) 0, cursor.advance digits.length)

def readVersion? (cursor : Cursor) : Option (Directive × Cursor) := do
  let (major, cursor) ← readNumber? (cursor.advanceWhile isBlank)
  if cursor.rest.head? ≠ some '.' then none
  else
    let (minor, cursor) ← readNumber? (cursor.advance 1)
    some (.version major minor, cursor)

def readTag? (cursor : Cursor) : Option (Directive × Cursor) := do
  let cursor := cursor.advanceWhile isBlank
  if cursor.rest.head? ≠ some '!' then none
  else
    let (handle, cursor) := TagName.readHandle cursor
    if handle ≠ ['!'] ∧ handle.getLast? ≠ some '!' then none
    else if !cursor.atBlank then none
    else
      let (bytes, cursor) ← TagName.readPart? true (cursor.advanceWhile isBlank)
      if bytes.isEmpty ∨ !startsWithGap cursor.rest then none
      else some (.tag (String.ofList handle) (TagName.cut bytes), cursor)

def read? (cursor : Cursor) : Option (Directive × Cursor) := do
  let name := (cursor.rest.drop 1).takeWhile isWordChar
  let cursor := cursor.advance (name.length + 1)
  if name.isEmpty ∨ !startsWithGap cursor.rest then none
  else
    let (directive, cursor) ←
      if name = ['Y', 'A', 'M', 'L'] then readVersion? cursor
      else if name = ['T', 'A', 'G'] then readTag? cursor
      else none
    let cursor := cursor.advanceWhile isBlank
    let cursor :=
      if cursor.rest.head? = some '#' then cursor.advanceWhile fun character => !isBreak character else cursor
    if cursor.atLineEnd then some (directive, cursor.nextLine) else none

end Directive

end Spellcast.Yaml
