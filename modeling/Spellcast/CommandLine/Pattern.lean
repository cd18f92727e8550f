import Spellcast.Text
import Spellcast.Text.Alphanumeric

/-!
# Patterns

The regular expressions that the value of a field may have to match, as far as a filter needs them: whether a text
is one. A pattern works on characters, or on bytes where it says so; it knows neither the classes of Unicode nor its
letter case, and what it matches is always text. `Pattern.isValid` reads it from left to right.

A number of repetitions stands in braces, and so do the long forms of some escapes. A field of a filter ends at the
first closing brace, so that none of these can be complete, and an opening brace is always wrong outside of a class.
-/

namespace Spellcast.CommandLine.Pattern

/-- How a part of a pattern is read. -/
structure Mode where
  /-- Upper and lower case are the same. -/
  foldsCase : Bool
  /-- The pattern works on characters, and not on bytes. -/
  unicode : Bool
  /-- Blanks and comments stand for nothing. -/
  spaced : Bool

def Mode.initial : Mode := ⟨false, true, false⟩

def modeLetters : List Char := ['i', 'm', 's', 'U', 'u', 'R', 'x']

/-- Switches the mode that a letter stands for on or off. Some letters make no difference to whether a text is a
pattern. -/
def Mode.switch (mode : Mode) (on : Bool) : Char → Mode
  | 'i' => { mode with foldsCase := on }
  | 'u' => { mode with unicode := on }
  | 'x' => { mode with spaced := on }
  | _ => mode

/-- Goes over what stands for nothing. The first argument bounds the number of characters. -/
def skipSpaces : Nat → List Char → List Char
  | bound + 1, '#' :: rest => skipSpaces bound ((rest.dropWhile (· ≠ '\n')).drop 1)
  | bound + 1, character :: rest =>
    if Text.isBlankChar character then skipSpaces bound rest else character :: rest
  | _, input => input

/-- The text without blanks and comments in front of it, where they stand for nothing. -/
def Mode.skip (mode : Mode) (input : List Char) : List Char :=
  if mode.spaced then skipSpaces input.length input else input

/-- What stands for itself or begins with a backslash. -/
inductive Atom where
  /-- A character, and whether it is written as a byte. -/
  | character (value : Char) (byte : Bool)
  /-- A class with a letter of its own, or all that is not in it. -/
  | named (negated : Bool)
  /-- A beginning or an end. -/
  | edge
  /-- A place where a word begins or ends, or where none does. -/
  | wordEdge

def hexDigit? (digit : Char) : Option Nat :=
  if '0' ≤ digit ∧ digit ≤ '9' then some (digit.toNat - 48)
  else if 'a' ≤ digit ∧ digit ≤ 'f' then some (digit.toNat - 87)
  else if 'A' ≤ digit ∧ digit ≤ 'F' then some (digit.toNat - 55)
  else none

def readNumbered? (width : Nat) (input : List Char) : Option (Atom × List Char) := do
  let digits := input.take width
  let number ← digits.foldlM (fun number digit => (hexDigit? digit).map (number * 16 + ·)) 0
  if digits.length = width ∧ number.isValidChar then
    some (.character (Char.ofNat number) (decide (width = 2)), input.drop width)
  else none

def readEscape? : List Char → Option (Atom × List Char)
  | [] => none
  | letter :: rest =>
    match letter with
    | 'x' => readNumbered? 2 rest
    | 'u' => readNumbered? 4 rest
    | 'U' => readNumbered? 8 rest
    | 'd' | 's' | 'w' => some (.named false, rest)
    | 'D' | 'S' | 'W' => some (.named true, rest)
    | 'A' | 'z' => some (.edge, rest)
    | 'b' | 'B' | '<' | '>' => some (.wordEdge, rest)
    | 'a' => some (.character '\x07' false, rest)
    | 'f' => some (.character '\x0c' false, rest)
    | 'n' => some (.character '\n' false, rest)
    | 'r' => some (.character '\r' false, rest)
    | 't' => some (.character '\t' false, rest)
    | 'v' => some (.character '\x0b' false, rest)
    | _ =>
      if letter.toNat < 0x80 ∧ !letter.isAlphanum then some (.character letter false, rest) else none

/-- An atom may stand outside of classes. The letter case and the classes of Unicode are not known, and a lone byte
is no text. -/
def Atom.isAllowed (mode : Mode) : Atom → Bool
  | .character value byte =>
    if mode.unicode then !mode.foldsCase else !byte || decide (value.toNat < 0x80)
  | .named negated => !mode.unicode && !negated
  | .edge => true
  | .wordEdge => !mode.unicode

/-- An atom may be a member of a class. A class of bytes holds ASCII characters only. -/
def Atom.isMember (mode : Mode) : Atom → Bool
  | .character value _ => if mode.unicode then !mode.foldsCase else decide (value.toNat < 0x80)
  | .named negated => !mode.unicode && !negated
  | _ => false

def classNames : List (List Char) :=
  ["alnum", "alpha", "ascii", "blank", "cntrl", "digit", "graph", "lower", "print", "punct", "space", "upper", "word",
    "xdigit"].map String.toList

/-- Reads a named class behind its opening bracket and answers whether it is negated. -/
def readNamedClass? : List Char → Option (Bool × List Char)
  | ':' :: input =>
    let (negated, input) := match input with
      | '^' :: rest => (true, rest)
      | _ => (false, input)
    let name := input.takeWhile (· ≠ ':')
    match input.drop name.length with
    | ':' :: ']' :: rest => if classNames.contains name then some (negated, rest) else none
    | _ => none
  | _ => none

/-- Reads the beginning of a class behind its opening bracket: a sign for all that is not in it, dashes, and a
closing bracket that is a member because it comes first. All but bytes can be negated. -/
def openClass? (mode : Mode) (input : List Char) : Option (List Char) :=
  let input := mode.skip input
  let negated := input.head? = some '^'
  let input := if negated then mode.skip (input.drop 1) else input
  let members := input.dropWhile (· = '-')
  let members :=
    match members with
    | ']' :: rest => if members.length = input.length then rest else members
    | _ => members
  if negated ∧ !mode.unicode ∨ mode.unicode ∧ mode.foldsCase then none else some members

def readMember? (mode : Mode) : List Char → Option (Atom × List Char)
  | [] => none
  | '\\' :: rest => do
    let (atom, rest) ← readEscape? rest
    if atom.isMember mode then some (atom, rest) else none
  | character :: rest =>
    let atom := Atom.character character false
    if atom.isMember mode then some (atom, rest) else none

def readRange? (mode : Mode) (input : List Char) : Option (List Char) := do
  let (first, rest) ← readMember? mode input
  match mode.skip rest with
  | '-' :: behind =>
    let next := (mode.skip behind).head?
    if next = some ']' ∨ next = some '-' then some ('-' :: behind)
    else do
      let (last, rest) ← readMember? mode (mode.skip behind)
      match first, last with
      | .character first _, .character last _ => if first ≤ last then some rest else none
      | _, _ => none
  | rest => some rest

/-- Reads a class behind its beginning up to and with its closing bracket, where so many other classes are open in
it. The first argument bounds the number of steps. -/
def readClass? (mode : Mode) : Nat → Nat → List Char → Option (List Char)
  | 0, _, _ => none
  | bound + 1, depth, input =>
    match mode.skip input with
    | [] => none
    | ']' :: rest =>
      match depth with
      | 0 => some rest
      | depth + 1 => readClass? mode bound depth rest
    | '&' :: '&' :: rest => readClass? mode bound depth rest
    | '-' :: '-' :: rest => readClass? mode bound depth rest
    | '~' :: '~' :: rest => readClass? mode bound depth rest
    | '[' :: rest =>
      match readNamedClass? rest with
      | some (negated, rest) =>
        if negated && !mode.unicode then none else readClass? mode bound depth rest
      | none =>
        match openClass? mode rest with
        | some rest => readClass? mode bound (depth + 1) rest
        | none => none
    | input =>
      match readRange? mode input with
      | some rest => readClass? mode bound depth rest
      | none => none

/-- What opens with a parenthesis: a group with a mode of its own and perhaps a name, or a change of the mode up to
the end of the group around it. -/
inductive Opening where
  | group (name : Option (List Char)) (mode : Mode)
  | change (mode : Mode)

/-- Reads letters of a mode up to a colon or a closing parenthesis. Every letter and one minus sign may be given
once, and a letter must follow the sign. -/
def readMode? (mode : Mode) (on : Bool) (given : List Char) : List Char → Option (Opening × List Char)
  | [] => none
  | ':' :: rest => if given.head? = some '-' then none else some (.group none mode, rest)
  | ')' :: rest => if given.isEmpty ∨ given.head? = some '-' then none else some (.change mode, rest)
  | letter :: rest =>
    if given.contains letter then none
    else if letter = '-' then readMode? mode false (letter :: given) rest
    else if modeLetters.contains letter then readMode? (mode.switch on letter) on (letter :: given) rest
    else none

def isNameChar (character : Char) : Bool :=
  Text.isAlphanumeric character || ['_', '.', '[', ']'].contains character

def readName? (mode : Mode) (input : List Char) : Option (Opening × List Char) :=
  let name := input.takeWhile isNameChar
  match name, input.drop name.length with
  | first :: _, '>' :: rest =>
    if Text.isAlphabetic first ∨ first = '_' then some (.group (some name) mode, rest) else none
  | _, _ => none

/-- Reads what follows an opening parenthesis. Nothing can be looked at ahead or behind. -/
def readOpening? (mode : Mode) (input : List Char) : Option (Opening × List Char) :=
  match mode.skip input with
  | '?' :: 'P' :: '<' :: rest => readName? mode rest
  | '?' :: '<' :: rest => readName? mode rest
  | '?' :: rest => readMode? mode true [] rest
  | rest => some (.group none mode, rest)

/-- What is known from the part of a pattern that has been read. -/
structure Reading where
  mode : Mode
  /-- The modes around the open groups, the innermost first. -/
  outer : List Mode
  /-- Something stands in front that can be repeated. -/
  repeatable : Bool
  /-- The names of groups. -/
  names : List (List Char)

namespace Reading

/-- Goes on behind an opening. A name is given once. -/
def enter? (reading : Reading) : Opening → Option Reading
  | .change mode => some { reading with mode, repeatable := false }
  | .group name mode =>
    if name.any reading.names.contains then none
    else
      some { mode, outer := reading.mode :: reading.outer, repeatable := false, names := name.toList ++ reading.names }

/-- Goes on behind something that can be repeated, if it is allowed. -/
def behind? (reading : Reading) (allowed : Bool) : Option Reading :=
  if allowed then some { reading with repeatable := true } else none

def step? (reading : Reading) : List Char → Option (Reading × List Char)
  | [] => none
  | '(' :: rest => do
    let (opening, rest) ← readOpening? reading.mode rest
    let reading ← reading.enter? opening
    some (reading, rest)
  | ')' :: rest =>
    match reading.outer with
    | mode :: outer => some ({ reading with mode, outer, repeatable := true }, rest)
    | [] => none
  | '|' :: rest => some ({ reading with repeatable := false }, rest)
  | '[' :: rest => do
    let rest ← openClass? reading.mode rest
    let rest ← readClass? reading.mode (rest.length + 1) 0 rest
    let reading ← reading.behind? true
    some (reading, rest)
  | '\\' :: rest => do
    let (atom, rest) ← readEscape? rest
    let reading ← reading.behind? (atom.isAllowed reading.mode)
    some (reading, rest)
  | character :: rest =>
    if character = '?' ∨ character = '*' ∨ character = '+' then
      if reading.repeatable then some (reading, if rest.head? = some '?' then rest.drop 1 else rest) else none
    else if character = '\x7b' then none
    else
      let allowed :=
        if character = '.' then reading.mode.unicode
        else character = '^' || character = '$' || (Atom.character character false).isAllowed reading.mode
      (reading.behind? allowed).map (·, rest)

/-- The rest of a pattern can be read to its end, where no group is open. The first argument bounds the number of
parts. -/
def isComplete : Nat → Reading → List Char → Bool
  | 0, _, _ => false
  | bound + 1, reading, input =>
    match reading.mode.skip input with
    | [] => reading.outer.isEmpty
    | input =>
      match reading.step? input with
      | some (reading, rest) => isComplete bound reading rest
      | none => false

end Reading

def isValid (text : List Char) : Bool :=
  Reading.isComplete (text.length + 1) ⟨.initial, [], false, []⟩ text

end Spellcast.CommandLine.Pattern
