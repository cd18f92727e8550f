import Spellcast.CommandLine.Pattern

/-!
# Filters of events

A filter is a list of directives between commas. A directive names a target, a span with some fields, or both, and the
least important level that is shown; `Filter.accepts` says whether a text is a filter.

A directive is recognised without the blanks around it, but its parts are cut out of the text with the blanks, at the
same places. So a level cannot be read where there are blanks, and fields are read too early if blanks stand in front.
-/

namespace Spellcast.CommandLine.Filter

/-- The names of the levels, from nothing to everything. -/
def levelNames : List (List Char) := ["off", "error", "warn", "info", "debug", "trace"].map String.toList

def isLevel (text : List Char) : Bool :=
  let digits := match text with
    | '+' :: rest => rest
    | rest => rest
  levelNames.contains (text.map Char.toLower) ||
    (!digits.isEmpty && digits.all Char.isDigit && decide ((String.ofList digits).toNat?.getD 6 ≤ 5))

/-- A number behind its sign: a word for one that is not finite, or digits with a point and an exponent. -/
def isUnsigned (text : List Char) : Bool :=
  let whole := text.takeWhile Char.isDigit
  let behind := text.drop whole.length
  let point := behind.head? = some '.'
  let fraction := if point then (behind.drop 1).takeWhile Char.isDigit else []
  let behind := if point then behind.drop (1 + fraction.length) else behind
  let ends : Bool :=
    match behind with
    | [] => true
    | letter :: exponent =>
      let digits := match exponent with
        | '+' :: rest => rest
        | '-' :: rest => rest
        | rest => rest
      (letter == 'e' || letter == 'E') && !digits.isEmpty && digits.all Char.isDigit
  ["inf", "infinity", "nan"].contains (String.ofList (text.map Char.toLower)) ||
    (!(whole.isEmpty && fraction.isEmpty) && ends)

/-- The value of a field: a truth value, a number or a pattern. All but a number with a plus sign are patterns. -/
def isValue : List Char → Bool
  | '+' :: rest => isUnsigned rest
  | text => Pattern.isValid text

/-- A field: its name, and a value behind an equals sign. What follows a second one is not looked at. -/
def isField (text : List Char) : Bool :=
  match text.dropWhile (· ≠ '=') with
  | _ :: behind => isValue (behind.takeWhile (· ≠ '='))
  | [] => true

/-- A directive as it is written, and the blanks that stand around it. -/
structure Directive where
  text : String
  trimmed : List Char

namespace Directive

def ofText (text : String) : Directive := ⟨text, Text.trim text.toList⟩

def isTight (directive : Directive) : Bool := directive.trimmed.length == directive.text.length

/-- The part of the text that stands where some characters of the directive stand when the blanks are taken away,
given what follows these characters. Places are counted in bytes; there is nothing if one of them is inside of a
character. -/
def part? (directive : Directive) (characters behind : List Char) : Option (List Char) :=
  let size (characters : List Char) : Nat := (String.ofList characters).utf8ByteSize
  let stop := size directive.trimmed - size behind
  (String.fromUTF8? (directive.text.toUTF8.extract (stop - size characters) stop)).map String.toList

def startsTarget (character : Char) : Bool :=
  Text.isAlphanumeric character || character == '-' || character == ':' || character == '_'

/-- What stands behind a target or a span: nothing, or an equals sign and perhaps a level. -/
def isEnd (directive : Directive) : List Char → Bool
  | [] => true
  | '=' :: level => directive.isTight && (level.isEmpty || isLevel level)
  | _ => false

def readField? (directive : Directive) (input : List Char) : Option (List Char) :=
  let field := input.takeWhile (· ≠ '\x7d')
  match input.drop field.length with
  | '\x7d' :: ']' :: rest =>
    if field.isEmpty then none
    else if ((directive.part? field ('\x7d' :: ']' :: rest)).map isField).getD false then some rest
    else none
  | _ => none

def readSpan? (directive : Directive) (input : List Char) : Option (List Char) :=
  match input.dropWhile fun character => character != ']' && character != '\x7b' with
  | ']' :: rest => some rest
  | '\x7b' :: rest => directive.readField? rest
  | _ => none

def isValid (directive : Directive) : Bool :=
  let endsAfterSpan (rest : List Char) : Bool := ((directive.readSpan? rest).map directive.isEnd).getD false
  match directive.trimmed with
  | [] => false
  | '[' :: rest => endsAfterSpan rest
  | head :: rest =>
    startsTarget head &&
      match (head :: rest).dropWhile fun character => character != '=' && character != '[' with
      | '[' :: rest => endsAfterSpan rest
      | rest => directive.isEnd rest

end Directive

def accepts (text : String) : Bool :=
  ((text.splitOn ",").filter (! ·.isEmpty)).all fun directive => (Directive.ofText directive).isValid

end Spellcast.CommandLine.Filter
