import Spellcast.Toml.Lexeme
import Spellcast.Toml.Table

/-!
# Documents of TOML

How the values of a TOML text are read, and how its lines build up a table: a line holds a heading, an entry of the
table that was opened last, or nothing but a comment.
-/

namespace Spellcast.Toml

def depthLimit : Nat := 79

def Entries.addAt? (key : List String) (value : Value) (origin : Origin) (entries : Entries) : Option Entries :=
  match key.getLast? with
  | some last => Entries.add? key.dropLast last value origin entries
  | none => none

def readNumber? (input : List Char) : Option (Value × List Char) :=
  if startsTime input || startsDate input then (skipMoment? input).map fun rest => (.moment, rest)
  else
    match skipReal? input with
    | some rest => some (.real, rest)
    | none => (readInteger? input).map fun (value, rest) => (.int value, rest)

def readLeaf? (input : List Char) : Option (Value × List Char) :=
  match input with
  | '"' :: _ | '\'' :: _ => (readText? input).map fun (value, rest) => (.text value, rest)
  | 't' :: 'r' :: 'u' :: 'e' :: rest => some (.bool true, rest)
  | 'f' :: 'a' :: 'l' :: 's' :: 'e' :: rest => some (.bool false, rest)
  | _ => readNumber? input

/-- Reads the items of a list behind its opening bracket, up to and with the closing one. A comma may follow the
last item. The number bounds how many there are. -/
def readItems? (read : List Char → Option (Value × List Char)) :
    Nat → List Char → Option (List Value × List Char)
  | 0, _ => none
  | bound + 1, input =>
    match skipLines input.length input with
    | ']' :: rest => some ([], rest)
    | rest => do
      let (item, rest) ← read rest
      match skipLines rest.length rest with
      | ']' :: rest => some ([item], rest)
      | ',' :: rest => do
        let (others, rest) ← readItems? read bound rest
        some (item :: others, rest)
      | _ => none

def readEntry? (read : List Char → Option (Value × List Char)) (input : List Char) :
    Option ((List String × Value) × List Char) := do
  let (key, rest) ← readKey? longestKey input
  let rest ← expect? '=' rest
  let (value, rest) ← read (skipBlanks rest)
  some ((key, value), rest)

/-- Reads the entries of a table between braces, up to and with the closing one. At least one follows. The number
bounds how many there are. -/
def readFields? (read : List Char → Option (Value × List Char)) :
    Nat → Entries → List Char → Option (Entries × List Char)
  | 0, _, _ => none
  | bound + 1, entries, input => do
    let ((key, value), rest) ← readEntry? read input
    let entries ← Entries.addAt? key value .inline entries
    match skipBlanks rest with
    | '\x7d' :: rest => some (entries, rest)
    | ',' :: rest => readFields? read bound entries rest
    | _ => none

/-- Reads a value that nests at most so many lists and tables. -/
def readValue? : Nat → List Char → Option (Value × List Char)
  | 0, input => readLeaf? input
  | levels + 1, input =>
    match input with
    | '[' :: rest => do
      let (items, rest) ← readItems? (readValue? levels) (rest.length + 1) rest
      some (.list items, rest)
    | '\x7b' :: rest =>
      match skipBlanks rest with
      | '\x7d' :: rest => some (.table [] .inline, rest)
      | _ => do
        let (entries, rest) ← readFields? (readValue? levels) (rest.length + 1) [] rest
        some (.table entries .inline, rest)
    | _ => readLeaf? input

/-- A document so far: its root, and the heading of the table that entries go to. -/
structure Draft where
  root : Entries
  heading : List String

namespace Draft

def empty : Draft := ⟨[], []⟩

def openTable? (heading : List String) (draft : Draft) : Option Draft := do
  let last ← heading.getLast?
  let root ← draft.root.open? heading.dropLast last
  some ⟨root, heading⟩

def openRow? (heading : List String) (draft : Draft) : Option Draft := do
  let last ← heading.getLast?
  let root ← draft.root.openRow? heading.dropLast last
  some ⟨root, heading⟩

/-- Adds an entry to the table that was opened last. -/
def add? (key : List String) (value : Value) (draft : Draft) : Option Draft := do
  let root ← Entries.changeAt? false (Entries.addAt? key value) draft.heading .heading draft.root
  some ⟨root, draft.heading⟩

def readLine? (draft : Draft) (input : List Char) : Option (Draft × List Char) :=
  match endLine? input with
  | some rest => some (draft, rest)
  | none =>
    match skipBlanks input with
    | '[' :: '[' :: rest => do
      let (heading, rest) ← readKey? longestKey rest
      let rest ← expect? ']' (← expect? ']' rest)
      let rest ← endLine? rest
      some (← draft.openRow? heading, rest)
    | '[' :: rest => do
      let (heading, rest) ← readKey? longestKey rest
      let rest ← endLine? (← expect? ']' rest)
      some (← draft.openTable? heading, rest)
    | rest => do
      let ((key, value), rest) ← readEntry? (readValue? depthLimit) rest
      let rest ← endLine? rest
      some (← draft.add? key value, rest)

/-- Reads all lines. The number bounds how many there are. -/
def readLines? : Nat → Draft → List Char → Option Draft
  | _, draft, [] => some draft
  | 0, _, _ => none
  | bound + 1, draft, input => do
    let (draft, rest) ← draft.readLine? input
    readLines? bound draft rest

end Draft

/-- Reads a document; a byte order mark may stand in front. -/
def readDocument? (input : List Char) : Option Entries :=
  let lines := match input with
    | '\uFEFF' :: rest => rest
    | rest => rest
  (Draft.readLines? lines.length .empty lines).map (·.root)

end Spellcast.Toml
