/-!
# Identifiers

Instructions, attachments and custom cancel reasons are named by an identifier `space:path`. A text without
a colon names a path in the default space. `Identifier.parse` accepts exactly the texts whose parts are
non-empty and drawn from their alphabets, and `Identifier.text` writes the joined form that it reads back.
-/

namespace Spellcast

def isSpaceChar (character : Char) : Bool :=
  ('a' ≤ character && character ≤ 'z') || ('0' ≤ character && character ≤ '9') ||
    character == '_' || character == '.' || character == '-'

/-- A character that may stand in the path of an identifier: the slash is allowed here as well. -/
def isPathChar (character : Char) : Bool :=
  isSpaceChar character || character == '/'

/-- The text is non-empty and every character of it is allowed. -/
def IsWord (allowed : Char → Bool) (word : String) : Prop :=
  word ≠ "" ∧ word.toList.all allowed = true

instance (allowed : Char → Bool) (word : String) : Decidable (IsWord allowed word) :=
  inferInstanceAs (Decidable (_ ∧ _))

/-- A namespaced identifier. Both parts are words over their own alphabet, so the joined form splits at its
only colon. -/
structure Identifier where
  space : String
  path : String
  space_isWord : IsWord isSpaceChar space
  path_isWord : IsWord isPathChar path
deriving DecidableEq

namespace Identifier

def defaultSpace : String := "spellbook"

theorem defaultSpace_isWord : IsWord isSpaceChar defaultSpace := by decide

/-- The joined form `space:path`. -/
def text (id : Identifier) : String :=
  id.space ++ ":" ++ id.path

instance : ToString Identifier := ⟨text⟩

/-- Why a text is no identifier. Both causes keep the joined form of what was given. -/
inductive Fault where
  /-- One of the two parts is empty. -/
  | empty (input : String)
  /-- A character outside the alphabet of its part. -/
  | badCharacter (input : String) (character : Char)
deriving DecidableEq

def Fault.message : Fault → String
  | .empty input => "Identifier '" ++ input ++ "' has an empty namespace or path"
  | .badCharacter input character =>
    "Identifier '" ++ input ++ "' contains invalid character '" ++ character.toString ++ "'"

/-- Joins a space and a path. Emptiness is reported before any character, and the space is looked at before
the path. -/
def make (space path : String) : Except Fault Identifier :=
  if empty : space = "" ∨ path = "" then
    .error (.empty (space ++ ":" ++ path))
  else
    match spaceFault : space.toList.find? (! isSpaceChar ·) with
    | some character => .error (.badCharacter (space ++ ":" ++ path) character)
    | none =>
      match pathFault : path.toList.find? (! isPathChar ·) with
      | some character => .error (.badCharacter (space ++ ":" ++ path) character)
      | none =>
        .ok
          { space, path
            space_isWord := ⟨fun equal => empty (Or.inl equal), by
              simpa using spaceFault⟩
            path_isWord := ⟨fun equal => empty (Or.inr equal), by
              simpa using pathFault⟩ }

/-- An identifier in the default space. -/
def ofPath (path : String) : Except Fault Identifier :=
  make defaultSpace path

/-- Reads an identifier: the first colon separates the space from the path, and a text without a colon is a
path in the default space. -/
def parse (input : String) : Except Fault Identifier :=
  match input.toList.span (· != ':') with
  | (_, []) => ofPath input
  | (space, _ :: path) => make (String.ofList space) (String.ofList path)

/-- Identifiers are ordered by space and then by path. -/
def before (first second : Identifier) : Bool :=
  first.space < second.space || (first.space == second.space && first.path < second.path)

/-- Puts an identifier in its place in a strictly increasing list; one that is already there is not
repeated. -/
def insertSorted (id : Identifier) : List Identifier → List Identifier
  | [] => [id]
  | head :: tail =>
    if id = head then head :: tail
    else if before id head then id :: head :: tail
    else head :: insertSorted id tail

/-- The identifiers of a list in increasing order, each once. -/
def sorted (ids : List Identifier) : List Identifier :=
  ids.foldr insertSorted []

def describe (id : Identifier) : String :=
  "Identifier \x7b namespace: \"" ++ id.space ++ "\", path: \"" ++ id.path ++ "\" \x7d"

end Identifier

end Spellcast
