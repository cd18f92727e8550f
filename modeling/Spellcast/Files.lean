/-!
# Files

A tree of files, and how a path leads to one of them. `Files.read` answers the text of a file or why there is
none; `Path.extension` is the part of a file's name that says what it holds.
-/

namespace Spellcast

namespace Path

def names (path : String) : List String :=
  (path.splitOn "/").filter fun name => name != "" && name != "."

/-- The name of the file that a path leads to, if it ends in a name. -/
def fileName? (path : String) : Option String :=
  match (names path).getLast? with
  | some ".." => none
  | name => name

/-- The characters behind the last point of a name, unless the point is its first character. -/
def extensionOf? (name : List Char) : Option (List Char) :=
  match name.reverse.span (· != '.') with
  | (_, []) => none
  | (_, [_]) => none
  | (ending, _) => some ending.reverse

def extension? (path : String) : Option String := do
  let name ← fileName? path
  let ending ← extensionOf? name.toList
  return String.ofList ending

def lowered (text : String) : String := String.ofList (text.toList.map Char.toLower)

end Path

/-- Files by the names along their paths. -/
structure Files where
  entries : List (List String × List UInt8)

namespace Files

inductive Fault where
  | notFound
  | notDirectory
  | isDirectory
  | nameTooLong
  /-- A path holds a zero. -/
  | badPath
  | notText
  /-- What else the system has to say. -/
  | other (text : String)
deriving DecidableEq

def Fault.message : Fault → String
  | notFound => "No such file or directory (os error 2)"
  | notDirectory => "Not a directory (os error 20)"
  | isDirectory => "Is a directory (os error 21)"
  | nameTooLong => "File name too long (os error 36)"
  | badPath => "file name contained an unexpected NUL byte"
  | notText => "stream did not contain valid UTF-8"
  | other text => text

def ofList (files : List (String × List UInt8)) : Files :=
  ⟨files.map fun (path, content) => (Path.names path, content)⟩

def content? (files : Files) (names : List String) : Option (List UInt8) := files.entries.lookup names

/-- There is a directory with these names. The root always is one. -/
def isDirectory (files : Files) (names : List String) : Bool :=
  names.isEmpty || files.entries.any fun (other, _) => names.isPrefixOf other && other != names

def longestName : Nat := 255

def longestPath : Nat := 4095

/-- Follows steps from a directory or a file. Every step starts from a directory. -/
def follow (files : Files) : List String → List String → Except Fault (List String)
  | place, [] => .ok place
  | place, step :: rest =>
    if files.isDirectory place then
      if step = "" ∨ step = "." then follow files place rest
      else if step = ".." then
        match place with
        | [] => .error .notFound
        | _ => follow files place.dropLast rest
      else if longestName < step.utf8ByteSize then .error .nameTooLong
      else follow files (place ++ [step]) rest
    else if (files.content? place).isSome then .error .notDirectory
    else .error .notFound

/-- Finds the file that a path leads to. There is nothing above or beside the root. -/
def find (files : Files) (path : String) : Except Fault (List UInt8) := do
  if path.toList.contains '\x00' then .error .badPath
  if path.isEmpty then .error .notFound
  if longestPath < path.utf8ByteSize then .error .nameTooLong
  if path.toList.head? = some '/' then .error .notFound
  let place ← files.follow [] (path.splitOn "/")
  match files.content? place with
  | some content => .ok content
  | none => if files.isDirectory place then .error .isDirectory else .error .notFound

def read (files : Files) (path : String) : Except Fault String := do
  let content ← files.find path
  match String.fromUTF8? ⟨content.toArray⟩ with
  | some text => .ok text
  | none => .error .notText

end Files

end Spellcast
