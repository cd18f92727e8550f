import Spellcast.Format
import Spellcast.Yaml.Node
import Spellcast.Yaml.Plain

/-!
# Reading YAML

YAML as a `Format`. Records are maps only, but where nothing is written an empty one is meant; containers nest
at most 128 deep, and a text that holds more than one document is refused. A reading counts the aliases that it
follows, and a document is refused when they are too many: so a text that repeats itself over and over ends, and
one that holds itself ends at the depth.
-/

namespace Spellcast.Yaml

def depthLimit : Nat := 128

def plainJson? (content : String) : Option Json := (Meaning.ofText content).json? content

/-- The value of a text. Without a tag only a plain one can be more than itself. A standard tag demands a text
that fits it, a tag that the document makes up is refused, and other tags leave it a text. -/
def textJson? (content : String) (style : Style) : Option Tag → Option Json
  | none => if style = .plain then plainJson? content else some (.text content)
  | some .bool => (boolOfWord? content).map .bool
  | some .int => (bounded? content.toList).bind fun value => (Meaning.integer value).json? content
  | some .float => (real? content).bind fun value => (Meaning.real value).json? content
  | some .null => if isNullWord content then some .null else none
  | some .custom => none
  | some .garbled => if style = .plain then plainJson? content else some (.text content)
  | some .other => some (.text content)

/-- Reading a document: a count of the aliases that have been followed, and what does not fit. -/
abbrev Reading := StateT Nat (Except Unfit)

namespace Document

/-- The node that a node stands for. An alias is followed, if not too many of them have been. -/
def follow (document : Document) (node : Node) : Reading Node :=
  match node with
  | .alias number => do
    let followed ← get
    Format.ensure (decide (followed < document.reach))
    set (followed + 1)
    Format.require (document.anchored.lookup number)
  | _ => pure node

def text (document : Document) (node : Node) : Reading String := do
  match ← document.follow node with
  | .text content .. => pure content
  | _ => throw .malformed

/-- The value of a node that holds at most so many levels of containers. -/
def jsonWithin (document : Document) : Nat → Node → Reading Json
  | 0, node => do
    match ← document.follow node with
    | .text content style tag => Format.require (textJson? content style tag)
    | _ => throw .malformed
  | room + 1, node => do
    match ← document.follow node with
    | .text content style tag => Format.require (textJson? content style tag)
    | .list items closed tag =>
      Format.ensure (closed && decide (tag ≠ some .custom))
      .list <$> Format.readAll (document.jsonWithin room) items
    | .map entries closed tag =>
      Format.ensure (closed && decide (tag ≠ some .custom))
      let fields ← entries.mapM fun (key, value) => do
        let key ← document.text key
        let value ← document.jsonWithin room value
        pure (key, value)
      pure (.object (Fields.ofList fields))
    | _ => throw .malformed

mutual

/-- The node can be passed over; aliases in it need not be followed. -/
def isSound : Node → Bool
  | .text .. => true
  | .alias _ => true
  | .list items closed _ => closed && areSound items
  | .map entries closed _ => closed && areSoundEntries entries
  | .fault => false

def areSound : List Node → Bool
  | [] => true
  | item :: rest => isSound item && areSound rest

def areSoundEntries : List (Node × Node) → Bool
  | [] => true
  | (key, value) :: rest => isSound key && isSound value && areSoundEntries rest

end

def offer : Node → Offer Node
  | .list items closed _ => .items items closed
  | .map entries closed _ => .members entries closed
  | .text "" .plain _ => .blank
  | _ => .other

/-- The natural number of a node. It is written plainly, or as a literal text with the tag of integers. -/
def natural? : Node → Option Nat
  | .text content .plain _ => Yaml.natural? 0xFFFFFFFFFFFFFFFF content
  | .text content .literal (some .int) => Yaml.natural? 0xFFFFFFFFFFFFFFFF content
  | _ => none

/-- The node unless it stands for a missing value. Only a plain text does, and with the tag of missing values it
must. -/
def present? (node : Node) : Option (Option Node) :=
  match node with
  | .text content .plain none => some (if content.isEmpty || isNullWord content then none else some node)
  | .text content .plain (some .null) => if isNullWord content then some none else none
  | _ => some (some node)

def format (document : Document) : Format Reading Node where
  offer node := offer <$> document.follow node
  depthLimit := some depthLimit
  listing := .never
  text := document.text
  natural node := do Format.require (natural? (← document.follow node))
  present? node := do Format.require (present? (← document.follow node))
  skip node := Format.ensure (isSound node)
  json depth := document.jsonWithin (depthLimit - depth)

end Document

/-- Reads a whole text with a reader for what its only document holds. -/
def readText {α : Type} (read : Format Reading Node → Node → Reading α) (input : String) : Except Unfit α := do
  let document := Document.ofText input
  let result ← (read document.format document.root).run' 0
  Format.ensure document.complete
  pure result

end Spellcast.Yaml
