import Spellcast.Format
import Spellcast.Json.Tree

/-!
# Reading JSON

JSON as a `Format`: once for syntax trees, where containers nest at most 127 deep, and once for values that
have been read already. `Json.parse?` reads a whole text as a value.
-/

namespace Spellcast.Json

/-- How many containers a JSON text may nest. -/
def depthLimit : Nat := 127

namespace Tree

mutual

def isSound : Tree → Bool
  | null => true
  | bool _ => true
  | number _ => true
  | text _ => true
  | list items closed => closed && areSound items
  | object members closed => closed && areSoundMembers members
  | fault => false

def areSound : List Tree → Bool
  | [] => true
  | item :: rest => isSound item && areSound rest

def areSoundMembers : List (Option String × Tree) → Bool
  | [] => true
  | (_, value) :: rest => isSound value && areSoundMembers rest

end

mutual

/-- The value that a tree stands for at the given depth, if it has no fault, its numbers are in range and it
is not nested too deep. -/
def toJson? (depth : Nat) : Tree → Option Json
  | null => some .null
  | bool value => some (.bool value)
  | number numeral => numeral.value?
  | text content => content.map .text
  | list items closed =>
    if depth < depthLimit ∧ closed then (toItems? (depth + 1) items).map .list else none
  | object members closed =>
    if depth < depthLimit ∧ closed then (toFields? (depth + 1) [] members).map .object else none
  | fault => none

def toItems? (depth : Nat) : List Tree → Option (List Json)
  | [] => some []
  | item :: rest => do
    let first ← toJson? depth item
    let others ← toItems? depth rest
    some (first :: others)

def toFields? (depth : Nat) (fields : Fields) : List (Option String × Tree) → Option Fields
  | [] => some fields
  | (key, value) :: rest => do
    let key ← key
    let value ← toJson? depth value
    toFields? depth (Fields.insert key value fields) rest

end

def natural? : Tree → Option Nat
  | number numeral =>
    match numeral.value? with
    | some (.int (.ofNat value)) => some value
    | _ => none
  | _ => none

def offer : Tree → Offer Tree
  | list items closed => .items items closed
  | object members closed => .members (members.map fun (key, value) => (.text key, value)) closed
  | _ => .other

def text? : Tree → Option String
  | text content => content
  | _ => none

/-- The tree unless it is null. -/
def present? : Tree → Option Tree
  | null => none
  | tree => some tree

def format : Format (Except Unfit) Tree where
  offer tree := pure tree.offer
  depthLimit := some depthLimit
  listing := .exact
  text tree := Format.require tree.text?
  natural tree := Format.require tree.natural?
  present? tree := pure tree.present?
  skip tree := Format.ensure tree.isSound
  json depth tree := Format.require (tree.toJson? depth)

end Tree

def offer : Json → Offer Json
  | list items => .items items true
  | object fields => .members (fields.map fun (key, value) => (.text key, value)) true
  | _ => .other

def text? : Json → Option String
  | text content => some content
  | _ => none

def natural? : Json → Option Nat
  | int (.ofNat value) => some value
  | _ => none

/-- The value unless it is null. -/
def present? : Json → Option Json
  | null => none
  | value => some value

/-- JSON values: nothing about them can be wrong any more, and their depth is not bounded. -/
def format : Format (Except Unfit) Json where
  offer value := pure value.offer
  depthLimit := none
  listing := .exact
  text value := Format.require value.text?
  natural value := Format.require value.natural?
  present? value := pure value.present?
  skip _ := pure ()
  json _ value := pure value

/-- Reads a whole text with a reader for what it holds. Nothing but blanks may follow. -/
def readText (read : Tree → Except Unfit α) (input : String) : Except Unfit α :=
  let (tree, ended) := Tree.ofText input
  match read tree with
  | .ok result => if ended then .ok result else .error .malformed
  | .error unfit => .error unfit

def parse? (input : String) : Option Json :=
  (readText (fun tree => Format.require (tree.toJson? 0)) input).toOption

end Spellcast.Json
