import Spellcast.Number.Binary64

/-!
# JSON values

Values of style blobs and tags. The fields of an object that serves as a map are kept in strictly increasing
order of their keys by `Fields.insert`, so a repeated key keeps its last value and equal maps are equal lists.
-/

namespace Spellcast

/-- A JSON value. An integer literal stays an integer, any other number is a binary number. -/
inductive Json where
  | null
  | bool (value : Bool)
  | int (value : Int)
  | real (value : Binary64)
  | text (value : String)
  | list (items : List Json)
  | object (fields : List (String × Json))

instance : Inhabited Json := ⟨.null⟩

abbrev Fields := List (String × Json)

namespace Fields

def find? (key : String) : Fields → Option Json
  | [] => none
  | (other, value) :: rest => if other = key then some value else find? key rest

/-- Stores a value under a key, in the place that keeps the keys increasing; a value that was there is
replaced. -/
def insert (key : String) (value : Json) : Fields → Fields
  | [] => [(key, value)]
  | (other, held) :: rest =>
    if key = other then (key, value) :: rest
    else if key < other then (key, value) :: (other, held) :: rest
    else (other, held) :: insert key value rest

def erase (key : String) : Fields → Fields
  | [] => []
  | (other, held) :: rest => if other = key then rest else (other, held) :: erase key rest

/-- The map of a list of pairs; of several values under one key the last one stays. -/
def ofList (pairs : List (String × Json)) : Fields :=
  pairs.foldl (fun fields (key, value) => insert key value fields) []

end Fields

namespace Json

mutual

/-- Two values are the same. Binary numbers are compared by value and are never the same as an integer. -/
def same : Json → Json → Bool
  | null, null => true
  | bool first, bool second => first == second
  | int first, int second => first == second
  | real first, real second => first == second
  | text first, text second => first == second
  | list first, list second => sameItems first second
  | object first, object second => sameFields first second
  | _, _ => false

def sameItems : List Json → List Json → Bool
  | [], [] => true
  | first :: firstRest, second :: secondRest => same first second && sameItems firstRest secondRest
  | _, _ => false

def sameFields : List (String × Json) → List (String × Json) → Bool
  | [], [] => true
  | (firstKey, first) :: firstRest, (secondKey, second) :: secondRest =>
    firstKey == secondKey && same first second && sameFields firstRest secondRest
  | _, _ => false

end

instance : BEq Json := ⟨same⟩

def nat (value : Nat) : Json := .int value

def ofOption (write : α → Json) : Option α → Json
  | none => .null
  | some value => write value

/-- The field of an object, if the value is an object that has it. -/
def field? (key : String) : Json → Option Json
  | object fields => Fields.find? key fields
  | _ => none

end Json

end Spellcast
