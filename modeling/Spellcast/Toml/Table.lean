import Spellcast.Number.Binary64

/-!
# Tables of TOML

The values of a TOML document, and how its tables grow line by line. A table remembers how it came to be: only
some tables may be opened again by a heading, and only some may be added to by a dotted key.
-/

namespace Spellcast.Toml

inductive Origin where
  /-- By a heading of its own, or as the root. -/
  | heading
  /-- By a heading further in. -/
  | implied
  /-- By a dotted key. -/
  | dotted
  /-- By a value between braces. -/
  | inline
deriving DecidableEq

inductive Value where
  | text (value : String)
  | int (value : Int)
  | real
  | bool (value : Bool)
  /-- A date, a time or both. -/
  | moment
  | list (items : List Value)
  | table (entries : List (String × Value)) (origin : Origin)
  /-- The tables of headings in double brackets, in order. -/
  | rows (tables : List (List (String × Value)))

instance : Inhabited Value := ⟨.moment⟩

abbrev Entries := List (String × Value)

namespace Entries

def exchange (key : String) (value : Value) : Entries → Entries
  | [] => []
  | (other, held) :: rest =>
    if other = key then (key, value) :: rest else (other, held) :: exchange key value rest

/-- Changes the table that a path leads to, given its origin. Tables that are missing along the path are made,
and of several rows the last one is meant. A dotted key leads through no table that has a heading. -/
def changeAt? (viaDots : Bool) (change : Origin → Entries → Option Entries) :
    List String → Origin → Entries → Option Entries
  | [], origin, entries => change origin entries
  | key :: path, _, entries =>
    match entries.lookup key with
    | none => do
      let origin := if viaDots then Origin.dotted else .implied
      let inner ← changeAt? viaDots change path origin []
      some (entries ++ [(key, .table inner origin)])
    | some (.table inner origin) =>
      if origin = .inline ∨ (viaDots ∧ origin = .heading) then none
      else do
        let inner ← changeAt? viaDots change path origin inner
        some (exchange key (.table inner origin) entries)
    | some (.rows tables) =>
      match tables.getLast? with
      | none => none
      | some last => do
        let last ← changeAt? viaDots change path .heading last
        some (exchange key (.rows (tables.dropLast ++ [last])) entries)
    | some _ => none

/-- Adds a value under a dotted key. The last table on the way must be one of dotted keys, if there is any. -/
def add? (path : List String) (key : String) (value : Value) (origin : Origin) (entries : Entries) :
    Option Entries :=
  let insert (origin : Origin) (entries : Entries) : Option Entries :=
    if decide (origin = .dotted) = path.isEmpty ∨ (entries.lookup key).isSome then none
    else some (entries ++ [(key, value)])
  changeAt? true insert path origin entries

/-- Opens the table of a heading. It must not have been opened before. -/
def open? (path : List String) (key : String) (entries : Entries) : Option Entries :=
  let insert (_ : Origin) (entries : Entries) : Option Entries :=
    match entries.lookup key with
    | none => some (entries ++ [(key, .table [] .heading)])
    | some (.table inner .implied) => some (exchange key (.table inner .heading) entries)
    | some _ => none
  changeAt? false insert path .heading entries

def openRow? (path : List String) (key : String) (entries : Entries) : Option Entries :=
  let insert (_ : Origin) (entries : Entries) : Option Entries :=
    match entries.lookup key with
    | none => some (entries ++ [(key, .rows [[]])])
    | some (.rows tables) => some (exchange key (.rows (tables ++ [[]])) entries)
    | some _ => none
  changeAt? false insert path .heading entries

end Entries

end Spellcast.Toml
