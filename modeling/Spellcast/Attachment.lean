import Spellcast.Identifier

/-!
# Attachments

Side storage of a context. A store maps identifiers to cells, and the cells lie outside of it: copying a store
copies the mapping, while the cells stay shared. A value may change in its cell, and this is seen through every store
that holds the cell. Stores take values of any kinds. Those of `CellValue` are what parts attach, and of them only a
tally changes once it is stored.
-/

namespace Spellcast

/-- What kind of value a cell holds. -/
inductive CellKind where
  | natural
  | text
  | flag
  /-- A number that is counted up in place. -/
  | tally
deriving DecidableEq

def CellKind.typeName : CellKind → String
  | natural => "u64"
  | text => "alloc::string::String"
  | flag => "bool"
  | tally => "core::sync::atomic::Atomic<u64>"

inductive CellValue where
  | natural (value : Nat)
  | text (value : String)
  | flag (value : Bool)
  | tally (value : Nat)
deriving DecidableEq

instance : Inhabited CellValue := ⟨.natural 0⟩

def CellValue.kind : CellValue → CellKind
  | natural _ => .natural
  | text _ => .text
  | flag _ => .flag
  | tally _ => .tally

/-- Values that are each of one kind, by which a store tells them apart. -/
class HasKind (ν : Type) (τ : outParam Type) where
  kindOf : ν → τ

instance : HasKind CellValue CellKind := ⟨CellValue.kind⟩

@[simp]
theorem CellValue.kindOf_eq_kind (value : CellValue) : HasKind.kindOf value = value.kind := rfl

abbrev CellId := Nat

/-- All cells there are, by number. -/
structure Cells (ν : Type := CellValue) where
  values : Array ν
deriving DecidableEq

namespace Cells

variable {ν : Type}

def empty : Cells ν := ⟨#[]⟩

def read? (cells : Cells ν) (id : CellId) : Option ν := cells.values[id]?

def allocate (cells : Cells ν) (value : ν) : CellId × Cells ν :=
  (cells.values.size, ⟨cells.values.push value⟩)

/-- Changes the value in a cell, as can be done by whoever has the cell; nothing happens if there is none. -/
def change (cells : Cells ν) (id : CellId) (change : ν → ν) : Cells ν :=
  match cells.read? id with
  | some value => ⟨cells.values.set! id (change value)⟩
  | none => cells

def tallyModulus : Nat := 0x10000000000000000

end Cells

def CellValue.add (amount : Nat) : CellValue → CellValue
  | tally value => .tally ((value + amount) % Cells.tallyModulus)
  | natural value => .natural value
  | text value => .text value
  | flag value => .flag value

def Cells.add (cells : Cells) (id : CellId) (amount : Nat) : Cells := cells.change id (.add amount)

/-- Why an attachment cannot be used: there is one, but of another kind. -/
inductive AttachmentFault (τ : Type := CellKind) where
  | kindMismatch (id : Identifier) (expected : τ)
deriving DecidableEq

def AttachmentFault.message : AttachmentFault → String
  | kindMismatch id expected => s!"Attachment '{id.text}' is not of type {expected.typeName}"

/-- The attachments of one context: at most one cell for each identifier. -/
structure AttachmentStore where
  entries : List (Identifier × CellId)
deriving DecidableEq

namespace AttachmentStore

variable {ν τ : Type}

def empty : AttachmentStore := ⟨[]⟩

def lookup (id : Identifier) : List (Identifier × CellId) → Option CellId
  | [] => none
  | (other, cell) :: rest => if other = id then some cell else lookup id rest

def replace (id : Identifier) (cell : CellId) : List (Identifier × CellId) → List (Identifier × CellId)
  | [] => [(id, cell)]
  | (other, held) :: rest =>
    if other = id then (id, cell) :: rest else (other, held) :: replace id cell rest

def cell? (store : AttachmentStore) (id : Identifier) : Option CellId := lookup id store.entries

def contains (store : AttachmentStore) (id : Identifier) : Bool := (store.cell? id).isSome

def size (store : AttachmentStore) : Nat := store.entries.length

def ids (store : AttachmentStore) : List Identifier := store.entries.map (·.1)

/-- Puts an existing cell under an identifier; answers the cell that was there. -/
def insertShared (store : AttachmentStore) (id : Identifier) (cell : CellId) :
    Option CellId × AttachmentStore :=
  (store.cell? id, ⟨replace id cell store.entries⟩)

/-- Takes away what is under an identifier; answers the cell that was there. -/
def remove (store : AttachmentStore) (id : Identifier) : Option CellId × AttachmentStore :=
  (store.cell? id, ⟨store.entries.filter (·.1 != id)⟩)

/-- Puts a new cell with the value under an identifier; answers the cell that was there. -/
def insert (store : AttachmentStore) (cells : Cells ν) (id : Identifier) (value : ν) :
    Option CellId × AttachmentStore × Cells ν :=
  let (cell, cells) := cells.allocate value
  let (replaced, store) := store.insertShared id cell
  (replaced, store, cells)

section

variable [HasKind ν τ] [DecidableEq τ]

/-- The cell under an identifier if it holds a value of the kind. -/
def get? (store : AttachmentStore) (cells : Cells ν) (kind : τ) (id : Identifier) : Option CellId :=
  match store.cell? id with
  | none => none
  | some cell =>
    match cells.read? cell with
    | some value => if HasKind.kindOf value = kind then some cell else none
    | none => none

/-- The cell under an identifier, made with the given value if there is none. A cell of another kind is never
replaced. -/
def getOrInsert (store : AttachmentStore) (cells : Cells ν) (id : Identifier) (value : ν) :
    Except (AttachmentFault τ) CellId × AttachmentStore × Cells ν :=
  match store.cell? id with
  | none =>
    let (cell, cells) := cells.allocate value
    (.ok cell, (store.insertShared id cell).2, cells)
  | some _ =>
    match store.get? cells (HasKind.kindOf value) id with
    | some cell => (.ok cell, store, cells)
    | none => (.error (.kindMismatch id (HasKind.kindOf value)), store, cells)

end

def sharesWith (first second : AttachmentStore) (id : Identifier) : Bool :=
  match first.cell? id, second.cell? id with
  | some first, some second => first == second
  | _, _ => false

def describe (store : AttachmentStore) : String :=
  let ids := ", ".intercalate (store.ids.map Identifier.describe)
  "AttachmentStore \x7b attachment_count: " ++ toString store.size ++ ", attachment_ids: [" ++ ids ++ "] \x7d"

end AttachmentStore

end Spellcast
