import Spellcast.Context
import Spellcast.Format

/-!
# Records

The forms in which colours, looks, programs, item stacks and kinds of casters are written down. Every form is
written as JSON by `toJson` and read from any notation by `read`; a record of a program keeps only the names of
its instructions.
-/

namespace Spellcast

open Format (Member)

variable {m : Type → Type} {ν : Type} [Monad m] [MonadExcept Unfit m]

namespace Color

def toJson (color : Color) : Json :=
  .object [("red", .nat color.red.toNat), ("green", .nat color.green.toNat), ("blue", .nat color.blue.toNat)]

/-- The channels of a colour that have been read. -/
structure Draft where
  red : Option UInt8
  green : Option UInt8
  blue : Option UInt8

def readChannel (format : Format m ν) (value : ν) : m UInt8 :=
  UInt8.ofNat <$> format.readNatural 255 value

def plan (format : Format m ν) : List (Member m ν Draft) :=
  [ { name := "red", optional := false, given := (·.red.isSome)
      read := fun _ value draft => do
        let red ← readChannel format value
        pure { draft with red := some red } },
    { name := "green", optional := false, given := (·.green.isSome)
      read := fun _ value draft => do
        let green ← readChannel format value
        pure { draft with green := some green } },
    { name := "blue", optional := false, given := (·.blue.isSome)
      read := fun _ value draft => do
        let blue ← readChannel format value
        pure { draft with blue := some blue } } ]

/-- Reads a colour; all three channels must be there. -/
def read (format : Format m ν) (depth : Nat) (value : ν) : m Color := do
  let draft ← format.readRecord depth (plan format) ⟨none, none, none⟩ value
  match draft with
  | ⟨some red, some green, some blue⟩ => pure ⟨red, green, blue⟩
  | _ => throw .malformed

end Color

namespace Visual

def toJson (visual : Visual) : Json :=
  .object [("color", visual.color.toJson), ("style", .object visual.style)]

/-- The parts of a look that have been read. -/
structure Draft where
  color : Option Color
  style : Option Fields

def plan (format : Format m ν) : List (Member m ν Draft) :=
  [ { name := "color", optional := true, given := (·.color.isSome)
      read := fun depth value draft => do
        let color ← Color.read format depth value
        pure { draft with color := some color } },
    { name := "style", optional := true, given := (·.style.isSome)
      read := fun depth value draft => do
        let style ← format.readMap depth value
        pure { draft with style := some style } } ]

/-- Reads a look. What is missing has its default. -/
def read (format : Format m ν) (depth : Nat) (value : ν) : m Visual := do
  let draft ← format.readRecord depth (plan format) ⟨none, none⟩ value
  pure ⟨draft.color.getD .default, draft.style.getD []⟩

end Visual

/-- A program as it is written down: the names of its instructions and its look. -/
structure Record where
  instructions : List Identifier
  visual : Visual

namespace Record

def ofProgram {κ : Type} (program : Program κ) : Record := ⟨program.ids, program.visual⟩

def toJson (record : Record) : Json :=
  .object
    [("instructions", .list (record.instructions.map fun id => .text id.text)),
      ("visual", record.visual.toJson)]

/-- The parts of a record that have been read. -/
structure Draft where
  instructions : Option (List Identifier)
  visual : Option Visual

def plan (format : Format m ν) : List (Member m ν Draft) :=
  [ { name := "instructions", optional := false, given := (·.instructions.isSome)
      read := fun depth value draft => do
        let instructions ← format.readList depth format.readIdentifier value
        pure { draft with instructions := some instructions } },
    { name := "visual", optional := true, given := (·.visual.isSome)
      read := fun depth value draft => do
        let visual ← Visual.read format depth value
        pure { draft with visual := some visual } } ]

/-- Reads a record. The instructions must be there, the look has its default. -/
def read (format : Format m ν) (depth : Nat) (value : ν) : m Record := do
  let draft ← format.readRecord depth (plan format) ⟨none, none⟩ value
  match draft.instructions with
  | some instructions => pure ⟨instructions, draft.visual.getD .default⟩
  | none => throw .malformed

end Record

namespace ItemStack

def toJson (stack : ItemStack) : Json :=
  .object
    [("item", .ofOption (fun id => .text id.text) stack.item), ("count", .nat stack.count),
      ("tag", .object stack.tag)]

def greatestCount : Nat := 0xFFFFFFFF

/-- The parts of an item stack that have been read. -/
structure Draft where
  item : Option (Option Identifier)
  count : Option Nat
  tag : Option Fields

def plan (format : Format m ν) : List (Member m ν Draft) :=
  [ { name := "item", optional := false, given := (·.item.isSome)
      read := fun _ value draft => do
        let item ← format.readOptional format.readIdentifier value
        pure { draft with item := some item } },
    { name := "count", optional := true, given := (·.count.isSome)
      read := fun _ value draft => do
        let count ← format.readNatural greatestCount value
        pure { draft with count := some count } },
    { name := "tag", optional := true, given := (·.tag.isSome)
      read := fun depth value draft => do
        let tag ← format.readMap depth value
        pure { draft with tag := some tag } } ]

/-- Reads an item stack. What is missing is empty. -/
def read (format : Format m ν) (depth : Nat) (value : ν) : m ItemStack := do
  let draft ← format.readRecord depth (plan format) ⟨none, none, none⟩ value
  pure ⟨draft.item.getD none, draft.count.getD 0, draft.tag.getD []⟩

end ItemStack

namespace CasterType

/-- The record of a kind of caster: a word, or an object with the name of the kind. -/
def toJson : CasterType → Json
  | rune => .text "rune"
  | turret => .text "turret"
  | entity => .text "entity"
  | livingEntity => .text "living_entity"
  | player => .text "player"
  | other => .text "other"
  | custom name => .object [("custom", .text name)]

def ofWord? : String → Option CasterType
  | "rune" => some rune
  | "turret" => some turret
  | "entity" => some entity
  | "living_entity" => some livingEntity
  | "player" => some player
  | "other" => some other
  | _ => none

/-- Reads a kind of caster: a word, or an object with one member that is a word without a value or the name of
a kind. -/
def read (format : Format m ν) (depth : Nat) (value : ν) : m CasterType := do
  match ← format.offer value with
  | .members [(key, value)] complete =>
    Format.ensure (complete && format.allows depth)
    let word ← format.text key
    if word = "custom" then custom <$> format.text value
    else
      match ← format.present? value with
      | none => Format.require (ofWord? word)
      | some _ => throw .malformed
  | .members .. => throw .malformed
  | _ =>
    let word ← format.text value
    Format.require (ofWord? word)

end CasterType

end Spellcast
