import Spellcast.Program

/-!
# Registries

Which instruction an identifier stands for. Decoded programs share the effects of the registry they were
decoded with.
-/

namespace Spellcast

/-- Instructions by identifier, at most one for each. -/
structure Registry (κ : Type) where
  entries : List (Identifier × Instruction κ)

namespace Registry

variable {κ : Type}

def empty : Registry κ := ⟨[]⟩

def lookup (id : Identifier) : List (Identifier × Instruction κ) → Option (Instruction κ)
  | [] => none
  | (other, instruction) :: rest => if other = id then some instruction else lookup id rest

/-- Puts an instruction under an identifier, in the place of the one that was there. -/
def replace (id : Identifier) (instruction : Instruction κ) :
    List (Identifier × Instruction κ) → List (Identifier × Instruction κ)
  | [] => [(id, instruction)]
  | (other, held) :: rest =>
    if other = id then (id, instruction) :: rest else (other, held) :: replace id instruction rest

def find? (registry : Registry κ) (id : Identifier) : Option (Instruction κ) := lookup id registry.entries

/-- Puts an instruction under its own identifier; answers the one that was there. -/
def register (registry : Registry κ) (instruction : Instruction κ) :
    Option (Instruction κ) × Registry κ :=
  (registry.find? instruction.id, ⟨replace instruction.id instruction registry.entries⟩)

/-- The registry of a list of instructions. Of several under one identifier the last one stays. -/
def ofList (instructions : List (Instruction κ)) : Registry κ :=
  instructions.foldl (fun registry instruction => (registry.register instruction).2) empty

def size (registry : Registry κ) : Nat := registry.entries.length

def contains (registry : Registry κ) (id : Identifier) : Bool := (registry.find? id).isSome

def ids (registry : Registry κ) : List Identifier := Identifier.sorted (registry.entries.map (·.1))

def describe (registry : Registry κ) : String :=
  let ids := ", ".intercalate (registry.ids.map fun id => "\"" ++ id.text ++ "\"")
  "InstructionRegistry \x7b instruction_count: " ++ toString registry.size ++ ", instruction_ids: [" ++ ids ++
    "] \x7d"

end Registry

end Spellcast
