import Spellcast.Identifier
import Spellcast.Json

/-!
# Programs

A program is a list of instructions with its visual parameters. What an instruction can do is named by codes of
a type `κ`; only a `Behaviour` gives the codes a meaning, so everything about programs holds whatever
instructions do.
-/

namespace Spellcast

structure Color where
  red : UInt8
  green : UInt8
  blue : UInt8
deriving DecidableEq

def Color.default : Color := ⟨255, 25, 180⟩

/-- What a program looks like. The style is kept for whoever renders it. -/
structure Visual where
  color : Color
  style : Fields

namespace Visual

/-- The look of programs that say nothing about it. -/
def default : Visual := ⟨.default, []⟩

/-- Two looks are the same. -/
def same (first second : Visual) : Bool :=
  first.color == second.color && Json.sameFields first.style second.style

instance : BEq Visual := ⟨same⟩

end Visual

/-- Something that several holders share: two of them share it exactly when the serial numbers agree. -/
structure Shared (α : Type) where
  serial : Nat
  code : α

/-- A step of a program: what it does, and optionally what it does when the program is canceled and how it
takes part in a fork. -/
structure Instruction (κ : Type) where
  id : Identifier
  effect : Shared κ
  observer : Option κ
  manipulator : Option κ

namespace Instruction

variable {κ : Type}

def plain (id : Identifier) (effect : Shared κ) : Instruction κ :=
  { id, effect, observer := none, manipulator := none }

/-- Two instructions are the same when they agree in name and share one effect. -/
def same (first second : Instruction κ) : Bool :=
  first.id == second.id && first.effect.serial == second.effect.serial

instance : BEq (Instruction κ) := ⟨same⟩

end Instruction

/-- A list of instructions and its look. -/
structure Program (κ : Type) where
  instructions : List (Instruction κ)
  visual : Visual

namespace Program

variable {κ : Type}

def ofInstructions (instructions : List (Instruction κ)) : Program κ :=
  ⟨instructions, .default⟩

def length (program : Program κ) : Nat := program.instructions.length

def isEmpty (program : Program κ) : Bool := program.instructions.isEmpty

def get? (program : Program κ) (index : Nat) : Option (Instruction κ) := program.instructions[index]?

def remainderFrom (program : Program κ) (index : Nat) : Program κ :=
  { program with instructions := program.instructions.drop index }

def ids (program : Program κ) : List Identifier := program.instructions.map (·.id)

def describe (program : Program κ) : String :=
  if program.isEmpty then "<empty>" else " -> ".intercalate (program.ids.map Identifier.text)

def sameInstructions : List (Instruction κ) → List (Instruction κ) → Bool
  | [], [] => true
  | first :: firstRest, second :: secondRest => first == second && sameInstructions firstRest secondRest
  | _, _ => false

/-- Two programs have the same instructions and the same look. -/
def same (first second : Program κ) : Bool :=
  sameInstructions first.instructions second.instructions && first.visual == second.visual

instance : BEq (Program κ) := ⟨same⟩

end Program

end Spellcast
