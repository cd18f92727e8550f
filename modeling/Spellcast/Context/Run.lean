import Spellcast.Behaviour

/-!
# Running, canceling and forking a context

`advance` steps to the next instruction. `cancel` notifies the observers among the remaining instructions, in
order, until one answers that nobody else need know. `makeChild` asks the manipulators among the remaining
instructions, in order, for the context to go on in, and otherwise goes on in a copy that runs what remains.
-/

namespace Spellcast.Context

variable {κ : Type}

def greatestCounter : Nat := 0xFFFFFFFFFFFFFFFF

/-- Steps over the next instruction. Past the end there is none: that is logged, and the counter moves on all
the same until it reaches its greatest value. -/
def advance (context : Context κ) (realm : Realm) : Option (Instruction κ) × Context κ × Realm :=
  match context.program.get? context.counter with
  | some instruction => (some instruction, { context with counter := context.counter + 1 }, realm)
  | none =>
    let fault := Event.boundsFault context.program.describe context.counter context.program.length
      (context.describeCaster realm.world) (context.describeSite realm.world)
    (none, { context with counter := min (context.counter + 1) greatestCounter }, realm.emit fault)

/-- A walk over observers: the context and the realm as the last one left them, how many were told, and whether
one of them ended the walk. -/
structure Walk (κ : Type) where
  context : Context κ
  realm : Realm
  told : Nat
  absorbed : Bool

/-- Tells the observers of some instructions, in order, up to the first that ends the walk. -/
def walk (behaviour : Behaviour κ) : List (Instruction κ) → Walk κ → Walk κ
  | [], state => state
  | instruction :: rest, state =>
    match instruction.observer with
    | none => walk behaviour rest state
    | some observer =>
      let (goesOn, context, realm) := behaviour.notify observer state.context state.realm
      let state : Walk κ := { context, realm, told := state.told + 1, absorbed := !goesOn }
      if goesOn then walk behaviour rest state else state

/-- Cancels the context and notifies the observers of the instructions that remain at this moment. -/
def cancel (behaviour : Behaviour κ) (reason : CancelReason) (context : Context κ) (realm : Realm) :
    Context κ × Realm :=
  let canceled := { context with canceled := true, cancelReason := some reason }
  let finished := walk behaviour canceled.remainder.instructions
    { context := canceled, realm, told := 0, absorbed := false }
  let label := (finished.context.cancelReason.map CancelReason.text).getD ""
  (finished.context,
    finished.realm.emit (.canceled label finished.context.counter finished.told finished.absorbed))

def terminate (context : Context κ) (realm : Realm) : Context κ × Realm :=
  (context.stopped, realm.emit (.terminated context.counter context.program.length))

/-- The context to go on in, and the position among the remaining instructions of the one that supplied it, if
one did. -/
structure Child (κ : Type) where
  context : Context κ
  supplier : Option Nat

/-- Asks the manipulators of some instructions, in order, up to the first that both wants to supply a child and
proposes one. The number is the position of the first of these instructions. -/
def consult (behaviour : Behaviour κ) (context : Context κ) :
    Nat → List (Instruction κ) → Realm → Option (Nat × Context κ) × Realm
  | _, [], realm => (none, realm)
  | position, instruction :: rest, realm =>
    match instruction.manipulator with
    | none => consult behaviour context (position + 1) rest realm
    | some manipulator =>
      let (wants, realm) := behaviour.wantsPush manipulator context realm
      let (proposed, realm) := behaviour.propose manipulator context realm
      match wants, proposed with
      | true, some child =>
        (some (position, child), realm.emit (.manipulatorSelected instruction.id.text position))
      | _, _ => consult behaviour context (position + 1) rest realm

def continuation (context : Context κ) : Context κ :=
  { context with program := context.remainder, counter := 0 }

/-- The context to go on in after a fork; its parent is the context with the given number. -/
def makeChild (behaviour : Behaviour κ) (context : Context κ) (self : ContextId) (realm : Realm) :
    Child κ × Realm :=
  match consult behaviour context 0 context.remainder.instructions realm with
  | (some (position, child), realm) => (⟨{ child with parent := some self }, some position⟩, realm)
  | (none, realm) => (⟨{ context.continuation with parent := some self }, none⟩, realm)

end Spellcast.Context
