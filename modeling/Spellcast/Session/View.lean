import Spellcast.Scheduler
import Spellcast.Session.Spec

/-!
# Views

What a session shows of contexts, instructions, outcomes and ticks: everything that can be seen of them at one
moment, with the attachments and the caster looked up in the realm.
-/

namespace Spellcast.Session

structure View where
  program : List Identifier
  counter : Nat
  remaining : Nat
  hasNext : Bool
  canceled : Bool
  reason : Option String
  suspension : Option Int
  suspended : Bool
  caster : String
  site : String
  casterType : Option CasterType
  tool : ItemStack
  colors : Color
  tag : Fields
  attachments : List (Identifier × CellValue)
  parent : Option ContextId

/-- What can be seen of an instruction. -/
structure InstructionView where
  id : Identifier
  effect : String
  observer : Bool
  manipulator : Bool
deriving DecidableEq

/-- What can be seen of an outcome. -/
structure OutcomeView where
  cast : CastId
  steps : Nat
  forks : Nat
  ticks : Nat
  reason : Option String
  final : Option View

structure TickView where
  tick : Nat
  steps : Nat
  forks : Nat
  inFlight : Nat
  completed : List OutcomeView

section

variable {κ : Type}

def View.ofContext (realm : Realm) (context : Context κ) : View :=
  { program := context.program.ids
    counter := context.counter
    remaining := context.remainder.length
    hasNext := context.hasNext
    canceled := context.canceled
    reason := context.cancelReason.map CancelReason.text
    suspension := context.suspension.map Suspension.remaining
    suspended := context.isSuspended
    caster := context.describeCaster realm.world
    site := context.describeSite realm.world
    casterType := context.casterType
    tool := context.tool
    colors := context.colors
    tag := context.tag
    attachments := context.attachments.entries.filterMap fun (id, cell) =>
      (realm.cells.read? cell).map fun value => (id, value)
    parent := context.parent }

def InstructionView.ofInstruction (behaviour : Behaviour κ) (instruction : Instruction κ) :
    InstructionView :=
  { id := instruction.id, effect := behaviour.effectName instruction.effect.code
    observer := instruction.observer.isSome, manipulator := instruction.manipulator.isSome }

def OutcomeView.ofOutcome (realm : Realm) (outcome : Outcome κ) : OutcomeView :=
  { cast := outcome.id, steps := outcome.steps, forks := outcome.forks, ticks := outcome.ticks
    reason := outcome.cancelReason.map CancelReason.text
    final := outcome.finalContext.map (View.ofContext realm) }

def TickView.ofReport (realm : Realm) (report : TickReport κ) : TickView :=
  { tick := report.tick, steps := report.steps, forks := report.forks, inFlight := report.inFlight
    completed := report.completed.map (OutcomeView.ofOutcome realm) }

def quote (text : String) : String := "\"" ++ String.ofList (text.toList.flatMap Text.debugChar) ++ "\""

def describeOption {α : Type} (describe : α → String) : Option α → String
  | none => "None"
  | some value => "Some(" ++ describe value ++ ")"

def describeReason : CancelReason → String
  | .newContext => "NewContext"
  | .terminated => "Terminated"
  | .custom id => "Custom(" ++ id.describe ++ ")"

def describeCasterType : CasterType → String
  | .rune => "Rune"
  | .turret => "Turret"
  | .entity => "Entity"
  | .livingEntity => "LivingEntity"
  | .player => "Player"
  | .other => "Other"
  | .custom name => "Custom(" ++ quote name ++ ")"

def describeSuspension (suspension : Suspension) : String :=
  "SuspendToken \x7b remaining: " ++ toString suspension.remaining ++ " \x7d"

def describeContext (realm : Realm) (context : Context κ) : String :=
  "ExecutionContext \x7b program: " ++ quote context.program.describe ++
    ", counter: " ++ toString context.counter ++
    ", canceled: " ++ toString context.canceled ++
    ", cancel_reason: " ++ describeOption describeReason context.cancelReason ++
    ", suspension: " ++ describeOption describeSuspension context.suspension ++
    ", caster: " ++ quote (context.describeCaster realm.world) ++
    ", casting_site: " ++ quote (context.describeSite realm.world) ++
    ", caster_type: " ++ describeOption describeCasterType context.casterType ++
    ", attachments: " ++ context.attachments.describe ++
    ", parent: " ++ describeOption (fun id => "ContextId(" ++ toString id ++ ")") context.parent ++ " \x7d"

def InstructionView.describe (view : InstructionView) : String :=
  "Instruction \x7b id: " ++ view.id.describe ++ ", effect: " ++ quote view.effect ++
    ", cancel_observer: " ++ toString view.observer ++ ", manipulator: " ++ toString view.manipulator ++ " \x7d"

end

end Spellcast.Session
