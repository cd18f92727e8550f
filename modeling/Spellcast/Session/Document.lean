import Spellcast.Record
import Spellcast.Session.View

/-!
# Views as JSON

The JSON forms of what a session shows: contexts, instructions, entities, outcomes, ticks and log entries.
-/

namespace Spellcast

def Identifier.toJson (id : Identifier) : Json := .text id.text

def Position.toJson (position : Position) : Json :=
  .list [.real position.x, .real position.y, .real position.z]

def Entity.toJson (entity : Entity) : Json :=
  .object
    [("id", .nat entity.id), ("name", .text entity.name), ("position", entity.position.toJson),
      ("velocity", entity.velocity.toJson)]

def CellKind.label : CellKind → String
  | natural => "u64"
  | text => "string"
  | flag => "bool"
  | tally => "atomic_u64"

def CellValue.toJson : CellValue → Json
  | natural value => .nat value
  | text value => .text value
  | flag value => .bool value
  | tally value => .nat value

def CellValue.toTypedJson (value : CellValue) : Json :=
  .object [("type", .text value.kind.label), ("value", value.toJson)]

def Detail.toJson : Detail → Json
  | nat value => .nat value
  | int value => .int value
  | bool value => .bool value
  | text value => .text value

def Detail.toObject (details : List (String × Detail)) : Json :=
  .object (details.map fun (key, value) => (key, value.toJson))

def LogEntry.toJson (entry : LogEntry) : Json :=
  .object
    [("level", .text entry.event.level.name), ("message", .text entry.event.sentence),
      ("fields", Detail.toObject entry.event.details), ("spans", .list (entry.spans.map .text))]

namespace Session

def colorList (color : Color) : Json :=
  .list [.nat color.red.toNat, .nat color.green.toNat, .nat color.blue.toNat]

def View.toJson (view : View) : Json :=
  .object
    [("program", .list (view.program.map Identifier.toJson)), ("counter", .nat view.counter),
      ("remaining", .nat view.remaining), ("has_next", .bool view.hasNext), ("canceled", .bool view.canceled),
      ("reason", .ofOption .text view.reason), ("suspension", .ofOption .int view.suspension),
      ("suspended", .bool view.suspended), ("caster", .text view.caster), ("site", .text view.site),
      ("caster_type", .ofOption CasterType.toJson view.casterType), ("tool", view.tool.toJson),
      ("colors", colorList view.colors), ("tag", .object view.tag),
      ("attachments", .object (view.attachments.map fun (id, value) => (id.text, value.toTypedJson))),
      ("parent", .ofOption .nat view.parent)]

def InstructionView.toJson (view : InstructionView) : Json :=
  .object
    [("id", view.id.toJson), ("effect", .text view.effect), ("observer", .bool view.observer),
      ("manipulator", .bool view.manipulator)]

def OutcomeView.toJson (view : OutcomeView) : Json :=
  .object
    [("cast", .nat view.cast), ("steps", .nat view.steps), ("forks", .nat view.forks),
      ("ticks", .nat view.ticks), ("reason", .ofOption .text view.reason),
      ("final", .ofOption View.toJson view.final)]

def TickView.toJson (view : TickView) : Json :=
  .object
    [("tick", .nat view.tick), ("steps", .nat view.steps), ("forks", .nat view.forks),
      ("in_flight", .nat view.inFlight), ("completed", .list (view.completed.map OutcomeView.toJson))]

end Session

end Spellcast
