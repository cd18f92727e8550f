import Spellcast.Context.Run
import Spellcast.Json

/-!
# Actions on a context

Everything that can be done to a single context from outside, each action with its result. Scripts and sessions
are made of these. Names come as they are written, so an action can fail on a name that is no identifier.
-/

namespace Spellcast.Session

inductive Refusal where
  /-- The request refers to something that is not there. -/
  | badInput (message : String)
  | identifier (fault : Identifier.Fault)
  | unknownInstruction (id : Identifier)
  | attachment (fault : AttachmentFault)
deriving DecidableEq

def Refusal.message : Refusal → String
  | badInput message => message
  | identifier fault => fault.message
  | unknownInstruction id => s!"Unknown instruction '{id.text}'"
  | attachment fault => fault.message

def readId (name : String) : Except Refusal Identifier :=
  match Identifier.parse name with
  | .ok id => .ok id
  | .error fault => .error (.identifier fault)

/-- A reason for canceling, as it is written. -/
inductive ReasonName where
  | newContext
  | terminated
  | custom (name : String)
deriving DecidableEq

def ReasonName.read : ReasonName → Except Refusal CancelReason
  | newContext => .ok .newContext
  | terminated => .ok .terminated
  | custom name => (readId name).map .custom

/-- What a hand is to hold, as it is written: nothing, or some items with a tag. -/
inductive ToolName where
  | nothing
  | items (name : String) (count : Nat) (tag : Fields)

def ToolName.read : ToolName → Except Refusal ItemStack
  | nothing => .ok .empty
  | items name count tag => (readId name).map fun id => ⟨some id, count, tag⟩

inductive Action where
  | view
  | note
  | hasNext
  | advance
  | remainder
  | cancel (reason : ReasonName)
  | terminate
  | reset
  | delay (ticks : Int)
  | tickToken
  | takeSuspension
  | setCounter (counter : Nat)
  | setParent (parent : Option ContextId)
  | clearCaster
  | setTool (tool : ToolName)
  | setToolCount (count : Nat)
  | setToolTag (key : String) (value : Json)
  | setColors (colors : Color)
  | setTag (key : String) (value : Json)
  | removeTag (key : String)
  | attach (name : String) (value : CellValue)
  | attached (name : String) (kind : CellKind)
  | getOrInsert (name : String) (value : CellValue)
  | add (name : String) (amount : Nat)
  | detach (name : String)
  | inspect (name : String)

/-- The state of a context in short. -/
structure Note where
  counter : Nat
  canceled : Bool
  reason : Option String
  remaining : Option Int

def Note.toJson (note : Note) : Json :=
  .list [.nat note.counter, .bool note.canceled, .ofOption .text note.reason, .ofOption .int note.remaining]

def Note.ofContext {κ : Type} (context : Context κ) : Note :=
  { counter := context.counter, canceled := context.canceled
    reason := context.cancelReason.map CancelReason.text
    remaining := context.suspension.map Suspension.remaining }

inductive Result where
  | nothing
  | flag (value : Bool)
  | count (value : Nat)
  | remaining (ticks : Option Int)
  | instruction (id : Option Identifier)
  | program (ids : List Identifier) (visual : Visual)
  | note (note : Note)
  | json (value : Option Json)
  /-- A value without its kind. -/
  | value (value : Option CellValue)
  /-- A value with its kind. -/
  | cell (value : Option CellValue)
  /-- The value that was replaced, with its kind. -/
  | replaced (value : Option CellValue)
  | inspected (size : Nat) (contains : Bool)

section

variable {κ : Type}

def done (result : Result) (context : Context κ) (realm : Realm) :
    Except Refusal Result × Context κ × Realm :=
  (.ok result, context, realm)

/-- An action on the attachment with a name; nothing happens if the name is no identifier. -/
def withId (name : String) (context : Context κ) (realm : Realm)
    (act : Identifier → Except Refusal Result × Context κ × Realm) :
    Except Refusal Result × Context κ × Realm :=
  match readId name with
  | .ok id => act id
  | .error refusal => (.error refusal, context, realm)

/-- Does something to a context. Canceling notifies observers, which mean what the behaviour says. -/
def Action.apply (behaviour : Behaviour κ) (action : Action) (context : Context κ) (realm : Realm) :
    Except Refusal Result × Context κ × Realm :=
  match action with
  | .view => done .nothing context realm
  | .note => done (.note (.ofContext context)) context realm
  | .hasNext => done (.flag context.hasNext) context realm
  | .advance =>
    let (instruction, context, realm) := context.advance realm
    done (.instruction (instruction.map (·.id))) context realm
  | .remainder => done (.program context.remainder.ids context.program.visual) context realm
  | .cancel reason =>
    match reason.read with
    | .error refusal => (.error refusal, context, realm)
    | .ok reason =>
      let (context, realm) := context.cancel behaviour reason realm
      done (.flag context.canceled) context realm
  | .terminate =>
    let (context, realm) := context.terminate realm
    done .nothing context realm
  | .reset => done (.count 0) context.reset realm
  | .delay ticks => done .nothing (context.delay ticks) realm
  | .tickToken =>
    let suspension := context.suspension.map Suspension.tick
    done (.remaining (suspension.map Suspension.remaining)) { context with suspension } realm
  | .takeSuspension =>
    done (.remaining (context.suspension.map Suspension.remaining)) { context with suspension := none } realm
  | .setCounter counter => done .nothing { context with counter } realm
  | .setParent parent => done .nothing { context with parent } realm
  | .clearCaster => done .nothing { context with caster := none } realm
  | .setTool tool =>
    match tool.read with
    | .error refusal => (.error refusal, context, realm)
    | .ok tool => done (.flag tool.isEmpty) { context with tool } realm
  | .setToolCount count =>
    let tool := { context.tool with count }
    done (.flag tool.isEmpty) { context with tool } realm
  | .setToolTag key value =>
    let tool := { context.tool with tag := Fields.insert key value context.tool.tag }
    done (.json (Fields.find? key context.tool.tag)) { context with tool } realm
  | .setColors colors => done .nothing { context with colors } realm
  | .setTag key value =>
    done (.json (Fields.find? key context.tag)) { context with tag := Fields.insert key value context.tag }
      realm
  | .removeTag key =>
    done (.json (Fields.find? key context.tag)) { context with tag := Fields.erase key context.tag } realm
  | .attach name value => withId name context realm fun id =>
    let (replaced, attachments, cells) := context.attachments.insert realm.cells id value
    done (.replaced (replaced.bind realm.cells.read?)) { context with attachments } { realm with cells }
  | .attached name kind => withId name context realm fun id =>
    done (.value ((context.attachments.get? realm.cells kind id).bind realm.cells.read?)) context realm
  | .getOrInsert name value => withId name context realm fun id =>
    match context.attachments.getOrInsert realm.cells id value with
    | (.ok cell, attachments, cells) =>
      done (.value (cells.read? cell)) { context with attachments } { realm with cells }
    | (.error fault, attachments, cells) =>
      (.error (.attachment fault), { context with attachments }, { realm with cells })
  | .add name amount => withId name context realm fun id =>
    match context.attachments.get? realm.cells .tally id with
    | none => done (.value none) context realm
    | some cell =>
      done (.value (realm.cells.read? cell)) context { realm with cells := realm.cells.add cell amount }
  | .detach name => withId name context realm fun id =>
    let (removed, attachments) := context.attachments.remove id
    done (.cell (removed.bind realm.cells.read?)) { context with attachments } realm
  | .inspect name => withId name context realm fun id =>
    done (.inspected context.attachments.size (context.attachments.contains id)) context realm

end

end Spellcast.Session
