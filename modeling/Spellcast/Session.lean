import Spellcast.Session.View

/-!
# Sessions

A session keeps contexts under names, an arena, a scheduler with an arena of its own, a world and a workshop,
and carries out steps on them one after the other. Each step answers with a reply or is refused, and a refused
step does not end the session. Two contexts share their program when they were made from the same sheet of it,
so every context is kept together with the number of its sheet.
-/

namespace Spellcast.Session

/-- A context of the session: one with a name, or one in its arena. -/
inductive ContextRef where
  | named (name : String)
  | slot (id : ContextId)
deriving DecidableEq

structure ContextSpec where
  program : ProgramSpec
  fromEntity : Option EntityId
  tool : Option ToolName
  caster : Option EntityId
  site : Option String
  casterType : Option CasterType
  colors : Option Color
  parent : Option ContextId

/-- What is to be shown in its structure form. -/
inductive DebugTarget where
  | context (context : ContextRef)
  | attachments (context : ContextRef)
  | instruction (spec : InstructionSpec)
  | registry
  | arena
  | scheduler

/-- Something a session is asked to do. -/
inductive Step where
  | define (name : String) (spec : InstructionSpec)
  | program (spec : ProgramSpec) (starts indices : List Nat)
  | compare (first second : ProgramSpec)
  | sharesProgram (first second : ContextRef)
  | debug (target : DebugTarget)
  | spawn (name : String)
  | hold (entity : EntityId)
  | letGo
  | despawn (entity : EntityId)
  | setPosition (entity : EntityId) (position : Position)
  | setVelocity (entity : EntityId) (velocity : Position)
  | world
  | build (name : String) (site : Site)
  | demolish (name : String)
  | create (name : String) (spec : ContextSpec)
  | clone (context : ContextRef) (name : String)
  | drop (context : ContextRef)
  | makeChild (context : ContextRef) (self : ContextId) (name : String)
  | withProgram (context : ContextRef) (spec : ProgramSpec)
  | setCaster (context : ContextRef) (caster : Option EntityId)
  | resolveCaster (context : ContextRef)
  | castNext (context : ContextRef)
  | markCount (context : ContextRef) (name : String)
  | sharesAttachment (first second : ContextRef) (name : String)
  | shareAttachment (first second : ContextRef) (name target : String)
  | insert (name : String)
  | remove (id : ContextId)
  | release (ids : List ContextId)
  | fork (id : ContextId)
  | duplicate (id : ContextId)
  | lineage (id : ContextId)
  | cast (context : ContextRef)
  | tick (times : Nat)
  | runUntilIdle (limit : Nat)
  | drive
  | cancelCast (cast : CastId) (reason : ReasonName)
  | terminateCast (cast : CastId)
  | viewCast (cast : CastId)
  | viewSlot (id : ContextId)
  | scheduler
  | journal
  | act (context : ContextRef) (action : Action)

/-- What can be seen of a program: its instructions, its look, its text and its length. -/
structure ProgramView where
  ids : List Identifier
  visual : Visual
  text : String

def ProgramView.ofProgram {κ : Type} (program : Program κ) : ProgramView :=
  ⟨program.ids, program.visual, program.describe⟩

inductive Reply where
  | nothing
  | flag (value : Bool)
  | count (value : Nat)
  | text (value : String)
  | name (value : Option String)
  | lines (entries : List String)
  | state (view : Option View)
  | acted (result : Result) (state : View)
  | instruction (view : InstructionView)
  | program (view : ProgramView) (remainders : List ProgramView) (found : List (Option InstructionView))
  | comparison (same sameInstructions sameVisual : Bool)
  | entity (entity : Entity)
  | world (placeholder : Entity) (entities : List Entity)
  | ran (instruction : Option Identifier) (resolution : Option Resolution) (state : View)
  | shared (replaced : Option (Option CellValue))
  | forked (fork : Option (ContextId × View))
  | duplicated (copy : Option (ContextId × List ContextId × Nat))
  | lineage (contains : Bool) (parent : Option ContextId) (ancestors : List ContextId) (size : Nat)
  | registered (cast : CastId) (active : Option ContextId)
  | ticks (views : List TickView)
  | outcomes (views : List OutcomeView)
  | cast (active : Option ContextId) (state : Option View) (ancestors : Option (List ContextId))
  | scheduler (casts : List CastId) (slots tickInterval : Nat)

end Spellcast.Session

namespace Spellcast

open Session

/-- A context and the number of the sheet its program is on. -/
structure Session.Held where
  context : Context Part
  sheet : Nat

structure Session where
  realm : Realm
  workshop : Workshop
  contexts : List (String × Held)
  sites : List (String × SiteId)
  arena : Arena Part
  /-- The sheets of the programs of the contexts in the arena. -/
  sheets : List (ContextId × Nat)
  scheduler : Scheduler Part

namespace Session

def start (arena : Arena Part) (scheduler : Scheduler Part) : Session :=
  { realm := .empty, workshop := .standard, contexts := [], sites := [], arena, sheets := [], scheduler }

def find (session : Session) : ContextRef → Except Refusal Held
  | .named name =>
    match session.contexts.lookup name with
    | some held => .ok held
    | none => .error (.badInput "no such context")
  | .slot id =>
    match session.arena.get? id with
    | some context => .ok ⟨context, (session.sheets.lookup id).getD 0⟩
    | none => .error (.badInput "no such context")

def entity (session : Session) (id : EntityId) : Except Refusal Entity :=
  match session.realm.world.entity? id with
  | some entity => .ok entity
  | none => .error (.badInput "no such entity")

def siteNamed (session : Session) (name : String) : Except Refusal SiteId :=
  match session.sites.lookup name with
  | some id => .ok id
  | none => .error (.badInput "no such site")

def known (session : Session) (id : CastId) : Except Refusal Unit :=
  if 1 ≤ id ∧ id < session.scheduler.nextCast then .ok () else .error (.badInput "no such cast")

def name (session : Session) (name : String) (held : Held) : Session :=
  { session with contexts := (name, held) :: session.contexts.filter (·.1 != name) }

def store (session : Session) (reference : ContextRef) (context : Context Part) : Session :=
  match reference with
  | .named name =>
    { session with
      contexts := session.contexts.map fun (other, held) =>
        if other = name then (other, { held with context }) else (other, held) }
  | .slot id => { session with arena := session.arena.set id context }

def noteSheet (session : Session) (id : ContextId) (sheet : Nat) : Session :=
  { session with sheets := (id, sheet) :: session.sheets }

def newSheet (session : Session) : Nat × Session :=
  let serial := session.workshop.nextSerial
  (serial, { session with workshop := { session.workshop with nextSerial := serial + 1 } })

/-- The sheet of a child: a program that a manipulator keeps is always on the same sheet, a script hands on the
sheet of the parent, and any other program is newly written. -/
def childSheet (session : Session) (parent : Held) (supplier : Option Nat) : Nat × Session :=
  let manipulator := do
    let position ← supplier
    let instruction ← parent.context.remainder.get? position
    instruction.manipulator
  match manipulator with
  | some (.fixed _ _ _ sheet) => (sheet, session)
  | some (.scriptManipulator ..) => (parent.sheet, session)
  | _ => session.newSheet

def view (session : Session) (context : Context Part) : View := .ofContext session.realm context

def viewInstruction (instruction : Instruction Part) : InstructionView :=
  .ofInstruction Part.behaviour instruction

def buildInstruction (session : Session) (spec : InstructionSpec) :
    Except Refusal (Instruction Part) × Session :=
  let (result, workshop) := session.workshop.build (·.instruction spec)
  (result, { session with workshop })

def buildProgram (session : Session) (spec : ProgramSpec) : Except Refusal (Program Part) × Session :=
  let (result, workshop) := session.workshop.build (·.program spec)
  (result, { session with workshop })

/-- What a step comes to: its reply, or why it is refused, and the session after it. -/
abbrev Answer := Except Refusal Reply × Session

/-- Goes on with a result unless it is a refusal. -/
def andThen (session : Session) (result : Except Refusal α) (next : α → Answer) : Answer :=
  match result with
  | .ok value => next value
  | .error refusal => (.error refusal, session)

def reply (session : Session) (reply : Reply) : Answer := (.ok reply, session)

def makeContext (session : Session) (program : Program Part) (spec : ContextSpec) :
    Except Refusal (Context Part) := do
  let tool ← match spec.tool with
    | some tool => tool.read
    | none => .ok .empty
  let context ← match spec.fromEntity with
    | some id => do
      let entity ← session.entity id
      .ok (Context.ofEntity program entity.id tool)
    | none => .ok { Context.ofProgram program with tool }
  let context ← match spec.caster with
    | some id => do
      let entity ← session.entity id
      .ok { context with caster := some entity.id }
    | none => .ok context
  let context ← match spec.site with
    | some name => do
      let site ← session.siteNamed name
      .ok { context with site := some site }
    | none => .ok context
  let casterType := match spec.casterType with
    | some casterType => some casterType
    | none => context.casterType
  .ok { context with
    casterType, colors := spec.colors.getD context.colors
    parent := match spec.parent with
      | some parent => some parent
      | none => context.parent }

def debug (session : Session) (target : DebugTarget) : Answer :=
  match target with
  | .context reference => session.andThen (session.find reference) fun held =>
    session.reply (.text (describeContext session.realm held.context))
  | .attachments reference => session.andThen (session.find reference) fun held =>
    session.reply (.text held.context.attachments.describe)
  | .instruction spec =>
    let (result, session) := session.buildInstruction spec
    session.andThen result fun instruction => session.reply (.text (viewInstruction instruction).describe)
  | .registry => session.reply (.text session.workshop.registry.describe)
  | .arena => session.reply (.text session.arena.describe)
  | .scheduler => session.reply (.text session.scheduler.describe)

/-- Ticks a number of times and looks at each tick as it ends. -/
def tickTimes (session : Session) : Nat → List TickView × Session
  | 0 => ([], session)
  | times + 1 =>
    let (report, scheduler, realm) := session.scheduler.tick Part.behaviour session.realm
    let (views, session) := tickTimes { session with scheduler, realm } times
    (.ofReport realm report :: views, session)

/-- How many ticks a session waits for casts that come no nearer to their end. -/
def patience : Nat := 0x10000000000000000

/-- Steps to the next instruction of a context, whether it may run or not, and runs its effect. -/
def castNext (session : Session) (reference : ContextRef) (held : Held) : Answer :=
  match held.context.advance session.realm with
  | (none, context, realm) =>
    let session := { session with realm }.store reference context
    session.reply (.ran none none (session.view context))
  | (some instruction, context, realm) =>
    let (resolution, context, realm) := Part.behaviour.cast instruction.effect.code context realm
    let session := { session with realm }.store reference context
    session.reply (.ran (some instruction.id) (some resolution) (session.view context))

/-- Puts the tally that one context has under a name into another context under a further name. -/
def shareAttachment (session : Session) (first second : ContextRef) (name target : String) : Answer :=
  session.andThen (session.find first) fun source =>
  session.andThen (session.find second) fun receiver =>
  session.andThen (readId name) fun id =>
  session.andThen (readId target) fun targetId =>
    match source.context.attachments.get? session.realm.cells .tally id with
    | none => session.reply (.shared none)
    | some cell =>
      let (replaced, attachments) := receiver.context.attachments.insertShared targetId cell
      let next := session.store second { receiver.context with attachments }
      next.reply (.shared (some (replaced.bind session.realm.cells.read?)))

def fork (session : Session) (id : ContextId) : Answer :=
  match session.find (.slot id), session.arena.fork Part.behaviour id session.realm with
  | .ok parent, some (fork, arena, realm) =>
    let (sheet, session) := session.childSheet parent fork.supplier
    let session := { session with arena, realm }.noteSheet fork.child sheet
    session.reply (.forked ((arena.get? fork.child).map fun child => (fork.child, session.view child)))
  | _, _ => session.reply (.forked none)

/-- Copies a context in the arena together with its ancestors. A copy is on the same sheet as what it was made
from. -/
def duplicate (session : Session) (id : ContextId) : Answer :=
  match session.arena.duplicateLineage id session.realm with
  | none => session.reply (.duplicated none)
  | some (copy, arena, realm) =>
    let sources := id :: (session.arena.ancestors id).take session.arena.maxDepth
    let copies := sources.zipIdx.map fun (source, distance) =>
      (copy - distance, (session.sheets.lookup source).getD 0)
    let session := { session with arena, realm, sheets := copies ++ session.sheets }
    session.reply (.duplicated (some (copy, arena.ancestors copy, arena.size)))

def carryOut (session : Session) (step : Step) : Answer :=
  match step with
  | .define name spec =>
    let (result, session) := session.buildInstruction spec
    session.andThen result fun instruction =>
      let session := { session with workshop := session.workshop.define name instruction }
      session.reply (.instruction (viewInstruction instruction))
  | .program spec starts indices =>
    let (result, session) := session.buildProgram spec
    session.andThen result fun program =>
      session.reply (.program (.ofProgram program)
        (starts.map fun start => .ofProgram (program.remainderFrom start))
        (indices.map fun index => (program.get? index).map viewInstruction))
  | .compare first second =>
    let (first, session) := session.buildProgram first
    session.andThen first fun first =>
      let (second, session) := session.buildProgram second
      session.andThen second fun second =>
        session.reply (.comparison (first == second)
          (Program.sameInstructions first.instructions second.instructions) (first.visual == second.visual))
  | .sharesProgram first second =>
    session.andThen (session.find first) fun first =>
    session.andThen (session.find second) fun second =>
      session.reply (.flag (first.sheet == second.sheet))
  | .debug target => session.debug target
  | .spawn name =>
    let (id, world) := session.realm.world.spawn name
    { session with realm := { session.realm with world } }.reply (.count id)
  | .hold id => session.andThen (session.entity id) fun _ =>
    { session with realm := { session.realm with world := session.realm.world.hold id } }.reply .nothing
  | .letGo =>
    { session with realm := { session.realm with world := session.realm.world.letGo } }.reply .nothing
  | .despawn id =>
    let (name, world) := session.realm.world.despawn id
    { session with realm := { session.realm with world } }.reply (.name name)
  | .setPosition id position => session.andThen (session.entity id) fun entity =>
    let world := session.realm.world.modifyEntity id fun entity => { entity with position }
    { session with realm := { session.realm with world } }.reply (.entity { entity with position })
  | .setVelocity id velocity => session.andThen (session.entity id) fun entity =>
    let world := session.realm.world.modifyEntity id fun entity => { entity with velocity }
    { session with realm := { session.realm with world } }.reply (.entity { entity with velocity })
  | .world => session.reply (.world session.realm.world.placeholder session.realm.world.standing)
  | .build name site =>
    let before := (session.sites.lookup name).elim session.realm.world session.realm.world.demolish
    let (id, world) := before.build site
    { session with
        realm := { session.realm with world }
        sites := (name, id) :: session.sites.filter (·.1 != name) }.reply (.text site.describe)
  | .demolish name =>
    match session.sites.lookup name with
    | none => session.reply (.flag false)
    | some id =>
      { session with
          realm := { session.realm with world := session.realm.world.demolish id }
          sites := session.sites.filter (·.1 != name) }.reply (.flag true)
  | .create name spec =>
    let (program, session) := session.buildProgram spec.program
    session.andThen program fun program =>
    session.andThen (session.makeContext program spec) fun context =>
      let (sheet, session) := session.newSheet
      (session.name name ⟨context, sheet⟩).reply (.state (some (session.view context)))
  | .clone reference name => session.andThen (session.find reference) fun held =>
    (session.name name held).reply (.state (some (session.view held.context)))
  | .drop (.named name) =>
    { session with contexts := session.contexts.filter (·.1 != name) }.reply
      (.flag (session.contexts.lookup name).isSome)
  | .drop (.slot id) =>
    { session with arena := session.arena.remove id }.reply (.flag (session.arena.contains id))
  | .makeChild reference self name => session.andThen (session.find reference) fun held =>
    let (child, realm) := held.context.makeChild Part.behaviour self session.realm
    let (sheet, session) := { session with realm }.childSheet held child.supplier
    (session.name name ⟨child.context, sheet⟩).reply (.state (some (session.view child.context)))
  | .withProgram reference spec => session.andThen (session.find reference) fun held =>
    let (program, session) := session.buildProgram spec
    session.andThen program fun program =>
      let context := { held.context with program }
      let (sheet, session) := session.newSheet
      let session := match reference with
        | .named name => session.name name ⟨context, sheet⟩
        | .slot id => (session.store reference context).noteSheet id sheet
      session.reply (.state (some (session.view context)))
  | .setCaster reference caster => session.andThen (session.find reference) fun held =>
    session.andThen (match caster with
      | some id => (session.entity id).map fun entity => some entity.id
      | none => .ok none) fun caster =>
      let context := { held.context with caster }
      (session.store reference context).reply (.state (some (session.view context)))
  | .resolveCaster reference => session.andThen (session.find reference) fun held =>
    let (id, world) := held.context.resolveCaster session.realm.world
    let session := { session with realm := { session.realm with world } }
    session.andThen (session.entity id) fun entity => session.reply (.entity entity)
  | .castNext reference => session.andThen (session.find reference) (session.castNext reference)
  | .markCount reference name => session.andThen (session.find reference) fun held =>
    session.andThen (readId name) fun id =>
      session.reply (.count (Glyph.markCount held.context session.realm.cells id))
  | .sharesAttachment first second name => session.andThen (session.find first) fun first =>
    session.andThen (session.find second) fun second =>
    session.andThen (readId name) fun id =>
      session.reply (.flag (first.context.attachments.sharesWith second.context.attachments id))
  | .shareAttachment first second name target => session.shareAttachment first second name target
  | .insert name => session.andThen (session.find (.named name)) fun held =>
    let (id, arena) := session.arena.insert held.context
    { session with arena, contexts := session.contexts.filter (·.1 != name) }.noteSheet id held.sheet |>.reply
      (.count id)
  | .remove id =>
    { session with arena := session.arena.remove id }.reply
      (.state ((session.arena.get? id).map session.view))
  | .release ids =>
    let arena := session.arena.release ids
    { session with arena }.reply (.count arena.size)
  | .fork id => session.fork id
  | .duplicate id => session.duplicate id
  | .lineage id =>
    session.reply (.lineage (session.arena.contains id) (session.arena.parentOf id)
      (session.arena.ancestors id) session.arena.size)
  | .cast reference => session.andThen (session.find reference) fun held =>
    let (id, scheduler, realm) := session.scheduler.cast held.context session.realm
    { session with scheduler, realm }.reply (.registered id (scheduler.activeContext? id))
  | .tick times =>
    let (views, session) := session.tickTimes times
    session.reply (.ticks views)
  | .runUntilIdle limit =>
    let (ticks, scheduler, realm) := session.scheduler.runUntilIdle Part.behaviour limit session.realm
    { session with scheduler, realm }.reply (.count ticks)
  | .drive =>
    let (outcomes, scheduler, realm) := session.scheduler.drive Part.behaviour patience session.realm
    { session with scheduler, realm }.reply (.outcomes (outcomes.map (OutcomeView.ofOutcome realm)))
  | .cancelCast id reason => session.andThen (session.known id) fun _ =>
    session.andThen reason.read fun reason =>
      let (canceled, scheduler, realm) := session.scheduler.cancelCast Part.behaviour id reason session.realm
      { session with scheduler, realm }.reply (.flag canceled)
  | .terminateCast id => session.andThen (session.known id) fun _ =>
    let (stopped, scheduler, realm) := session.scheduler.terminateCast id session.realm
    { session with scheduler, realm }.reply (.flag stopped)
  | .viewCast id => session.andThen (session.known id) fun _ =>
    let active := session.scheduler.activeContext? id
    session.reply (.cast active ((session.scheduler.context? id).map session.view)
      (active.map session.scheduler.arena.ancestors))
  | .viewSlot id => session.reply (.state ((session.scheduler.arena.get? id).map session.view))
  | .scheduler =>
    session.reply (.scheduler (session.scheduler.casts.map (·.id)) session.scheduler.arena.size
      session.scheduler.tickInterval)
  | .journal => session.reply (.lines session.realm.journal.toList)
  | .act reference action => session.andThen (session.find reference) fun held =>
    let (result, context, realm) := action.apply Part.behaviour held.context session.realm
    let session := { session with realm }.store reference context
    session.andThen result fun result => session.reply (.acted result (session.view context))

/-- What came of one step: the reply or the refusal, and what the step added to the journal and the log. -/
structure Trace where
  result : Except Refusal Reply
  journal : List String
  log : List LogEntry

def run (session : Session) : List Step → List Trace
  | [] => []
  | step :: rest =>
    let (result, next) := session.carryOut step
    let trace : Trace :=
      { result
        journal := (next.realm.journal.toList.drop session.realm.journal.size)
        log := (next.realm.log.toList.drop session.realm.log.size) }
    trace :: run next rest

end Session

end Spellcast
