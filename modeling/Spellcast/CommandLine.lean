import Spellcast.Codec
import Spellcast.CommandLine.Filter
import Spellcast.Config.Source
import Spellcast.Glyph
import Spellcast.Number.Fixed
import Spellcast.Scheduler

/-!
# The command line

Casts the spells of some files with one caster and reports what came of them. The arguments are the file of a
configuration and at least one spell. All spells are registered before the first of them runs, so a spell that cannot
be had keeps every other one from running.
-/

namespace Spellcast.CommandLine

inductive Failure where
  | usage
  | badConfig (path : String) (fault : Config.Fault)
  | badFilter
  | badSpell (path : String) (fault : Codec.Fault)
  | emptySpell (path : String)
deriving DecidableEq

/-- What a fault has to say for itself. -/
inductive Cause where
  /-- A sentence. -/
  | plain (text : String)
  /-- A sentence, and the one of the fault behind it. -/
  | wrapping (text source : String)
  /-- A sentence; that of the fault behind it is left open. -/
  | cut (text : String)
deriving DecidableEq

/-- The lines of a cause. Causes are numbered if there are several. -/
def Cause.lines : Cause → List String
  | plain text => ["    " ++ text]
  | wrapping text source => ["    0: " ++ text, "    1: " ++ source]
  | cut text => ["    0: " ++ text]

def causeOfConfig (fault : Config.Fault) : Cause :=
  match fault with
  | .unreadable _ cause => .wrapping fault.message cause.message
  | .malformed _ => .cut fault.message
  | _ => .plain fault.message

def causeOfSpell (fault : Codec.Fault) : Cause :=
  match fault with
  | .unreadable cause => .wrapping fault.message cause.message
  | .badIdentifier cause => .wrapping fault.message cause.message
  | .unknownInstruction _ | .tooLong .. => .plain fault.message
  | .badStyle | .badJson _ | .badDocument _ | .malformedFrame => .cut fault.message

def complaint (text : String) (cause : Cause) : List String :=
  ("Error: " ++ text) :: "" :: "Caused by:" :: cause.lines

def Failure.lines : Failure → List String
  | usage =>
    [ "Usage: the-spellbook <engine-config.yaml|toml> <spell-file> [spell-file ...]",
      "Example: the-spellbook configs/engine.yaml spells/hop.yaml" ]
  | badConfig path fault => complaint s!"failed to load engine config '{path}'" (causeOfConfig fault)
  | badFilter => ["Error: invalid logging filter<detail>"]
  | badSpell path fault => complaint s!"failed to decode spell '{path}'" (causeOfSpell fault)
  | emptySpell path => [s!"Error: spell '{path}' has no instructions"]

/-- Everything that is needed to cast spells: the codec, the scheduler with the casts so far, the realm and the caster
in it, and the lines shown so far. -/
structure Stage where
  codec : Codec Glyph
  scheduler : Scheduler Glyph
  realm : Realm
  caster : EntityId
  shown : List String

def casterName : String := "Apprentice"

def toolId : Identifier :=
  ⟨Identifier.defaultSpace, "spell_book", Identifier.defaultSpace_isWord, by decide⟩

def tool : ItemStack := .ofItem toolId 1

def knownInstructions : String := ", ".intercalate (Glyph.paths.map fun path => "\"" ++ path ++ "\"")

def header (path : String) : List String :=
  [ "📖 The Spellbook", String.ofList (List.replicate 35 '═'), "Config: " ++ path,
    "Known instructions: [" ++ knownInstructions ++ "]", "" ]

namespace Stage

def ofConfig (path : String) (config : Config) : Stage :=
  let (caster, world) := World.empty.spawn casterName
  { codec := ⟨Glyph.standard fun glyph => glyph, config.length⟩, scheduler := .ofConfig config
    realm := { Realm.empty with world }, caster, shown := header path }

def enroll (stage : Stage) (path : String) (program : Program Glyph) : Stage :=
  let context := Context.ofEntity program stage.caster tool
  let (id, scheduler, realm) := stage.scheduler.cast context stage.realm
  { stage with
    scheduler, realm
    shown := stage.shown ++ [s!"✨ {path}: {program.describe}", s!"   registered as {CastId.name id}"] }

def report (stage : Stage) (result : Except Codec.Fault (Program Glyph)) : Stage :=
  match Codec.report? .persistent result with
  | some event => { stage with realm := stage.realm.emit event }
  | none => stage

/-- Registers the spells of some files, and stops at the first that cannot be had. -/
def enrollAll (read : String → Except Files.Fault String) (stage : Stage) : List String → Stage × Option Failure
  | [] => (stage, none)
  | path :: rest =>
    let result := stage.codec.decodeFile read path
    let stage := stage.report result
    match result with
    | .error fault => (stage, some (.badSpell path fault))
    | .ok program =>
      if program.isEmpty then (stage, some (.emptySpell path))
      else enrollAll read (stage.enroll path program) rest

end Stage

/-- Loads the configuration for a stage, and validates its filter by what is accepted as one. -/
def prepare (accepts : String → Bool) (read : String → Except Files.Fault String) (path : String) :
    Except Failure Stage :=
  match Config.load read path with
  | .error fault => .error (.badConfig path fault)
  | .ok loaded =>
    if accepts loaded.config.shown then .ok (.ofConfig path loaded.config) else .error .badFilter

/-- What came of the casts, and the realm they left behind. -/
structure Performance where
  outcomes : List (Outcome Glyph)
  realm : Realm
  caster : EntityId

/-- Runs all casts to their end. Glyphs bring a cast nearer to its end in every tick, so no patience is needed. -/
def Stage.perform (stage : Stage) : Performance :=
  let (outcomes, _, realm) := stage.scheduler.drive Glyph.behaviour 0 stage.realm
  ⟨outcomes, realm, stage.caster⟩

def status (outcome : Outcome Glyph) : String :=
  match outcome.cancelReason with
  | some reason => s!"canceled ({reason.text})"
  | none => "completed"

def outcomeLine (outcome : Outcome Glyph) : String :=
  s!"  {CastId.name outcome.id} {status outcome}: {outcome.steps} step(s), {outcome.forks} fork(s), " ++
    s!"{outcome.ticks} tick(s)"

def coordinates (position : Position) : String :=
  let text (number : Binary64) : String := Fixed.ofBinary64 2 number
  s!"({text position.x}, {text position.y}, {text position.z})"

def casterLines (entity : Entity) : List String :=
  [ s!"🧙 {entity.name} after casting:", s!"   position: {coordinates entity.position}",
    s!"   velocity: {coordinates entity.velocity}" ]

def Performance.lines (performance : Performance) (elapsed : String) : List String :=
  let results := performance.outcomes.map outcomeLine
  let caster := match performance.realm.world.entity? performance.caster with
    | some entity => casterLines entity
    | none => []
  ["", s!"📊 Results ({elapsed})", String.ofList (List.replicate 35 '─')] ++ results ++ "" :: caster

def elapsedText (nanoseconds : Nat) : String :=
  if 1000000000 ≤ nanoseconds then Fixed.ofRatio 2 nanoseconds 1000000000 ++ "s"
  else if 1000000 ≤ nanoseconds then Fixed.ofRatio 2 nanoseconds 1000000 ++ "ms"
  else if 1000 ≤ nanoseconds then Fixed.ofRatio 2 nanoseconds 1000 ++ "µs"
  else Fixed.ofRatio 2 nanoseconds 1 ++ "ns"

/-- Sets the stage that the arguments ask for. Answers the lines shown in any case, and the stage or a failure. -/
def stage (accepts : String → Bool) (read : String → Except Files.Fault String) (arguments : List String) :
    List String × Except Failure Stage :=
  match arguments with
  | config :: spell :: spells =>
    match prepare accepts read config with
    | .error failure => ([], .error failure)
    | .ok empty =>
      match empty.enrollAll read (spell :: spells) with
      | (stage, some failure) => (stage.shown, .error failure)
      | (stage, none) => (stage.shown, .ok stage)
  | _ => ([], .error .usage)

/-- What a run shows, what it complains about, and its exit code. -/
structure Report where
  output : List String
  complaints : List String
  code : Nat
deriving DecidableEq

/-- A whole run, given what is accepted as a filter and how long the casts took. -/
def runWith (accepts : String → Bool) (read : String → Except Files.Fault String) (elapsed : String)
    (arguments : List String) : Report :=
  match stage accepts read arguments with
  | (shown, .ok stage) => ⟨shown ++ stage.perform.lines elapsed, [], 0⟩
  | (shown, .error failure) => ⟨shown, failure.lines, 1⟩

def run : (String → Except Files.Fault String) → String → List String → Report := runWith Filter.accepts

end Spellcast.CommandLine
