import Spellcast.Text

/-!
# Configuration

What can be set about the engine. Every setting may be left out and then has its default; `Config.validate`
refuses settings that the engine could not make progress with.
-/

namespace Spellcast

/-- The settings as they are given. -/
structure Config where
  stepsPerTick : Option Nat
  tickInterval : Option Nat
  forksPerCast : Option Nat
  programLength : Option Nat
  lineageDepth : Option Nat
  filter : Option String
deriving DecidableEq

namespace Config

def empty : Config := ⟨none, none, none, none, none, none⟩

def defaultStepsPerTick : Nat := 64
def defaultTickInterval : Nat := 50
def defaultForksPerCast : Nat := 256
def defaultProgramLength : Nat := 128
def defaultLineageDepth : Nat := 64
def defaultFilter : String := "info"

def steps (config : Config) : Nat := config.stepsPerTick.getD defaultStepsPerTick

def interval (config : Config) : Nat := config.tickInterval.getD defaultTickInterval

def forks (config : Config) : Nat := config.forksPerCast.getD defaultForksPerCast

def length (config : Config) : Nat := config.programLength.getD defaultProgramLength

def depth (config : Config) : Nat := config.lineageDepth.getD defaultLineageDepth

def shown (config : Config) : String := config.filter.getD defaultFilter

/-- A setting out of range, and why. -/
structure Invalid where
  field : String
  reason : String
deriving DecidableEq

def Invalid.message (invalid : Invalid) : String :=
  s!"Invalid config value for '{invalid.field}': {invalid.reason}"

/-- The settings that must not be zero, by name and in the order they are looked at. -/
def counts (config : Config) : List (String × Option Nat) :=
  [("scheduler.max_steps_per_tick", config.stepsPerTick), ("scheduler.tick_interval_ms", config.tickInterval),
    ("scheduler.max_forks_per_cast", config.forksPerCast), ("limits.max_program_length", config.programLength),
    ("limits.max_lineage_depth", config.lineageDepth)]

def validate (config : Config) : Except Invalid Unit :=
  match config.counts.find? (·.2 == some 0) with
  | some (field, _) => .error ⟨field, "must be greater than zero"⟩
  | none =>
    match config.filter with
    | some filter => if Text.isBlank filter then .error ⟨"logging.filter", "must not be empty"⟩ else .ok ()
    | none => .ok ()

end Config

end Spellcast
