import Spellcast.Config
import Spellcast.Format

/-!
# Reading a configuration

A configuration is a record of three sections, each a record of settings. `Config.read` reads it from any
notation; what is missing, a section or a setting, is not set.
-/

namespace Spellcast.Config

open Format (Member)

variable {m : Type → Type} {ν : Type} [Monad m] [MonadExcept Unfit m]

def greatest : Nat := 0xFFFFFFFFFFFFFFFF

/-- What has been read so far: the settings, and the names of the sections and settings they were read
from. -/
structure Draft where
  config : Config
  given : List String

/-- A setting: its name, and how the configuration changes with its value. -/
def setting {α : Type} (format : Format m ν) (name : String) (read : ν → m α)
    (change : Config → Option α → Config) : Member m ν Draft :=
  { name, optional := false, given := (·.given.contains name)
    read := fun _ value draft => do
      let value ← format.readOptional read value
      pure ⟨change draft.config value, name :: draft.given⟩ }

/-- A section: its name and its settings. -/
def sectionMember (format : Format m ν) (name : String) (settings : List (Member m ν Draft)) : Member m ν Draft :=
  { name, optional := true, given := (·.given.contains name)
    read := fun depth value draft => do
      let draft ← format.readRecord depth settings draft value
      pure { draft with given := name :: draft.given } }

def plan (format : Format m ν) : List (Member m ν Draft) :=
  let natural := format.readNatural greatest
  [ sectionMember format "scheduler"
      [ setting format "max_steps_per_tick" natural fun config value => { config with stepsPerTick := value },
        setting format "tick_interval_ms" natural fun config value => { config with tickInterval := value },
        setting format "max_forks_per_cast" natural fun config value =>
          { config with forksPerCast := value } ],
    sectionMember format "limits"
      [ setting format "max_program_length" natural fun config value => { config with programLength := value },
        setting format "max_lineage_depth" natural fun config value => { config with lineageDepth := value } ],
    sectionMember format "logging"
      [ setting format "filter" format.text fun config value => { config with filter := value } ] ]

def read (format : Format m ν) (depth : Nat) (value : ν) : m Config :=
  (·.config) <$> format.readRecord depth (plan format) ⟨.empty, []⟩ value

end Spellcast.Config
