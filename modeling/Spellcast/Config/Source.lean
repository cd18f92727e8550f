import Spellcast.Config.Record
import Spellcast.Event
import Spellcast.Files
import Spellcast.Toml.Reader
import Spellcast.Yaml.Reader

/-!
# Configurations in files

A configuration is written in YAML or in TOML; the extension of its file says in which. `Config.load` reads one and
validates it. The extension is looked at before the file is.
-/

namespace Spellcast.Config

/-- The notations a configuration can be written in. -/
inductive Dialect where
  | yaml
  | toml
deriving DecidableEq

def Dialect.name : Dialect → String
  | yaml => "yaml"
  | toml => "toml"

def Dialect.ofExtension? : String → Option Dialect
  | "yaml" => some .yaml
  | "yml" => some .yaml
  | "toml" => some .toml
  | _ => none

/-- Why a configuration cannot be had. -/
inductive Fault where
  | unsupported (extension : String)
  | unreadable (path : String) (cause : Files.Fault)
  | malformed (dialect : Dialect)
  | invalid (setting : Invalid)
deriving DecidableEq

/-- The sentence shown for a fault. What a notation has to say about a text that it cannot read is left open. -/
def Fault.message : Fault → String
  | unsupported extension => s!"Unsupported config format '{extension}' (expected yaml, yml or toml)"
  | unreadable path cause => s!"Failed to read config '{path}': {cause.message}"
  | malformed .yaml => "Invalid YAML config: <detail>"
  | malformed .toml => "Invalid TOML config: <detail>"
  | invalid setting => setting.message

/-- The dialect of a file. The case of its extension does not matter. -/
def dialectOf (path : String) : Except Fault Dialect :=
  let extension := Path.lowered ((Path.extension? path).getD "")
  match Dialect.ofExtension? extension with
  | some dialect => .ok dialect
  | none => .error (.unsupported extension)

def ofText (dialect : Dialect) (text : String) : Except Unfit Config :=
  match dialect with
  | .yaml => Yaml.readText (Config.read · 0) text
  | .toml => Toml.readText (Config.read Toml.Value.format 0) text

def parse (dialect : Dialect) (text : String) : Except Fault Config :=
  match ofText dialect text with
  | .error _ => .error (.malformed dialect)
  | .ok config =>
    match config.validate with
    | .ok _ => .ok config
    | .error setting => .error (.invalid setting)

/-- A configuration that was loaded from a file. -/
structure Loaded where
  path : String
  dialect : Dialect
  config : Config
deriving DecidableEq

def Loaded.event (loaded : Loaded) : Event :=
  .configLoaded loaded.path loaded.dialect.name loaded.config.steps loaded.config.interval

def load (read : String → Except Files.Fault String) (path : String) : Except Fault Loaded := do
  let dialect ← dialectOf path
  match read path with
  | .error cause => .error (.unreadable path cause)
  | .ok text => (parse dialect text).map (⟨path, dialect, ·⟩)

end Spellcast.Config
