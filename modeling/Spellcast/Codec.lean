import Spellcast.Config
import Spellcast.Event
import Spellcast.Files
import Spellcast.Frame
import Spellcast.Json.Printer
import Spellcast.Json.Reader
import Spellcast.Record
import Spellcast.Registry
import Spellcast.Yaml.Printer
import Spellcast.Yaml.Reader

/-!
# Codecs

Programs in their written forms: as a record in JSON or YAML, and as a frame. A codec looks the names of
instructions up in a registry and refuses programs that are longer than its limit. What is wrong is found in a
fixed order: the text, then the names, then the style of a frame, then the length, then unknown instructions.
-/

namespace Spellcast

structure Codec (κ : Type) where
  registry : Registry κ
  maxLength : Nat

namespace Codec

variable {κ : Type}

/-- Why a program cannot be decoded. -/
inductive Fault where
  | unknownInstruction (name : String)
  | badIdentifier (fault : Identifier.Fault)
  | tooLong (length limit : Nat)
  | badStyle
  | badJson (cause : Unfit)
  | badDocument (cause : Unfit)
  | malformedFrame
  | unreadable (fault : Files.Fault)
deriving DecidableEq

def detail : String := "<detail>"

def Fault.message : Fault → String
  | unknownInstruction name => s!"Unknown instruction '{name}'"
  | badIdentifier fault => s!"Invalid instruction id: {fault.message}"
  | tooLong length limit => s!"Program has {length} instructions, limit is {limit}"
  | badStyle => s!"Invalid visual style: {detail}"
  | badJson _ => s!"Invalid spell JSON: {detail}"
  | badDocument _ => s!"Invalid spell document: {detail}"
  | malformedFrame => s!"Malformed network frame: {detail}"
  | unreadable fault => s!"I/O error: {fault.message}"

def ofRegistry (registry : Registry κ) : Codec κ := ⟨registry, Config.defaultProgramLength⟩

def resolve (codec : Codec κ) : List Identifier → Except Fault (List (Instruction κ))
  | [] => .ok []
  | id :: rest =>
    match codec.registry.find? id with
    | none => .error (.unknownInstruction id.text)
    | some instruction => (codec.resolve rest).map (instruction :: ·)

/-- The program of a record. Its length is looked at before any name is looked up. -/
def assemble (codec : Codec κ) (record : Record) : Except Fault (Program κ) :=
  if codec.maxLength < record.instructions.length then
    .error (.tooLong record.instructions.length codec.maxLength)
  else
    (codec.resolve record.instructions).map fun instructions => ⟨instructions, record.visual⟩

/-- A channel of a frame as one of a colour: what is too large is as large as can be. -/
def channel (value : Nat) : UInt8 := UInt8.ofNat (min value 255)

/-- The style that a text stands for. An empty text is an empty style. -/
def readStyle (text : String) : Except Fault Fields :=
  if text.isEmpty then .ok []
  else
    match Json.readText (Json.Tree.format.readMap 0) text with
    | .ok style => .ok style
    | .error _ => .error .badStyle

def writeStyle (style : Fields) : String :=
  if style.isEmpty then "" else (Json.object style).compact

def readNames : List String → Except Fault (List Identifier)
  | [] => .ok []
  | name :: rest =>
    match Identifier.parse name with
    | .error fault => .error (.badIdentifier fault)
    | .ok id => (readNames rest).map (id :: ·)

def readVisual : Option FrameVisual → Except Fault Visual
  | none => .ok .default
  | some visual =>
    (readStyle visual.style).map fun style =>
      ⟨⟨channel visual.red, channel visual.green, channel visual.blue⟩, style⟩

def ofFrame (frame : Frame) : Except Fault Record := do
  let instructions ← readNames frame.instructions
  let visual ← readVisual frame.visual
  .ok ⟨instructions, visual⟩

def toFrame (program : Program κ) : Frame :=
  let color := program.visual.color
  ⟨program.ids.map Identifier.text,
    some ⟨color.red.toNat, color.green.toNat, color.blue.toNat, writeStyle program.visual.style⟩⟩

def encodeJson (program : Program κ) : String := (Record.ofProgram program).toJson.pretty

def encodeYaml (program : Program κ) : String := Yaml.blockText (Record.ofProgram program).toJson

def encodeNetwork (program : Program κ) : Wire.Bytes := (toFrame program).write

def decodeJson (codec : Codec κ) (text : String) : Except Fault (Program κ) :=
  match Json.readText (Record.read Json.Tree.format 0) text with
  | .ok record => codec.assemble record
  | .error cause => .error (.badJson cause)

def decodeYaml (codec : Codec κ) (text : String) : Except Fault (Program κ) :=
  match Yaml.readText (Record.read · 0) text with
  | .ok record => codec.assemble record
  | .error cause => .error (.badDocument cause)

/-- The program of a file: a JSON text if the name of the file says so, and a YAML text otherwise. -/
def decodeFile (codec : Codec κ) (read : String → Except Files.Fault String) (path : String) :
    Except Fault (Program κ) :=
  match read path with
  | .error fault => .error (.unreadable fault)
  | .ok text =>
    if (Path.extension? path).map Path.lowered = some "json" then codec.decodeJson text
    else codec.decodeYaml text

def decodeNetwork (codec : Codec κ) (bytes : Wire.Bytes) : Except Fault (Program κ) := do
  match Frame.read? bytes with
  | none => .error .malformedFrame
  | some frame => codec.assemble (← ofFrame frame)

/-- The two kinds of written forms. -/
inductive Form where
  | persistent
  | network
deriving DecidableEq

def Form.name : Form → String
  | persistent => "persistent"
  | network => "network"

/-- The event that reports how decoding went. A file that cannot be read is not reported. -/
def report? (form : Form) (result : Except Fault (Program κ)) : Option Event :=
  match result with
  | .ok program => some (.programDecoded form.name program.length)
  | .error (.unreadable _) => none
  | .error fault => some (.programRefused form.name fault.message)

end Codec

end Spellcast
