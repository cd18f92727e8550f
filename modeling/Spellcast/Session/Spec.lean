import Spellcast.Session.Part

/-!
# Specifications of instructions and programs

Instructions and programs as they are asked for, and how they are built: names are read and looked up, and every
newly built effect gets a serial number of its own, so that it is shared with nothing else.
-/

namespace Spellcast.Session

inductive EffectSpec where
  | stub
  | recording (label : String)
  | forking
  | delay (ticks : Int)
  | jump (strength : Option Binary64)
  | mark (counter : String)
  | ward
  | echo (times : Nat)
  | script (actions : List Action) (fork : Bool)

/-- An observer as it is asked for. -/
inductive ObserverSpec where
  | recording (label : String) (keep : Bool)
  | ward
  | script (actions : List Action) (keep : Bool)

mutual

/-- An instruction as it is asked for. -/
inductive InstructionSpec where
  /-- A standard instruction by its identifier. -/
  | standard (id : String)
  /-- An instruction that was defined under a name. -/
  | defined (name : String)
  | stub (path : String)
  | forking (path : String)
  | observerStub (path : String) (keep : Bool)
  | manipulatorStub (path : String) (push : Bool) (proposal : Option ProgramSpec)
  | general (id : String) (effect : EffectSpec) (observer : Option ObserverSpec)
      (manipulator : Option ManipulatorSpec)

/-- A manipulator as it is asked for. -/
inductive ManipulatorSpec where
  | fixed (label : String) (push : Bool) (proposal : Option ProgramSpec)
  | echo (id : Option String) (times : Nat)
  | script (actions : List Action) (push propose : Bool)

inductive ProgramSpec where
  | program (instructions : List InstructionSpec) (visual : Visual)

end

instance : Inhabited InstructionSpec := ⟨.standard ""⟩
instance : Inhabited ProgramSpec := ⟨.program [] .default⟩

/-- What building draws on: the standard instructions, the defined ones, and the next serial number. -/
structure Workshop where
  registry : Registry Part
  defined : List (String × Instruction Part)
  nextSerial : Nat

namespace Workshop

def standard : Workshop := ⟨Part.standard, [], Glyph.paths.length⟩

abbrev Build := StateT Nat (Except Refusal)

def id (name : String) : Build Identifier := liftExcept (readId name)
where
  /-- A result that needs no serial number. -/
  liftExcept {α : Type} (result : Except Refusal α) : Build α := fun serial => result.map (·, serial)

def path (path : String) : Build Identifier :=
  match Identifier.ofPath path with
  | .ok id => pure id
  | .error fault => throw (.identifier fault)

def newSerial : Build Nat := fun serial => .ok (serial, serial + 1)

def fresh (part : Part) : Build (Shared Part) := do
  return ⟨← newSerial, part⟩

/-- Builds an effect; scripts and echoes know the identifier of their instruction. -/
def effect (label : String) (own : Identifier) : EffectSpec → Build (Shared Part)
  | .stub => fresh (.stub none)
  | .recording text => fresh (.stub (some text))
  | .forking => fresh .forking
  | .delay ticks => fresh (.glyph (.delay ticks))
  | .jump strength => fresh (.glyph (.jump (strength.getD Glyph.defaultStrength)))
  | .mark counter => do
    let counter ← id counter
    fresh (.glyph (.mark counter))
  | .ward => fresh (.glyph .ward)
  | .echo times => fresh (.glyph (.echo own times))
  | .script actions fork => fresh (.scriptEffect label actions fork)

def observer (label : String) : ObserverSpec → Part
  | .recording text keep => .recorder text keep
  | .ward => .glyph .ward
  | .script actions keep => .scriptObserver label actions keep

def definedInstruction (workshop : Workshop) (name : String) : Build (Instruction Part) :=
  match workshop.defined.lookup name with
  | some instruction => pure instruction
  | none => throw (.badInput "unknown def")

def standardInstruction (workshop : Workshop) (name : String) : Build (Instruction Part) := do
  let id ← id name
  match workshop.registry.find? id with
  | some instruction => pure instruction
  | none => throw (.unknownInstruction id)

mutual

def instruction (workshop : Workshop) : InstructionSpec → Build (Instruction Part)
  | .standard name => workshop.standardInstruction name
  | .defined name => workshop.definedInstruction name
  | .stub name => do
    let id ← path name
    return .plain id (← fresh (.stub none))
  | .forking name => do
    let id ← path name
    return .plain id (← fresh .forking)
  | .observerStub name keep => do
    let id ← path name
    return { Instruction.plain id (← fresh (.stub none)) with observer := some (.recorder name keep) }
  | .manipulatorStub name push proposal => do
    let proposal ← optionalProgram workshop proposal
    let id ← path name
    let fixed := Part.fixed name push proposal (← newSerial)
    return { Instruction.plain id (← fresh (.stub none)) with manipulator := some fixed }
  | .general name effectSpec observerSpec manipulatorSpec => do
    let id ← id name
    let effect ← effect name id effectSpec
    let manipulator ← optionalManipulator workshop name id manipulatorSpec
    return { id, effect, observer := observerSpec.map (observer name), manipulator }

def manipulator (workshop : Workshop) (label : String) (own : Identifier) :
    ManipulatorSpec → Build Part
  | .fixed text push proposal => do
    return .fixed text push (← optionalProgram workshop proposal) (← newSerial)
  | .echo name times => do
    let id ← match name with
      | some name => id name
      | none => pure own
    return .glyph (.echo id times)
  | .script actions push propose => return .scriptManipulator label actions push propose

/-- Builds a manipulator if one is asked for. -/
def optionalManipulator (workshop : Workshop) (label : String) (own : Identifier) :
    Option ManipulatorSpec → Build (Option Part)
  | none => return none
  | some spec => return some (← manipulator workshop label own spec)

def program (workshop : Workshop) : ProgramSpec → Build (Program Part)
  | .program specs visual => return ⟨← instructions workshop specs, visual⟩

/-- Builds a program if one is asked for. -/
def optionalProgram (workshop : Workshop) : Option ProgramSpec → Build (Option (Program Part))
  | none => return none
  | some spec => return some (← program workshop spec)

def instructions (workshop : Workshop) : List InstructionSpec → Build (List (Instruction Part))
  | [] => return []
  | spec :: rest => do
    let first ← instruction workshop spec
    let others ← instructions workshop rest
    return first :: others

end

/-- Builds something and keeps the serial numbers that were used. -/
def build {α : Type} (workshop : Workshop) (make : Workshop → Build α) : Except Refusal α × Workshop :=
  match make workshop workshop.nextSerial with
  | .ok (result, nextSerial) => (.ok result, { workshop with nextSerial })
  | .error refusal => (.error refusal, workshop)

/-- Builds instructions and registers them in order. Answers for each what it replaced, or why it was refused. -/
def registerAll (workshop : Workshop) : List InstructionSpec → Registry Part →
    List (Except Refusal (Option (Instruction Part))) × Registry Part
  | [], registry => ([], registry)
  | spec :: rest, registry =>
    match workshop.build (·.instruction spec) with
    | (.error refusal, workshop) =>
      let (answers, registry) := workshop.registerAll rest registry
      (.error refusal :: answers, registry)
    | (.ok instruction, workshop) =>
      let (replaced, registry) := registry.register instruction
      let (answers, registry) := workshop.registerAll rest registry
      (.ok replaced :: answers, registry)

/-- The registry of some instructions, or the first refusal. -/
def registryOf (workshop : Workshop) (specs : List InstructionSpec) : Except Refusal (Registry Part) :=
  let (answers, registry) := workshop.registerAll specs .empty
  answers.foldl (fun result answer => result.bind fun registry => answer.map fun _ => registry) (.ok registry)

def define (workshop : Workshop) (name : String) (instruction : Instruction Part) : Workshop :=
  { workshop with defined := (name, instruction) :: workshop.defined }

end Workshop

end Spellcast.Session
