import Spellcast.Behaviour
import Spellcast.Registry

/-!
# Glyphs

The standard instructions. A jump throws the caster up; a delay suspends the rest of the program; a mark counts
how often it ran; a ward absorbs a cancellation; an echo replays what follows it when an earlier instruction
forks. What they do does not depend on what the other instructions of a program are.
-/

namespace Spellcast

/-- What a standard instruction does. -/
inductive Glyph where
  | jump (strength : Binary64)
  | delay (ticks : Int)
  | mark (counter : Identifier)
  | ward
  | echo (id : Identifier) (times : Nat)
deriving DecidableEq

namespace Glyph

variable {κ : Type}

/-- How strongly a jump throws unless it says otherwise: 0.75. -/
def defaultStrength : Binary64 := ⟨0x3FE8000000000000⟩

def defaultDelay : Int := 20

def defaultTimes : Nat := 2

/-- The attachment that the standard mark counts in. -/
def marksId : Identifier :=
  ⟨Identifier.defaultSpace, "marks", Identifier.defaultSpace_isWord, by decide⟩

/-- The tag that keeps the index of the last mark. -/
def lastMarkKey : String := "last_mark"

/-- The tag that keeps the reason a ward has absorbed. -/
def wardedKey : String := "warded"

def name : Glyph → String
  | jump _ => "jump"
  | delay _ => "delay"
  | mark _ => "mark"
  | ward => "ward"
  | echo .. => "echo"

/-- Throws whoever acts for the context upwards and keeps its motion across the ground. -/
def castJump (strength : Binary64) (context : Context κ) (realm : Realm) : Realm :=
  let (target, world) := context.resolveCaster realm.world
  { realm with
    world := world.modifyEntity target fun entity =>
      { entity with velocity := { entity.velocity with y := strength } } }

/-- Suspends the context and asks for a fork; at the end of a program there is nothing to delay. -/
def castDelay (ticks : Int) (context : Context κ) : Resolution × Context κ :=
  if context.program.length ≤ context.counter then (.proceed, context)
  else (.fork, context.delay ticks)

/-- Counts in an attachment and notes the index of the instruction that ran. An attachment of another kind is
left alone, and that is logged. -/
def castMark (counter : Identifier) (context : Context κ) (realm : Realm) : Context κ × Realm :=
  let (found, attachments, cells) := context.attachments.getOrInsert realm.cells counter (.tally 0)
  let realm := match found with
    | .ok cell => { realm with cells := cells.add cell 1 }
    | .error fault => { realm with cells }.emit (.markUnavailable fault.message)
  let tag := Fields.insert lastMarkKey (.nat (context.counter - 1)) context.tag
  ({ context with attachments, tag }, realm)

def markCount (context : Context κ) (cells : Cells) (counter : Identifier) : Nat :=
  match (context.attachments.get? cells .tally counter).bind cells.read? with
  | some (.tally value) => value
  | _ => 0

/-- Runs a glyph as an effect. -/
def cast (glyph : Glyph) (context : Context κ) (realm : Realm) : Resolution × Context κ × Realm :=
  match glyph with
  | jump strength => (.proceed, context, castJump strength context realm)
  | delay ticks =>
    let (resolution, context) := castDelay ticks context
    (resolution, context, realm)
  | mark counter =>
    let (context, realm) := castMark counter context realm
    (.proceed, context, realm)
  | ward => (.proceed, context, realm)
  | echo .. => (.proceed, context, realm)

/-- A ward notes the reason of a cancellation and ends the walk, unless the run only moves on into a child. -/
def absorb (context : Context κ) : Bool × Context κ :=
  match context.cancelReason with
  | none => (true, context)
  | some .newContext => (true, context)
  | some reason => (false, { context with tag := Fields.insert wardedKey (.text reason.text) context.tag })

/-- Tells a glyph that the context is canceled. Only a ward listens. -/
def notify (glyph : Glyph) (context : Context κ) (realm : Realm) : Bool × Context κ × Realm :=
  match glyph with
  | ward =>
    let (goesOn, context) := absorb context
    (goesOn, context, realm)
  | _ => (true, context, realm)

/-- The program in which everything behind the echo with the given name is replayed. The echo itself is left
out. Nothing if there is no such echo. -/
def unroll? (id : Identifier) (times : Nat) (program : Program κ) : Option (Program κ) :=
  match program.instructions.span (·.id != id) with
  | (_, []) => none
  | (before, _ :: after) =>
    some { program with instructions := before ++ (List.replicate times after).flatten }

def wantsPush : Glyph → Bool
  | echo _ times => 0 < times
  | _ => false

/-- The child that a glyph proposes for a fork. -/
def propose (glyph : Glyph) (context : Context κ) : Option (Context κ) :=
  match glyph with
  | echo id times =>
    (unroll? id times context.remainder).map fun program => { context with program, counter := 0 }
  | _ => none

/-- The behaviour of programs that hold nothing but glyphs. -/
def behaviour : Behaviour Glyph where
  effectName := name
  cast := cast
  notify := notify
  wantsPush glyph _ realm := (glyph.wantsPush, realm)
  propose glyph context realm := (glyph.propose context, realm)

def paths : List String := ["glyph_jump", "glyph_delay", "glyph_mark", "glyph_ward", "glyph_echo"]

/-- What the instruction with an identifier does, if its path is a standard one. -/
def ofId? (id : Identifier) : Option Glyph :=
  match id.path with
  | "glyph_jump" => some (.jump defaultStrength)
  | "glyph_delay" => some (.delay defaultDelay)
  | "glyph_mark" => some (.mark marksId)
  | "glyph_ward" => some .ward
  | "glyph_echo" => some (.echo id defaultTimes)
  | _ => none

/-- A glyph as an instruction. A ward observes and an echo manipulates as well. -/
def instruction (embed : Glyph → κ) (serial : Nat) (id : Identifier) (glyph : Glyph) : Instruction κ :=
  { id, effect := ⟨serial, embed glyph⟩
    observer := match glyph with
      | ward => some (embed glyph)
      | _ => none
    manipulator := match glyph with
      | echo .. => some (embed glyph)
      | _ => none }

/-- The standard instruction with a path, nothing if there is none, or the fault of the path. -/
def create (embed : Glyph → κ) (serial : Nat) (path : String) :
    Except Identifier.Fault (Option (Instruction κ)) :=
  (Identifier.ofPath path).map fun id => (ofId? id).map (instruction embed serial id)

/-- All standard instructions, each with an effect of its own. -/
def standard (embed : Glyph → κ) : Registry κ :=
  .ofList (paths.zipIdx.filterMap fun (path, serial) => ((create embed serial path).toOption).join)

end Glyph

end Spellcast
