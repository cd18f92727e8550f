import Spellcast.Glyph
import Spellcast.Json.Printer
import Spellcast.Session.Action

/-!
# Parts

What the instructions of a session can do: the glyphs, stand-ins that only leave a trace in the journal, and
scripts made of actions. A script may cancel the context it is handed and so notify observers that are scripts
themselves; such walks nest up to a bound.
-/

namespace Spellcast.Session

/-- What an instruction of a session does as an effect, as an observer or as a manipulator. -/
inductive Part where
  | glyph (glyph : Glyph)
  /-- An effect that does nothing but write its label to the journal, if it has one. -/
  | stub (label : Option String)
  /-- An effect that asks for a fork. -/
  | forking
  /-- An observer that writes to the journal and answers as it is told to. -/
  | recorder (label : String) (keep : Bool)
  /-- A manipulator that writes to the journal, answers as it is told to and proposes a fixed program, always
  the same sheet of it. -/
  | fixed (label : String) (push : Bool) (proposal : Option (Program Part)) (sheet : Nat)
  /-- An effect that performs actions. -/
  | scriptEffect (label : String) (actions : List Action) (fork : Bool)
  /-- An observer that performs actions. -/
  | scriptObserver (label : String) (actions : List Action) (keep : Bool)
  /-- A manipulator that performs actions on a copy of the context. -/
  | scriptManipulator (label : String) (actions : List Action) (push propose : Bool)

instance : Inhabited Part := ⟨.forking⟩

section

variable {κ : Type}

def noteLine (label : String) (context : Context κ) : String :=
  s!"note:{label}:" ++ (Note.ofContext context).toJson.compact

/-- Performs the actions of a script, whatever they answer. Taking a note writes it to the journal. -/
def perform (behaviour : Behaviour κ) (label : String) : List Action → Context κ → Realm → Context κ × Realm
  | [], context, realm => (context, realm)
  | action :: rest, context, realm =>
    let (_, context, realm) := action.apply behaviour context realm
    let realm := match action with
      | .note => realm.record (noteLine label context)
      | _ => realm
    perform behaviour label rest context realm

end

namespace Part

def effectName : Part → String
  | glyph kind => kind.name
  | stub _ => "stub"
  | forking => "forking"
  | scriptEffect .. => "script"
  | _ => "none"

/-- Runs a part as an effect. The behaviour is what observers mean that a script notifies. -/
def cast (inner : Behaviour Part) (part : Part) (context : Context Part) (realm : Realm) :
    Resolution × Context Part × Realm :=
  match part with
  | glyph kind => kind.cast context realm
  | stub (some label) => (.proceed, context, realm.record s!"cast:{label}")
  | forking => (.fork, context, realm)
  | scriptEffect label actions fork =>
    let (context, realm) := perform inner label actions context (realm.record s!"script:{label}")
    (if fork then .fork else .proceed, context, realm)
  | _ => (.proceed, context, realm)

def notify (inner : Behaviour Part) (part : Part) (context : Context Part) (realm : Realm) :
    Bool × Context Part × Realm :=
  match part with
  | glyph kind => kind.notify context realm
  | recorder label keep => (keep, context, realm.record s!"canceled:{label}")
  | scriptObserver label actions keep =>
    let (context, realm) := perform inner label actions context (realm.record s!"observe:{label}")
    (keep, context, realm)
  | _ => (true, context, realm)

/-- Asks a part whether it wants to supply the child of a fork. -/
def wantsPush (part : Part) (realm : Realm) : Bool × Realm :=
  match part with
  | glyph kind => (kind.wantsPush, realm)
  | fixed label push .. => (push, realm.record s!"should_push:{label}")
  | scriptManipulator _ _ push _ => (push, realm)
  | _ => (false, realm)

/-- The context of a fixed proposal: a fresh one for the program, tagged with the label. -/
def proposed (label : String) (program : Program Part) : Context Part :=
  { Context.ofProgram program with tag := [("proposed_by", .text label)] }

def propose (inner : Behaviour Part) (part : Part) (context : Context Part) (realm : Realm) :
    Option (Context Part) × Realm :=
  match part with
  | glyph kind => (kind.propose context, realm)
  | fixed label _ proposal _ => (proposal.map (proposed label), realm.record s!"propose:{label}")
  | scriptManipulator label actions _ propose =>
    let (context, realm) := perform inner label actions context realm
    (if propose then some context else none, realm)
  | _ => (none, realm)

/-- What parts mean when walks over observers nest at most so deep. -/
def behaviourWithin : Nat → Behaviour Part
  | 0 => .inert Part
  | depth + 1 =>
    let inner := behaviourWithin depth
    { effectName := effectName
      cast := cast inner
      notify := notify inner
      wantsPush := fun part _ realm => wantsPush part realm
      propose := propose inner }

def nestingLimit : Nat := 1000

def behaviour : Behaviour Part := behaviourWithin nestingLimit

def standard : Registry Part := Glyph.standard .glyph

end Part

end Spellcast.Session
