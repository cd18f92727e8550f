import Spellcast.Attachment
import Spellcast.Event
import Spellcast.World

/-!
# The realm

Everything that contexts have in common while they run: the world, the cells of their attachments, the journal
that instructions may write to, and the log with the spans that are open.
-/

namespace Spellcast

/-- What runs share. -/
structure Realm where
  world : World
  cells : Cells
  journal : Array String
  log : Array LogEntry
  /-- The open spans, the outermost first. -/
  spans : List String
deriving DecidableEq

namespace Realm

def empty : Realm :=
  { world := .empty, cells := .empty, journal := #[], log := #[], spans := [] }

def emit (realm : Realm) (event : Event) : Realm :=
  { realm with log := realm.log.push ⟨event, realm.spans⟩ }

def record (realm : Realm) (entry : String) : Realm :=
  { realm with journal := realm.journal.push entry }

def enter (realm : Realm) (span : String) : Realm :=
  { realm with spans := realm.spans ++ [span] }

def leave (realm : Realm) : Realm :=
  { realm with spans := realm.spans.dropLast }

end Realm

end Spellcast
