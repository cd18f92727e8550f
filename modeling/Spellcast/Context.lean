import Spellcast.Attachment
import Spellcast.Program
import Spellcast.World

/-!
# Contexts

A context is one run through a program: the counter, the state of cancellation and suspension, who casts and
from where, what it looks like, and what instructions left with it. This module holds the state and the
operations that need nothing else; running, canceling and forking are in `Spellcast.Context.Run`.
-/

namespace Spellcast

/-- The place of a context in an arena. It is never given out twice. -/
abbrev ContextId := Nat

inductive CancelReason where
  /-- The run moved on into a child. -/
  | newContext
  /-- It was stopped without notifying anyone. -/
  | terminated
  /-- A reason of an instruction or of whoever drives the engine. -/
  | custom (id : Identifier)
deriving DecidableEq

def CancelReason.text : CancelReason → String
  | newContext => "new_context"
  | terminated => "terminated"
  | custom id => id.text

/-- A wait of some ticks. It holds the run back only while the number is positive. -/
structure Suspension where
  remaining : Int
deriving DecidableEq

namespace Suspension

/-- The least number of remaining ticks; counting down stops there. -/
def least : Int := -0x8000000000000000

def isPending (suspension : Suspension) : Bool := 0 < suspension.remaining

def tick (suspension : Suspension) : Suspension := ⟨max (suspension.remaining - 1) least⟩

end Suspension

/-- What kind of source casts a program. -/
inductive CasterType where
  | rune
  | turret
  | entity
  | livingEntity
  | player
  | other
  | custom (name : String)
deriving DecidableEq

/-- What the caster holds in its hand. -/
structure ItemStack where
  item : Option Identifier
  count : Nat
  tag : Fields

namespace ItemStack

def empty : ItemStack := ⟨none, 0, []⟩

def ofItem (item : Identifier) (count : Nat) : ItemStack := ⟨some item, count, []⟩

def isEmpty (stack : ItemStack) : Bool := stack.item.isNone || stack.count == 0

end ItemStack

/-- One run through a program. -/
structure Context (κ : Type) where
  program : Program κ
  counter : Nat
  canceled : Bool
  /-- Why the context was canceled last. A reset leaves it behind. -/
  cancelReason : Option CancelReason
  suspension : Option Suspension
  caster : Option EntityId
  tool : ItemStack
  site : Option SiteId
  casterType : Option CasterType
  colors : Color
  tag : Fields
  attachments : AttachmentStore
  /-- The context this one was forked from. -/
  parent : Option ContextId

namespace Context

variable {κ : Type}

/-- A context for a program alone: no caster, no parent, at the first instruction. -/
def ofProgram (program : Program κ) : Context κ :=
  { program, counter := 0, canceled := false, cancelReason := none, suspension := none, caster := none
    tool := .empty, site := none, casterType := none, colors := program.visual.color, tag := []
    attachments := .empty, parent := none }

def ofEntity (program : Program κ) (caster : EntityId) (tool : ItemStack) : Context κ :=
  { ofProgram program with caster := some caster, tool, casterType := some .livingEntity }

def isSuspended (context : Context κ) : Bool :=
  match context.suspension with
  | some suspension => suspension.isPending
  | none => false

def hasNext (context : Context κ) : Bool :=
  !context.program.isEmpty && !context.canceled && !context.isSuspended &&
    decide (context.counter < context.program.length)

/-- The instructions that have not run yet, as a program. -/
def remainder (context : Context κ) : Program κ := context.program.remainderFrom context.counter

def delay (context : Context κ) (ticks : Int) : Context κ := { context with suspension := some ⟨ticks⟩ }

/-- Makes the context ready to run from the start. The reason of an earlier cancellation stays. -/
def reset (context : Context κ) : Context κ := { context with counter := 0, canceled := false }

/-- The state of a context that is stopped without notifying anyone. -/
def stopped (context : Context κ) : Context κ :=
  { context with canceled := true, cancelReason := some .terminated }

/-- The caster, if there is one and it still exists. -/
def caster? (context : Context κ) (world : World) : Option Entity :=
  context.caster.bind world.entity?

/-- The site, if there is one and it still exists. -/
def site? (context : Context κ) (world : World) : Option Site :=
  context.site.bind world.site?

def describeCaster (context : Context κ) (world : World) : String :=
  match context.caster with
  | none => "<none>"
  | some id =>
    match world.entity? id with
    | some entity => entity.describe
    | none => "<dropped>"

def describeSite (context : Context κ) (world : World) : String :=
  match context.site with
  | none => "<none>"
  | some id =>
    match world.site? id with
    | some site => site.describe
    | none => "<dropped>"

/-- Who acts for the context: its caster, or else the placeholder, moved to the site if there is one. -/
def resolveCaster (context : Context κ) (world : World) : EntityId × World :=
  match context.caster? world with
  | some entity => (entity.id, world)
  | none =>
    match context.site? world with
    | some site =>
      (0, { world with placeholder := { world.placeholder with position := site.position } })
    | none => (0, world)

end Context

end Spellcast
