import Spellcast.Config
import Spellcast.Context.Run

/-!
# The arena

All contexts that are kept, by number. Numbers grow and are never used again, and a context refers to the one it
was forked from by number only, so ancestors are shared. `duplicateLineage` makes an independent copy of a
context and a bounded number of its ancestors.
-/

namespace Spellcast

/-- Contexts by number, the newest first, and the next number to give out. -/
structure Arena (κ : Type) where
  contexts : List (ContextId × Context κ)
  nextId : ContextId
  maxDepth : Nat

namespace Arena

variable {κ : Type}

/-- An arena with no contexts that copies at most so many ancestors. -/
def withDepth (maxDepth : Nat) : Arena κ := ⟨[], 0, maxDepth⟩

def empty : Arena κ := withDepth Config.defaultLineageDepth

def lookup (id : ContextId) : List (ContextId × Context κ) → Option (Context κ)
  | [] => none
  | (other, context) :: rest => if other = id then some context else lookup id rest

def exchange (id : ContextId) (context : Context κ) :
    List (ContextId × Context κ) → List (ContextId × Context κ)
  | [] => []
  | (other, held) :: rest =>
    if other = id then (other, context) :: rest else (other, held) :: exchange id context rest

def get? (arena : Arena κ) (id : ContextId) : Option (Context κ) := lookup id arena.contexts

def contains (arena : Arena κ) (id : ContextId) : Bool := (arena.get? id).isSome

def size (arena : Arena κ) : Nat := arena.contexts.length

def ids (arena : Arena κ) : List ContextId := arena.contexts.map (·.1)

def insert (arena : Arena κ) (context : Context κ) : ContextId × Arena κ :=
  (arena.nextId,
    { arena with contexts := (arena.nextId, context) :: arena.contexts, nextId := arena.nextId + 1 })

/-- Exchanges the context under a number; nothing happens if there is none. -/
def set (arena : Arena κ) (id : ContextId) (context : Context κ) : Arena κ :=
  { arena with contexts := exchange id context arena.contexts }

def remove (arena : Arena κ) (id : ContextId) : Arena κ :=
  { arena with contexts := arena.contexts.filter (·.1 != id) }

def release (arena : Arena κ) (ids : List ContextId) : Arena κ :=
  { arena with contexts := arena.contexts.filter fun entry => !ids.contains entry.1 }

/-- The number of the context that the one under this number was forked from. -/
def parentOf (arena : Arena κ) (id : ContextId) : Option ContextId :=
  (arena.get? id).bind (·.parent)

/-- Follows parents from a number on as long as they are in the arena, at most so many. -/
def follow (arena : Arena κ) : Nat → Option ContextId → List ContextId
  | 0, _ => []
  | _, none => []
  | bound + 1, some id => if arena.contains id then id :: follow arena bound (arena.parentOf id) else []

/-- The ancestors of a context, the nearest first, up to the first that is no longer in the arena. There are
no more of them than contexts. -/
def ancestors (arena : Arena κ) (id : ContextId) : List ContextId :=
  arena.follow arena.size (arena.parentOf id)

def depth (arena : Arena κ) (id : ContextId) : Nat := (arena.ancestors id).length

/-- A fork: the number of the child, and the position of the instruction that supplied it, if one did. -/
structure Fork where
  child : ContextId
  supplier : Option Nat
deriving DecidableEq

/-- Forks the context under a number and stores the child; nothing if there is no such context. -/
def fork (behaviour : Behaviour κ) (arena : Arena κ) (id : ContextId) (realm : Realm) :
    Option (Fork × Arena κ × Realm) :=
  match arena.get? id with
  | none => none
  | some context =>
    let (child, realm) := context.makeChild behaviour id realm
    let (childId, arena) := arena.insert child.context
    let event := Event.contextForked id childId (arena.depth childId) child.context.program.length
    some (⟨childId, child.supplier⟩, arena, realm.emit event)

/-- Copies the contexts under some numbers, the last one first. Each copy has the copy of the next one as its
parent, and the last one the given parent. Answers the parent of a further copy. -/
def copyChain (arena : Arena κ) (parent : Option ContextId) : List ContextId → Option ContextId × Arena κ
  | [] => (parent, arena)
  | id :: older =>
    let (linked, arena) := copyChain arena parent older
    match arena.get? id with
    | none => (linked, arena)
    | some context =>
      let (copy, arena) := arena.insert { context with parent := linked }
      (some copy, arena)

/-- Copies the context under a number together with its nearest ancestors, as many as the arena allows; nothing
if there is no such context. The oldest copy keeps the parent of the context it was made from. -/
def duplicateLineage (arena : Arena κ) (id : ContextId) (realm : Realm) :
    Option (ContextId × Arena κ × Realm) :=
  if arena.contains id then
    let ancestors := arena.ancestors id
    let copied := ancestors.take arena.maxDepth
    let oldest := copied.getLast?.getD id
    match arena.copyChain (arena.parentOf oldest) (id :: copied) with
    | (some copy, arena) =>
      let event := Event.lineageDuplicated id copy (copied.length + 1) (decide (arena.maxDepth < ancestors.length))
      some (copy, arena, realm.emit event)
    | (none, _) => none
  else none

def describe (arena : Arena κ) : String :=
  s!"ContextArena \x7b context_count: {arena.size}, next_id: {arena.nextId}, " ++
    s!"max_lineage_depth: {arena.maxDepth} \x7d"

end Arena

end Spellcast
