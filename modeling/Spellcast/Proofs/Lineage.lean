import Mathlib.Data.List.Chain
import Mathlib.Data.List.Infix
import Mathlib.Data.List.Perm.Subperm
import Spellcast.Proofs.Focus

/-!
# The lineage of a cast

The contexts of a cast are a chain of parents: the first one has no parent, and each later one was forked from the
one before it. `InFlight.Descends` says so, together with how the contexts before the active one were left. It speaks
of parents and of contexts that are no longer active only, so it is kept by whatever changes no parent and touches
nothing but active contexts, and a move into a child adds one link. The ancestors of the active context can be read
off the list.
-/

namespace Spellcast

variable {κ : Type} {behaviour : Behaviour κ} {maxForks : Nat}

/-- No effect and no observer changes the parent of the context that it is handed. A proposed child may name any
parent. -/
structure Behaviour.KeepsParent (behaviour : Behaviour κ) : Prop where
  cast : ∀ code context realm, (behaviour.cast code context realm).2.1.parent = context.parent
  notify : ∀ code context realm, (behaviour.notify code context realm).2.1.parent = context.parent

namespace Context

variable {context : Context κ} {reason : CancelReason} {realm : Realm}

/-- The observers among the instructions that remain leave alone whether and why the context is canceled. -/
def ObserversSpare (behaviour : Behaviour κ) (context : Context κ) : Prop :=
  ∀ instruction ∈ context.remainder.instructions, ∀ observer, instruction.observer = some observer →
    ∀ told realm,
      let answer := (behaviour.notify observer told realm).2.1
      (answer.canceled, answer.cancelReason) = (told.canceled, told.cancelReason)

def AskedForFork (behaviour : Behaviour κ) (context : Context κ) : Prop :=
  ∃ (instruction : Instruction κ) (before : Context κ) (realm after : Realm),
    behaviour.cast instruction.effect.code before realm = (.fork, context, after)

/-- The context was canceled for a child, in the state in which the instruction that asked for the fork had left it. -/
def LeftBehind (behaviour : Behaviour κ) (context : Context κ) : Prop :=
  ∃ (last : Context κ) (realm : Realm),
    last.AskedForFork behaviour ∧ context = (last.cancel behaviour .newContext realm).1

/-- What no observer changes is the same after the walk. -/
theorem walk_field
    {α : Type}
    {instructions : List (Instruction κ)}
    (field : Context κ → α)
    (kept : ∀ instruction ∈ instructions, ∀ observer, instruction.observer = some observer →
      ∀ told realm, field (behaviour.notify observer told realm).2.1 = field told)
    (state : Walk κ) :
    field (walk behaviour instructions state).context = field state.context := by
  have told : ∀ instruction ∈ instructions, ∀ observer, instruction.observer = some observer →
      ∀ told realm, field told = field state.context →
        field (behaviour.notify observer told realm).2.1 = field state.context :=
    fun instruction member observer observes told realm same =>
      (kept instruction member observer observes told realm).trans same
  exact walk_lasts told state rfl

theorem cancel_parent
    (keeps : behaviour.KeepsParent)
    (reason : CancelReason)
    (context : Context κ)
    (realm : Realm) :
    (context.cancel behaviour reason realm).1.parent = context.parent :=
  walk_field (·.parent) (fun _ _ observer _ => keeps.notify observer) _

theorem cancel_of_observersSpare
    (spare : context.ObserversSpare behaviour)
    (reason : CancelReason)
    (realm : Realm) :
    (context.cancel behaviour reason realm).1.canceled = true ∧
      (context.cancel behaviour reason realm).1.cancelReason = some reason := by
  have same := walk_field (fun context => (context.canceled, context.cancelReason)) spare
    { context := { context with canceled := true, cancelReason := some reason }, realm, told := 0, absorbed := false }
  exact ⟨congrArg Prod.fst same, congrArg Prod.snd same⟩

theorem makeChild_parent
    (behaviour : Behaviour κ)
    (context : Context κ)
    (self : ContextId)
    (realm : Realm) :
    (context.makeChild behaviour self realm).1.context.parent = some self := by
  unfold makeChild
  split
  · rfl
  · rfl

end Context

namespace Arena

variable {arena : Arena κ} {id other : ContextId} {context held : Context κ}

theorem parentOf_eq
    (live : arena.get? id = some context) :
    arena.parentOf id = context.parent := by
  rw [parentOf, live]
  rfl

/-- Exchanging a context for one with the same parent changes no parent. -/
theorem parentOf_set
    (live : arena.get? id = some held)
    (same : context.parent = held.parent)
    (other : ContextId) :
    (arena.set id context).parentOf other = arena.parentOf other := by
  by_cases exchanged : other = id
  · rw [exchanged, parentOf_eq (get?_set_self live), parentOf_eq live, same]
  · rw [parentOf, get?_set_of_ne exchanged, parentOf]

end Arena

namespace Owns

variable {arena : Arena κ} {cast other : InFlight} {casts : List InFlight} {id : ContextId}

theorem contexts_nodup
    (owns : Owns arena casts)
    (member : cast ∈ casts) :
    cast.contexts.Nodup :=
  (List.nodup_flatMap.mp owns.owned_nodup).1 cast member

/-- Only the last context of a cast can be active. -/
theorem dropLast_ne_active
    (owns : Owns arena casts)
    (member : cast ∈ casts)
    (otherMember : other ∈ casts)
    (listed : id ∈ cast.contexts.dropLast) :
    id ≠ other.active := by
  have active := (owns.coherent other otherMember).active
  rintro rfl
  by_cases same : other = cast
  · have distinct := owns.contexts_nodup member
    rw [same] at active listed
    rw [← List.dropLast_append_getLast? _ active] at distinct
    exact (List.nodup_append.mp distinct).2.2 _ listed _ (List.mem_singleton_self _) rfl
  · obtain ⟨earlier, later, split⟩ := List.append_of_mem member
    have first : Owns arena (cast :: (earlier ++ later)) := owns.reorder (split ▸ List.perm_middle)
    have elsewhere : other ∈ earlier ++ later := by
      have either : other ∈ cast :: (earlier ++ later) := List.perm_middle.mem_iff.mp (split ▸ otherMember)
      exact (List.mem_cons.mp either).resolve_left same
    exact first.disjoint elsewhere (List.mem_of_getLast? active) (List.mem_of_mem_dropLast listed)

end Owns

/-- The contexts of a cast are a chain of parents with growing numbers, the first of them has no parent, and all but
the active one were left behind. -/
structure InFlight.Descends (behaviour : Behaviour κ) (arena : Arena κ) (cast : InFlight) : Prop where
  chain : cast.contexts.IsChain fun older newer => older < newer ∧ arena.parentOf newer = some older
  root : ∃ id ∈ cast.contexts.head?, arena.parentOf id = none
  left : ∀ id ∈ cast.contexts.dropLast, ∃ context, arena.get? id = some context ∧ context.LeftBehind behaviour

namespace InFlight

variable {arena arena' : Arena κ} {cast cast' : InFlight} {id : ContextId}

theorem Coherent.split
    (coherent : cast.Coherent) :
    cast.contexts.dropLast ++ [cast.active] = cast.contexts :=
  List.dropLast_append_getLast? cast.active coherent.active

/-- A lineage does not depend on the state of the active context. -/
theorem Descends.alter
    (descends : cast.Descends behaviour arena)
    (contexts : cast'.contexts = cast.contexts)
    (parents : ∀ id ∈ cast.contexts, arena'.parentOf id = arena.parentOf id)
    (apart : ∀ id ∈ cast.contexts.dropLast, arena'.get? id = arena.get? id) :
    cast'.Descends behaviour arena' where
  chain := by
    rw [contexts]
    refine descends.chain.imp_of_mem_imp ?_
    intro older newer _ member link
    exact ⟨link.1, (parents newer member).trans link.2⟩
  root := by
    rw [contexts]
    obtain ⟨root, first, parentless⟩ := descends.root
    exact ⟨root, first, (parents root (List.mem_of_mem_head? first)).trans parentless⟩
  left id listed := by
    rw [contexts] at listed
    obtain ⟨context, live, left⟩ := descends.left id listed
    exact ⟨context, (apart id listed).trans live, left⟩

theorem Descends.of_same
    (descends : cast.Descends behaviour arena)
    (contexts : cast'.contexts = cast.contexts)
    (same : ∀ id ∈ cast.contexts, arena'.get? id = arena.get? id) :
    cast'.Descends behaviour arena' := by
  refine descends.alter contexts ?_ fun id listed => same id (List.mem_of_mem_dropLast listed)
  intro id listed
  rw [Arena.parentOf, same id listed, Arena.parentOf]

/-- A move into a child adds one link to the chain. -/
theorem Descends.moved
    {child : ContextId}
    {stored : Context κ}
    (descends : cast.Descends behaviour arena)
    (coherent : cast.Coherent)
    (new : ∀ id ∈ cast.contexts, id < child)
    (parents : ∀ id ∈ cast.contexts, arena'.parentOf id = arena.parentOf id)
    (apart : ∀ id ∈ cast.contexts.dropLast, arena'.get? id = arena.get? id)
    (parent : arena'.parentOf child = some cast.active)
    (live : arena'.get? cast.active = some stored)
    (left : stored.LeftBehind behaviour) :
    (cast.moved child).Descends behaviour arena' := by
  have before : cast.Descends behaviour arena' := descends.alter rfl parents apart
  constructor
  · refine before.chain.append (List.isChain_singleton child) ?_
    intro last isLast newest isNewest
    have active : last = cast.active := Option.some.inj (isLast.symm.trans coherent.active)
    have isChild : newest = child := by simpa using isNewest.symm
    rw [active, isChild]
    exact ⟨new _ coherent.active_mem, parent⟩
  · obtain ⟨root, first, parentless⟩ := before.root
    exact ⟨root, List.mem_head?_append_of_mem_head? first, parentless⟩
  · intro id listed
    have stays : id ∈ cast.contexts.dropLast ++ [cast.active] := by
      rw [coherent.split]
      simpa [InFlight.moved] using listed
    rcases List.mem_append.mp stays with earlier | last
    · exact before.left id earlier
    · rw [List.mem_singleton.mp last]
      exact ⟨stored, live, left⟩

/-- Following parents from the end of a chain leads back through the whole chain. -/
theorem follow_of_chain
    {contexts : List ContextId}
    (live : ∀ id ∈ contexts, arena.contains id = true)
    (chain : contexts.IsChain fun older newer => arena.parentOf newer = some older)
    (root : ∀ id ∈ contexts.head?, arena.parentOf id = none)
    (bound : Nat)
    (enough : contexts.length ≤ bound) :
    arena.follow bound contexts.getLast? = contexts.reverse := by
  -- from the end: the last context is the one that is followed first
  induction contexts using List.reverseRecOn generalizing bound with
  | nil =>
      cases bound with
      | zero => rfl
      | succ bound => rfl
  | append_singleton earlier last inductionHypothesis =>
      obtain ⟨bound, rfl⟩ : ∃ less, bound = less + 1 := by
        rw [List.length_append, List.length_singleton] at enough
        exact ⟨bound - 1, by omega⟩
      have lastLive : arena.contains last = true := live last (by simp)
      have parent : arena.parentOf last = earlier.getLast? := by
        cases found : earlier.getLast? with
        | none =>
            have alone : earlier = [] := List.getLast?_eq_none_iff.mp found
            exact root last (by simp [alone])
        | some newest =>
            exact (List.isChain_append.mp chain).2.2 newest found last rfl
      have earlierRoot : ∀ id ∈ earlier.head?, arena.parentOf id = none :=
        fun id first => root id (List.mem_head?_append_of_mem_head? first)
      have followed := inductionHypothesis (fun id member => live id (List.mem_append_left _ member))
        (List.isChain_append.mp chain).1 earlierRoot bound (by simpa using enough)
      rw [List.getLast?_concat, Arena.follow, if_pos lastLive, parent, followed, List.reverse_concat]

/-- The ancestors of the active context are the other contexts of the cast, the nearest first. -/
theorem Descends.ancestors_eq
    {casts : List InFlight}
    (descends : cast.Descends behaviour arena)
    (owns : Owns arena casts)
    (member : cast ∈ casts) :
    arena.ancestors cast.active = cast.contexts.dropLast.reverse := by
  have coherent := owns.coherent cast member
  have chain := descends.chain
  rw [← coherent.split] at chain
  obtain ⟨earlierChain, -, link⟩ := List.isChain_append.mp chain
  have live : ∀ id ∈ cast.contexts.dropLast, arena.contains id = true := by
    intro id listed
    obtain ⟨context, found⟩ := owns.live member (List.mem_of_mem_dropLast listed)
    rw [Arena.contains, found]
    rfl
  have root : ∀ id ∈ cast.contexts.dropLast.head?, arena.parentOf id = none := by
    intro id first
    obtain ⟨oldest, isOldest, parentless⟩ := descends.root
    have listed : id ∈ cast.contexts.head? := by
      rw [← coherent.split]
      exact List.mem_head?_append_of_mem_head? first
    rw [Option.some.inj (listed.symm.trans isOldest)]
    exact parentless
  have parent : arena.parentOf cast.active = cast.contexts.dropLast.getLast? := by
    cases found : cast.contexts.dropLast.getLast? with
    | none =>
        have alone : cast.contexts.dropLast = [] := List.getLast?_eq_none_iff.mp found
        obtain ⟨oldest, isOldest, parentless⟩ := descends.root
        have isActive : cast.active = oldest := by
          rw [← coherent.split, alone] at isOldest
          simpa using isOldest
        rw [isActive]
        exact parentless
    | some newest =>
        exact (link newest found cast.active rfl).2
  have enough : cast.contexts.dropLast.length ≤ arena.size := by
    have fewer :=
      (List.subperm_of_subset (owns.contexts_nodup member) fun id listed => owns.mem_ids member listed).length_le
    rw [Arena.ids, List.length_map] at fewer
    rw [List.length_dropLast, Arena.size]
    omega
  rw [Arena.ancestors, parent]
  exact follow_of_chain live (earlierChain.imp fun _ _ link => link.2) root _ enough

theorem Descends.depth_eq
    {casts : List InFlight}
    (descends : cast.Descends behaviour arena)
    (owns : Owns arena casts)
    (member : cast ∈ casts) :
    arena.depth cast.active = cast.forks := by
  have length := (owns.coherent cast member).length
  rw [Arena.depth, descends.ancestors_eq owns member, List.length_reverse, List.length_dropLast, length,
    Nat.add_sub_cancel]

end InFlight

namespace Turn

variable {turn : Turn κ} {context held : Context κ} {others : List InFlight}

def Descends (behaviour : Behaviour κ) (turn : Turn κ) : Prop := turn.cast.Descends behaviour turn.arena

theorem Descends.set
    {after : Turn κ}
    (descends : turn.Descends behaviour)
    (owns : Owns turn.arena (turn.cast :: others))
    (live : turn.arena.get? turn.cast.active = some held)
    (context : Context κ)
    (parent : context.parent = held.parent)
    (cast : after.cast = turn.cast)
    (arena : after.arena = turn.arena.set turn.cast.active context) :
    after.Descends behaviour := by
  rw [Turn.Descends, arena]
  refine InFlight.Descends.alter descends (by rw [cast]) (fun id _ => Arena.parentOf_set live parent id) ?_
  intro id listed
  exact Arena.get?_set_of_ne (owns.dropLast_ne_active List.mem_cons_self List.mem_cons_self listed)

theorem Descends.movedOn
    (keeps : behaviour.KeepsParent)
    (descends : turn.Descends behaviour)
    (owns : Owns turn.arena (turn.cast :: others))
    (live : turn.arena.get? turn.cast.active = some context)
    (asked : context.AskedForFork behaviour) :
    (turn.movedOn behaviour context).Descends behaviour := by
  have member : turn.cast ∈ turn.cast :: others := List.mem_cons_self
  have coherent := owns.coherent _ member
  have isNew : turn.cast.active ≠ turn.arena.nextId := known owns
  let stored := (turn.arena.insert (turn.madeChild behaviour context).1).2
  have stillLive : stored.get? turn.cast.active = some context := (Arena.get?_insert_of_ne isNew).trans live
  have older : ∀ id ∈ turn.cast.contexts, stored.get? id = turn.arena.get? id :=
    fun _ listed => Arena.get?_insert_of_ne (owns.ne_nextId member listed)
  have childParent : stored.parentOf turn.arena.nextId = some turn.cast.active := by
    rw [Arena.parentOf_eq Arena.get?_insert_self]
    exact Context.makeChild_parent behaviour context turn.cast.active turn.realm
  refine InFlight.Descends.moved descends coherent ?_ ?_ ?_ ?_ (Arena.get?_set_self stillLive)
    ⟨context, _, asked, rfl⟩
  · intro id listed
    exact owns.below id (owns.mem_ids member listed)
  · intro id listed
    rw [Turn.movedOn, Arena.parentOf_set stillLive (Context.cancel_parent keeps _ _ _), Arena.parentOf, older id listed,
      Arena.parentOf]
  · intro id listed
    have notActive := owns.dropLast_ne_active member member listed
    exact (Arena.get?_set_of_ne notActive).trans (older id (List.mem_of_mem_dropLast listed))
  · rw [Turn.movedOn, Arena.parentOf_set stillLive (Context.cancel_parent keeps _ _ _)]
    exact childParent

theorem Descends.step
    (keeps : behaviour.KeepsParent)
    (descends : turn.Descends behaviour)
    (owns : Owns turn.arena (turn.cast :: others)) :
    (turn.step behaviour maxForks).1.Descends behaviour := by
  obtain ⟨context, live⟩ := active_live owns
  have cases := step_cases behaviour maxForks live (known owns)
  generalize (turn.step behaviour maxForks).1 = after at cases ⊢
  generalize (turn.step behaviour maxForks).2 = goesOn at cases
  -- the effect of an instruction keeps the parent, and what else happens to the context does as well
  have ranParent {instruction : Instruction κ} {resolution : Resolution} {before next : Context κ} {realm : Realm}
      (runs : turn.Runs behaviour before instruction resolution next realm) : next.parent = before.parent := by
    have kept := keeps.cast instruction.effect.code before.stepped (turn.castingRealm behaviour instruction)
    rw [runs.cast] at kept
    exact kept
  cases cases with
  | exhausted _ _ =>
      exact descends
  | @proceed _ next _ _ runs =>
      exact descends.set owns runs.live next (ranParent runs) rfl rfl
  | @limit before next _ realm runs _ =>
      have ran : (turn.ran next realm).Descends behaviour :=
        descends.set owns runs.live next (ranParent runs) rfl rfl
      have ranOwns : Owns (turn.ran next realm).arena ((turn.ran next realm).cast :: others) := owns.set _ _
      exact ran.set ranOwns (ran_live runs.live) next.stopped rfl rfl rfl
  | @fork before next instruction realm runs _ =>
      have ran : (turn.ran next realm).Descends behaviour :=
        descends.set owns runs.live next (ranParent runs) rfl rfl
      have ranOwns : Owns (turn.ran next realm).arena ((turn.ran next realm).cast :: others) := owns.set _ _
      exact ran.movedOn keeps ranOwns (ran_live runs.live) ⟨instruction, _, _, _, runs.cast⟩

theorem descends_lasting (keeps : behaviour.KeepsParent) (maxForks : Nat) (others : List InFlight) :
    Lasting behaviour maxForks others (Turn.Descends behaviour) where
  announced _ descends := descends
  wake turn context owns live descends := by
    have cases := wake_cases turn context
    generalize (turn.wake context).1 = woken at cases ⊢
    generalize (turn.wake context).2 = waits at cases
    cases cases with
    | awake _ =>
        exact descends
    | @waits suspension _ _ _ =>
        exact descends.set owns live { context with suspension := some ⟨suspension.remaining - 1⟩ } rfl rfl rfl
    | resumes _ _ _ =>
        exact descends.set owns live { context with suspension := none } rfl rfl rfl
  step _ owns descends := descends.step keeps owns
  counted _ descends := InFlight.Descends.of_same descends rfl fun _ _ => rfl
  left _ descends := descends

end Turn

end Spellcast
