import Spellcast.Proofs.Duplication

/-!
# Where the walk over ancestors ends

Nothing bounds the walk from a context to its parent and on to the parent of that one, and contexts that are gone leave
links to them behind. `Reached` describes the arenas that come about by operations on an empty one. A context is stored
with the number of one that has been stored before it as its parent, if it has a parent at all, and no later operation
changes the link. So parents have smaller numbers than their children, and every walk ends.
-/

namespace Spellcast.Arena

variable {κ : Type} {behaviour : Behaviour κ} {arena after : Arena κ} {id : ContextId} {context : Context κ}
  {ids used : List ContextId} {realm : Realm}

/-- Something that can be done with an arena. Each fork may come upon other manipulators. -/
inductive Operation (κ : Type) where
  | insert (context : Context κ)
  | fork (behaviour : Behaviour κ) (id : ContextId) (realm : Realm)
  | duplicateLineage (id : ContextId) (realm : Realm)
  | remove (id : ContextId)
  | release (ids : List ContextId)
  /-- The context under a number is edited in its place. -/
  | edit (id : ContextId) (change : Context κ → Context κ)

def perform (arena : Arena κ) : Operation κ → Arena κ
  | .insert context => (arena.insert context).2
  | .fork behaviour id realm =>
    match arena.fork behaviour id realm with
    | some (_, later, _) => later
    | none => arena
  | .duplicateLineage id realm =>
    match arena.duplicateLineage id realm with
    | some (_, later, _) => later
    | none => arena
  | .remove id => arena.remove id
  | .release ids => arena.release ids
  | .edit id change =>
    match arena.get? id with
    | some context => arena.set id (change context)
    | none => arena

/-- A context that is stored has no parent or one that has been stored before, and an edit leaves the parent alone. A
manipulator may propose a child with any parent. -/
def Operation.Allowed (used : List ContextId) : Operation κ → Prop
  | .insert context => ∀ parent ∈ context.parent, parent ∈ used
  | .edit _ change => ∀ context, (change context).parent = context.parent
  | _ => True

/-- An empty arena has become this one, and these are the numbers that contexts have been stored under meanwhile, also
of contexts that are gone. -/
inductive Reached : Arena κ → List ContextId → Prop
  | empty (maxDepth : Nat) : Reached (withDepth maxDepth) []
  | perform {arena : Arena κ} {used : List ContextId} (reached : Reached arena used) (operation : Operation κ)
      (allowed : operation.Allowed used) :
      Reached (arena.perform operation) ((arena.perform operation).ids ++ used)

theorem Operation.Allowed.mono
    {operation : Operation κ}
    (allowed : operation.Allowed used)
    (more : List ContextId) :
    operation.Allowed (more ++ used) := by
  cases operation with
  | insert context => exact fun parent isParent => List.mem_append_right more (allowed parent isParent)
  | edit id change => exact allowed
  | fork _ _ _ | duplicateLineage _ _ | remove _ | release _ => trivial

/-- Operations that are allowed from the start can be performed one after the other. -/
theorem Reached.foldl
    {operations : List (Operation κ)}
    (reached : Reached arena used)
    (allowed : ∀ operation ∈ operations, operation.Allowed used) :
    ∃ used', Reached (operations.foldl Arena.perform arena) used' := by
  induction operations generalizing arena used with
  | nil => exact ⟨used, reached⟩
  | cons first rest inductionHypothesis =>
      apply inductionHypothesis (reached.perform first (allowed first List.mem_cons_self))
      exact fun operation member => (allowed operation (List.mem_cons_of_mem _ member)).mono _

theorem remove_eq_release : arena.remove id = arena.release [id] := by
  have same : (fun entry : ContextId × Context κ => entry.1 != id) = fun entry => !([id].contains entry.1) := by
    funext entry
    simp [bne, beq_eq_decide]
  rw [remove, release, same]

theorem Descending.release
    (descending : arena.Descending)
    (ids : List ContextId) :
    (arena.release ids).Descending := by
  intro id member parent isParent
  rw [ids_release, List.mem_filter] at member
  have stays : id ∉ ids := by
    simpa using member.2
  rw [parentOf, get?_release_of_notMem stays] at isParent
  exact descending.parent_lt isParent

theorem Descending.set
    {held : Context κ}
    (descending : arena.Descending)
    (live : arena.get? id = some held)
    (same : context.parent = held.parent) :
    (arena.set id context).Descending := by
  intro other member parent isParent
  rw [parentOf_set live same] at isParent
  exact descending.parent_lt isParent

theorem nextId_le_copyChain
    (parent : Option ContextId)
    (originals : List ContextId) :
    arena.nextId ≤ (arena.copyChain parent originals).2.nextId := by
  induction originals with
  | nil => exact Nat.le_refl _
  | cons id older inductionHypothesis =>
      simp only [copyChain]
      split
      · exact inductionHypothesis
      · exact Nat.le_succ_of_le inductionHypothesis

theorem nextId_le_duplicateLineage
    {copy : ContextId}
    {realm' : Realm}
    (duplicated : arena.duplicateLineage id realm = some (copy, after, realm')) :
    arena.nextId ≤ after.nextId := by
  simp only [duplicateLineage] at duplicated
  split at duplicated
  · split at duplicated
    · next chain =>
      obtain ⟨-, rfl, -⟩ := duplicated
      have grows : arena.nextId ≤ (some copy, after).2.nextId := by
        rw [← chain]
        exact nextId_le_copyChain _ _
      exact grows
    · cases duplicated
  · cases duplicated

/-- Parents have smaller numbers than their children, and all numbers that were ever in use have been given out. -/
structure Ordered (arena : Arena κ) (used : List ContextId) : Prop where
  numbered : arena.Numbered
  descending : arena.Descending
  given : ∀ id ∈ used, id < arena.nextId

theorem Ordered.later
    (ordered : arena.Ordered used)
    (numbered : after.Numbered)
    (descending : after.Descending)
    (grows : arena.nextId ≤ after.nextId) :
    after.Ordered (after.ids ++ used) where
  numbered := numbered
  descending := descending
  given id member := by
    rcases List.mem_append.mp member with present | past
    · exact numbered.below id present
    · exact Nat.lt_of_lt_of_le (ordered.given id past) grows

theorem Ordered.insert
    (ordered : arena.Ordered used)
    (below : ∀ parent ∈ context.parent, parent < arena.nextId) :
    (arena.insert context).2.Ordered ((arena.insert context).2.ids ++ used) :=
  ordered.later (ordered.numbered.insert context) (ordered.descending.insert below) (Nat.le_succ _)

theorem Ordered.fork
    (ordered : arena.Ordered used)
    (behaviour : Behaviour κ)
    (id : ContextId)
    (realm : Realm) :
    (arena.perform (.fork behaviour id realm)).Ordered ((arena.perform (.fork behaviour id realm)).ids ++ used) := by
  rcases live : arena.get? id with _ | context
  · have nothing : arena.fork behaviour id realm = none := by simp [Arena.fork, live]
    simp only [perform, nothing]
    exact ordered.later ordered.numbered ordered.descending (Nat.le_refl _)
  · simp only [perform, fork_eq behaviour live]
    apply ordered.insert
    -- whatever the proposal says, the parent is the context that is forked
    rw [Context.makeChild_parent]
    rintro _ ⟨⟩
    exact ordered.numbered.below id (mem_ids_iff.mpr ⟨context, live⟩)

theorem Ordered.duplicateLineage
    (ordered : arena.Ordered used)
    (id : ContextId)
    (realm : Realm) :
    (arena.perform (.duplicateLineage id realm)).Ordered
      ((arena.perform (.duplicateLineage id realm)).ids ++ used) := by
  by_cases live : id ∈ arena.ids
  · obtain ⟨copy, fresh, later, -, answer, copied⟩ :=
      duplicateLineage_copied ordered.numbered ordered.descending live realm
    simp only [perform, answer]
    exact ordered.later copied.numbered copied.descending (nextId_le_duplicateLineage answer)
  · have absent : arena.contains id = false := by rwa [← Bool.not_eq_true, contains_iff]
    have nothing : arena.duplicateLineage id realm = none := by simp [Arena.duplicateLineage, absent]
    simp only [perform, nothing]
    exact ordered.later ordered.numbered ordered.descending (Nat.le_refl _)

theorem Ordered.edit
    (ordered : arena.Ordered used)
    (id : ContextId)
    {change : Context κ → Context κ}
    (keeps : ∀ context, (change context).parent = context.parent) :
    (arena.perform (.edit id change)).Ordered ((arena.perform (.edit id change)).ids ++ used) := by
  rcases live : arena.get? id with _ | context
  · simp only [perform, live]
    exact ordered.later ordered.numbered ordered.descending (Nat.le_refl _)
  · simp only [perform, live]
    exact ordered.later (ordered.numbered.set id _) (ordered.descending.set live (keeps context)) (Nat.le_refl _)

theorem Ordered.release
    (ordered : arena.Ordered used)
    (ids : List ContextId) :
    (arena.release ids).Ordered ((arena.release ids).ids ++ used) :=
  ordered.later (ordered.numbered.release ids) (ordered.descending.release ids) (Nat.le_refl _)

theorem Ordered.perform
    {operation : Operation κ}
    (ordered : arena.Ordered used)
    (allowed : operation.Allowed used) :
    (arena.perform operation).Ordered ((arena.perform operation).ids ++ used) := by
  cases operation with
  | insert context => exact ordered.insert fun parent isParent => ordered.given parent (allowed parent isParent)
  | fork behaviour id realm => exact ordered.fork behaviour id realm
  | duplicateLineage id realm => exact ordered.duplicateLineage id realm
  | remove id =>
      simp only [Arena.perform, remove_eq_release]
      exact ordered.release [id]
  | release ids => exact ordered.release ids
  | edit id change => exact ordered.edit id allowed

theorem Reached.ordered
    (reached : Reached arena used) :
    arena.Ordered used := by
  induction reached with
  | empty maxDepth =>
      exact ⟨numbered_withDepth maxDepth, fun _ nothing => absurd nothing List.not_mem_nil,
        fun _ nothing => absurd nothing List.not_mem_nil⟩
  | perform _ operation allowed inductionHypothesis => exact inductionHypothesis.perform allowed

/-- The numbers from a context up to its oldest ancestor, each the parent of the one before it. -/
theorem Leads.isChain_cons
    (leads : arena.Leads (arena.parentOf id) ids) :
    (id :: ids).IsChain fun child parent => arena.parentOf child = some parent :=
  List.isChain_cons.mpr ⟨leads.start_eq, leads.isChain⟩

/-- The walk ends at a context that has no parent, or whose parent is gone. -/
theorem Leads.ends
    (leads : arena.Leads (arena.parentOf id) ids) :
    ∀ parent ∈ arena.parentOf ((id :: ids).getLast (List.cons_ne_nil _ _)), arena.contains parent = false := by
  induction ids generalizing id with
  | nil =>
      intro parent isParent
      rw [List.getLast_singleton] at isParent
      rw [isParent] at leads
      cases leads with
      | gone gone => exact gone
  | cons first others inductionHypothesis =>
      rw [List.getLast_cons (List.cons_ne_nil _ _)]
      have isParent : arena.parentOf id = some first := leads.start_eq first rfl
      rw [isParent] at leads
      cases leads with
      | live live next => exact inductionHypothesis next

/-- A fork adds one ancestor: the child has that of its parent, and the parent itself as the nearest. -/
theorem Ordered.ancestors_fork
    (ordered : arena.Ordered used)
    (behaviour : Behaviour κ)
    (realm : Realm)
    (live : arena.contains id = true) :
    ∃ fork after realm', arena.fork behaviour id realm = some (fork, after, realm') ∧
      after.ancestors id = arena.ancestors id ∧ after.ancestors fork.child = id :: after.ancestors id := by
  obtain ⟨context, present⟩ := mem_ids_iff.mp (contains_iff.mp live)
  have old : id ≠ arena.nextId := Nat.ne_of_lt (ordered.numbered.below id (contains_iff.mp live))
  have next := (ordered.fork behaviour id realm).descending
  simp only [Arena.perform, fork_eq behaviour present] at next
  refine ⟨_, _, _, fork_eq behaviour present realm, ?_⟩
  generalize made : (context.makeChild behaviour id realm).1.context = child at next ⊢
  have parent : child.parent = some id := made ▸ Context.makeChild_parent behaviour context id realm
  have leads : (arena.insert child).2.Leads ((arena.insert child).2.parentOf id) (arena.ancestors id) := by
    rw [parentOf_insert_of_ne old]
    exact (ordered.descending.leads_ancestors id).insert ordered.descending
      (ordered.descending.parent_lt_nextId ordered.numbered id)
  have same : (arena.insert child).2.ancestors id = arena.ancestors id := leads.ancestors_eq next
  refine ⟨same, Leads.ancestors_eq next ?_⟩
  rw [parentOf_insert_self, parent, same]
  apply Leads.live
  · rw [contains_insert_of_ne old]
    exact live
  · exact leads

/-- In an arena that operations have made out of an empty one, each parent has a smaller number than its child, whether
it is still there or not. So from every number the walk over parents comes to an end by itself, and no bound of it
matters that leaves room for what it finds. It leads from each context to its parent, through contexts that are there,
each with a smaller number than the one before, and ends exactly where there is no parent or the parent is gone. A
context that is there can be forked, and right after that its child is one deeper than itself. -/
theorem ancestorWalksEnd
    (reached : Reached arena used) :
    (∀ id parent, arena.parentOf id = some parent → parent < id) ∧
    ∀ id,
      let ancestors := arena.ancestors id
      arena.Leads (arena.parentOf id) ancestors ∧
      (∀ bound, ancestors.length ≤ bound → arena.follow bound (arena.parentOf id) = ancestors) ∧
      (id :: ancestors).IsChain (fun child parent => arena.parentOf child = some parent) ∧
      (id :: ancestors).Pairwise (fun younger older => younger > older) ∧
      (id :: ancestors).Nodup ∧
      (∀ ancestor ∈ ancestors, arena.contains ancestor = true) ∧
      (∀ parent ∈ arena.parentOf ((id :: ancestors).getLast (List.cons_ne_nil _ _)),
        arena.contains parent = false) ∧
      ∀ behaviour realm, arena.contains id = true →
        ∃ fork after realm', arena.fork behaviour id realm = some (fork, after, realm') ∧
          after.ancestors fork.child = id :: ancestors ∧ after.depth fork.child = after.depth id + 1 := by
  have ordered := reached.ordered
  refine ⟨fun id parent => ordered.descending.parent_lt, fun id => ?_⟩
  intro ancestors
  have leads : arena.Leads (arena.parentOf id) ancestors := ordered.descending.leads_ancestors id
  have decreasing : (id :: ancestors).Pairwise (fun younger older => younger > older) :=
    List.isChain_iff_pairwise.mp (leads.isChain_cons.imp fun _ _ => ordered.descending.parent_lt)
  refine ⟨leads, fun bound enough => leads.follow enough, leads.isChain_cons, decreasing,
    decreasing.imp fun greater => Nat.ne_of_gt greater, fun ancestor member => contains_iff.mpr (leads.subset member),
    leads.ends, ?_⟩
  intro behaviour realm live
  obtain ⟨fork, after, realm', forked, same, lineage⟩ := ordered.ancestors_fork behaviour realm live
  refine ⟨fork, after, realm', forked, ?_, ?_⟩
  · rw [lineage, same]
  · rw [depth, lineage, List.length_cons, depth]

/-- A manipulator proposes children with a parent that does not exist, of four contexts the two oldest are let go, and
the lineage of the youngest is duplicated. The walk from the copy ends at the other copy, whose parent is gone. -/
theorem ancestorWalksEnd_pastReleased :
    let behaviour : Behaviour Unit :=
      { Behaviour.inert Unit with
        wantsPush := fun _ _ realm => (true, realm)
        propose := fun _ context realm => (some { context with parent := some 9 }, realm) }
    let proposing : Instruction Unit :=
      { Instruction.plain Glyph.marksId ⟨0, ()⟩ with manipulator := some () }
    let operations : List (Operation Unit) :=
      [.insert (Context.ofProgram (.ofInstructions [proposing])), .fork behaviour 0 .empty, .fork behaviour 1 .empty,
        .fork behaviour 2 .empty, .release [1], .remove 0, .duplicateLineage 3 .empty,
        .edit 5 fun context => { context with counter := 7 }]
    let arena := operations.foldl perform (withDepth 2)
    (∃ used, Reached arena used) ∧ arena.ancestors 5 = [4] ∧ arena.parentOf 4 = some 1 ∧
      arena.Leads (arena.parentOf 5) [4] ∧ arena.contains 1 = false ∧
      ∃ fork after realm', arena.fork behaviour 5 .empty = some (fork, after, realm') ∧
        after.ancestors fork.child = [5, 4] ∧ after.depth fork.child = after.depth 5 + 1 := by
  intro behaviour proposing operations arena
  have allowed : ∀ operation ∈ operations, operation.Allowed [] := by
    simp [operations, Operation.Allowed, Context.ofProgram]
  have reached : ∃ used, Reached arena used := (Reached.empty 2).foldl allowed
  have lineage : arena.ancestors 5 = [4] := by decide +kernel +zetaReduce
  have dangling : arena.parentOf 4 = some 1 := by decide +kernel +zetaReduce
  have live : arena.contains 5 = true := by decide +kernel +zetaReduce
  obtain ⟨used, history⟩ := reached
  obtain ⟨leads, -, -, -, -, -, ends, forks⟩ := (ancestorWalksEnd history).2 5
  rw [lineage] at leads
  refine ⟨⟨used, history⟩, lineage, dangling, leads, ?_, ?_⟩
  · apply ends
    simp only [lineage]
    exact dangling
  · simpa only [lineage] using forks behaviour .empty live

end Spellcast.Arena
