import Mathlib.Data.List.Perm.Subperm
import Spellcast.Proofs.Lineage
import Spellcast.Session.Part

/-!
# Copies of a lineage

The ancestors of a context are what one parent after the other leads to. `Leads` says this without a bound, and in an
arena whose parents have smaller numbers than their children the bound of `ancestors` is never met. A duplicated lineage
is stored from its oldest context on, each copy linked to the one stored before it: `Copied` says of the arena with the
copies stored so far how they are linked and what they are copies of, and it is kept by each further copy.
-/

namespace Spellcast.Arena

variable {κ : Type} {arena later : Arena κ} {id : ContextId} {context : Context κ} {start parent : Option ContextId}
  {ids rest older copies : List ContextId}

/-- Each parent has a smaller number than its children, also a parent that is no longer in the arena. -/
def Descending (arena : Arena κ) : Prop :=
  ∀ id ∈ arena.ids, ∀ parent ∈ arena.parentOf id, parent < id

instance (arena : Arena κ) : Decidable arena.Descending :=
  inferInstanceAs (Decidable (∀ id ∈ arena.ids, ∀ parent ∈ arena.parentOf id, parent < id))

/-- One parent after the other leads to these numbers, up to a context without a parent or to one that is gone. -/
inductive Leads (arena : Arena κ) : Option ContextId → List ContextId → Prop
  | root : Leads arena none []
  | gone {id : ContextId} (gone : arena.contains id = false) : Leads arena (some id) []
  | live {id : ContextId} {ids : List ContextId} (live : arena.contains id = true)
      (next : Leads arena (arena.parentOf id) ids) : Leads arena (some id) (id :: ids)

theorem Descending.parent_lt
    (descending : arena.Descending)
    {parent : ContextId}
    (isParent : arena.parentOf id = some parent) :
    parent < id := by
  obtain ⟨context, live, -⟩ := Option.bind_eq_some_iff.mp isParent
  exact descending id (mem_ids_iff.mpr ⟨context, live⟩) parent isParent

theorem Descending.parent_lt_nextId
    (descending : arena.Descending)
    (numbered : arena.Numbered)
    (id : ContextId) :
    ∀ parent ∈ arena.parentOf id, parent < arena.nextId := by
  intro parent isParent
  obtain ⟨context, live, -⟩ := Option.bind_eq_some_iff.mp isParent
  have idLt : id < arena.nextId := numbered.below id (mem_ids_iff.mpr ⟨context, live⟩)
  exact Nat.lt_trans (descending.parent_lt isParent) idLt

/-- The bound is of no matter as long as it is large enough. -/
theorem Leads.follow
    (leads : arena.Leads start ids)
    {bound : Nat}
    (enough : ids.length ≤ bound) :
    arena.follow bound start = ids := by
  induction leads generalizing bound with
  | root =>
      cases bound with
      | zero => rfl
      | succ bound => rfl
  | gone gone =>
      cases bound with
      | zero => rfl
      | succ bound => simp [Arena.follow, gone]
  | live live next inductionHypothesis =>
      cases bound with
      | zero => exact absurd enough (Nat.not_succ_le_zero _)
      | succ bound => simp [Arena.follow, live, inductionHypothesis (Nat.le_of_succ_le_succ enough)]

theorem Descending.exists_leads
    (descending : arena.Descending)
    (start : Option ContextId) :
    ∃ ids, arena.Leads start ids := by
  cases start with
  | none => exact ⟨[], .root⟩
  | some id =>
      induction id using Nat.strong_induction_on with
      | _ id inductionHypothesis =>
          cases live : arena.contains id with
          | false => exact ⟨[], .gone live⟩
          | true =>
              cases isParent : arena.parentOf id with
              | none =>
                  refine ⟨[id], .live live ?_⟩
                  rw [isParent]
                  exact .root
              | some parent =>
                  obtain ⟨ids, leads⟩ := inductionHypothesis parent (descending.parent_lt isParent)
                  refine ⟨id :: ids, .live live ?_⟩
                  rw [isParent]
                  exact leads

theorem Leads.subset
    (leads : arena.Leads start ids) :
    ids ⊆ arena.ids := by
  induction leads with
  | root => exact List.nil_subset _
  | gone => exact List.nil_subset _
  | live live next inductionHypothesis => exact List.cons_subset.mpr ⟨contains_iff.mp live, inductionHypothesis⟩

theorem Leads.start_eq
    (leads : arena.Leads start ids) :
    ∀ first ∈ ids.head?, start = some first := by
  intro first isFirst
  cases leads with
  | root => cases isFirst
  | gone => cases isFirst
  | live live next => exact isFirst

theorem Leads.isChain
    (leads : arena.Leads start ids) :
    ids.IsChain fun child parent => arena.parentOf child = some parent := by
  induction leads with
  | root => exact .nil
  | gone => exact .nil
  | live live next inductionHypothesis => exact List.isChain_cons.mpr ⟨next.start_eq, inductionHypothesis⟩

theorem Leads.nodup
    (descending : arena.Descending)
    (leads : arena.Leads start ids) :
    ids.Nodup := by
  have decreasing : ids.IsChain (fun later earlier : Nat => later > earlier) :=
    leads.isChain.imp fun _ _ => descending.parent_lt
  exact (List.isChain_iff_pairwise.mp decreasing).imp fun greater => Nat.ne_of_gt greater

/-- There are no more ancestors than contexts, so they are all that one parent after the other leads to. -/
theorem Leads.ancestors_eq
    (descending : arena.Descending)
    (leads : arena.Leads (arena.parentOf id) ids) :
    arena.ancestors id = ids := by
  have fits : ids.length ≤ arena.ids.length :=
    ((leads.nodup descending).subperm leads.subset).length_le
  apply leads.follow
  rwa [Arena.ids, List.length_map] at fits

theorem Descending.leads_ancestors
    (descending : arena.Descending)
    (id : ContextId) :
    arena.Leads (arena.parentOf id) (arena.ancestors id) := by
  obtain ⟨ids, leads⟩ := descending.exists_leads (arena.parentOf id)
  rw [leads.ancestors_eq descending]
  exact leads

/-- The parent of the last of the first so many ancestors leads to the others. -/
theorem Leads.drop
    (leads : arena.Leads (arena.parentOf id) ids)
    (count : Nat) :
    arena.Leads (arena.parentOf ((ids.take count).getLast?.getD id)) (ids.drop count) := by
  induction count generalizing id ids with
  | zero => exact leads
  | succ count inductionHypothesis =>
      cases ids with
      | nil => exact leads
      | cons first others =>
          cases isParent : arena.parentOf id with
          | none =>
              rw [isParent] at leads
              cases leads
          | some parent =>
              rw [isParent] at leads
              cases leads with
              | live live next =>
                  rw [List.take_succ_cons, List.getLast?_cons, Option.getD_some]
                  exact inductionHypothesis next

theorem parentOf_insert_self : (arena.insert context).2.parentOf arena.nextId = context.parent :=
  parentOf_eq get?_insert_self

theorem parentOf_insert_of_ne
    (different : id ≠ arena.nextId) :
    (arena.insert context).2.parentOf id = arena.parentOf id := by
  rw [parentOf, get?_insert_of_ne different, parentOf]

theorem contains_insert_of_ne
    (different : id ≠ arena.nextId) :
    (arena.insert context).2.contains id = arena.contains id := by
  rw [contains, get?_insert_of_ne different, contains]

theorem Descending.insert
    (descending : arena.Descending)
    (below : ∀ parent ∈ context.parent, parent < arena.nextId) :
    (arena.insert context).2.Descending := by
  intro id member parent isParent
  by_cases new : id = arena.nextId
  · rw [new, parentOf_insert_self] at isParent
    rw [new]
    exact below parent isParent
  · rw [parentOf_insert_of_ne new] at isParent
    exact descending.parent_lt isParent

theorem Leads.insert
    (descending : arena.Descending)
    (leads : arena.Leads start ids) :
    (∀ id ∈ start, id < arena.nextId) → (arena.insert context).2.Leads start ids := by
  induction leads with
  | root => exact fun _ => .root
  | gone gone =>
      intro below
      apply Leads.gone
      rw [contains_insert_of_ne (Nat.ne_of_lt (below _ rfl))]
      exact gone
  | @live id ids live next inductionHypothesis =>
      intro below
      have old : id < arena.nextId := below id rfl
      apply Leads.live
      · rw [contains_insert_of_ne (Nat.ne_of_lt old)]
        exact live
      · rw [parentOf_insert_of_ne (Nat.ne_of_lt old)]
        apply inductionHypothesis
        intro parent isParent
        exact Nat.lt_trans (descending.parent_lt isParent) old

def unlinked (arena : Arena κ) (id : ContextId) : Option (Context κ) :=
  (arena.get? id).map fun context => { context with parent := none }

/-- Copies of some contexts have been stored, that of the last one first. Each has the copy stored before it as its
parent, and the first that was stored has the given one; apart from that they are what they are copies of. -/
structure Copied (arena : Arena κ) (parent : Option ContextId) (originals copies : List ContextId)
    (later : Arena κ) : Prop where
  numbered : later.Numbered
  descending : later.Descending
  maxDepth : later.maxDepth = arena.maxDepth
  ids : later.ids = copies ++ arena.ids
  kept : ∀ id, id ∉ copies → later.get? id = arena.get? id
  alike : copies.map later.unlinked = originals.map arena.unlinked
  linked : copies.map later.parentOf = (copies.map some ++ [parent]).tail
  leads : ∀ rest, arena.Leads parent rest → later.Leads parent rest

theorem Copied.nil
    (numbered : arena.Numbered)
    (descending : arena.Descending) :
    Copied arena parent [] [] arena where
  numbered := numbered
  descending := descending
  maxDepth := rfl
  ids := rfl
  kept _ _ := rfl
  alike := rfl
  linked := rfl
  leads _ leads := leads

theorem Copied.lt_nextId
    (copied : Copied arena parent older copies later) :
    ∀ copy ∈ copies, copy < later.nextId := by
  intro copy member
  apply copied.numbered.below
  rw [copied.ids]
  exact List.mem_append_left _ member

/-- The parent of the next copy is a number that has been given out. -/
theorem Copied.parent_lt_nextId
    (copied : Copied arena parent older copies later)
    (below : ∀ id ∈ parent, id < later.nextId) :
    ∀ id ∈ copies.head?.or parent, id < later.nextId := by
  cases copies with
  | nil => exact below
  | cons copy others =>
      intro id isCopy
      rw [← Option.some.inj isCopy]
      exact copied.lt_nextId copy List.mem_cons_self

theorem Copied.insert
    (copied : Copied arena parent older copies later)
    (below : ∀ id ∈ parent, id < later.nextId)
    (live : arena.get? id = some context) :
    Copied arena parent (id :: older) (later.nextId :: copies)
      (later.insert { context with parent := copies.head?.or parent }).2 where
  numbered := copied.numbered.insert _
  descending := copied.descending.insert (copied.parent_lt_nextId below)
  maxDepth := copied.maxDepth
  ids := by
    rw [ids_insert, copied.ids, List.cons_append]
  kept other notCopy := by
    rw [List.mem_cons, not_or] at notCopy
    rw [get?_insert_of_ne notCopy.1]
    exact copied.kept other notCopy.2
  alike := by
    have others : copies.map (later.insert { context with parent := copies.head?.or parent }).2.unlinked =
        copies.map later.unlinked := by
      apply List.map_congr_left
      intro copy member
      rw [unlinked, get?_insert_of_ne (Nat.ne_of_lt (copied.lt_nextId copy member)), unlinked]
    rw [List.map_cons, List.map_cons, others, copied.alike, unlinked, get?_insert_self, unlinked, live]
    rfl
  linked := by
    have others : copies.map (later.insert { context with parent := copies.head?.or parent }).2.parentOf =
        copies.map later.parentOf := by
      apply List.map_congr_left
      intro copy member
      exact parentOf_insert_of_ne (Nat.ne_of_lt (copied.lt_nextId copy member))
    rw [List.map_cons, others, copied.linked, parentOf_insert_self]
    cases copies with
    | nil => rfl
    | cons copy others => rfl
  leads rest leads := (copied.leads rest leads).insert copied.descending below

theorem Copied.get?_old
    (copied : Copied arena parent older copies later)
    (old : id ∈ arena.ids) :
    later.get? id = arena.get? id := by
  apply copied.kept
  intro isCopy
  have nodup : (copies ++ arena.ids).Nodup := by
    rw [← copied.ids]
    exact copied.numbered.nodup
  exact (List.nodup_append.mp nodup).2.2 id isCopy id old rfl

/-- Contexts that are all there can be copied, and the parent of a further copy is the copy of the first of them. -/
theorem copyChain_copied
    (numbered : arena.Numbered)
    (descending : arena.Descending)
    (below : ∀ id ∈ parent, id < arena.nextId)
    {originals : List ContextId}
    (live : ∀ id ∈ originals, id ∈ arena.ids) :
    ∃ copies, copies.length = originals.length ∧
      (arena.copyChain parent originals).1 = copies.head?.or parent ∧
      arena.nextId ≤ (arena.copyChain parent originals).2.nextId ∧
      Copied arena parent originals copies (arena.copyChain parent originals).2 := by
  induction originals with
  | nil => exact ⟨[], rfl, rfl, Nat.le_refl _, .nil numbered descending⟩
  | cons id older inductionHypothesis =>
      obtain ⟨copies, count, linked, grows, copied⟩ :=
        inductionHypothesis fun id member => live id (List.mem_cons_of_mem _ member)
      obtain ⟨context, present⟩ := mem_ids_iff.mp (live id List.mem_cons_self)
      have stillPresent : (arena.copyChain parent older).2.get? id = some context := by
        rw [copied.get?_old (live id List.mem_cons_self)]
        exact present
      have stored : arena.copyChain parent (id :: older) =
          (some (arena.copyChain parent older).2.nextId,
            ((arena.copyChain parent older).2.insert { context with parent := copies.head?.or parent }).2) := by
        rw [copyChain, ← linked]
        simp only [stillPresent]
        rfl
      rw [stored]
      refine ⟨_ :: copies, congrArg (· + 1) count, rfl, Nat.le_succ_of_le grows, copied.insert ?_ present⟩
      intro id isParent
      exact Nat.lt_of_lt_of_le (below id isParent) grows

/-- Links from one context to the next lead to all of them, and then to where the last one leads. -/
theorem Leads.linked
    (linked : copies.map arena.parentOf = (copies.map some ++ [parent]).tail)
    (live : ∀ copy ∈ copies, copy ∈ arena.ids)
    (leads : arena.Leads parent rest) :
    arena.Leads (copies.head?.or parent) (copies ++ rest) := by
  induction copies with
  | nil => exact leads
  | cons copy others inductionHypothesis =>
      rw [List.map_cons, List.map_cons, List.cons_append, List.tail_cons] at linked
      apply Leads.live
      · exact contains_iff.mpr (live copy List.mem_cons_self)
      · have next : arena.parentOf copy = others.head?.or parent ∧
            others.map arena.parentOf = (others.map some ++ [parent]).tail := by
          cases others with
          | nil => exact ⟨(List.cons.inj linked).1, rfl⟩
          | cons other others => exact List.cons.inj linked
        rw [next.1]
        exact inductionHypothesis next.2 fun other member => live other (List.mem_cons_of_mem _ member)

/-- The lineage of a context that is there is duplicated by copying the context and its nearest ancestors. -/
theorem duplicateLineage_copied
    (numbered : arena.Numbered)
    (descending : arena.Descending)
    (live : id ∈ arena.ids)
    (realm : Realm) :
    let copied := (arena.ancestors id).take arena.maxDepth
    ∃ copy fresh later, fresh.length = copied.length ∧
      arena.duplicateLineage id realm = some (copy, later, realm.emit (.lineageDuplicated id copy (copied.length + 1)
        (decide (arena.maxDepth < (arena.ancestors id).length)))) ∧
      Copied arena (arena.parentOf (copied.getLast?.getD id)) (id :: copied) (copy :: fresh) later := by
  intro copied
  have present : ∀ original ∈ id :: copied, original ∈ arena.ids := by
    intro original member
    rcases List.mem_cons.mp member with self | ancestor
    · rw [self]
      exact live
    · exact (descending.leads_ancestors id).subset (List.mem_of_mem_take ancestor)
  obtain ⟨copies, count, answer, -, made⟩ :=
    copyChain_copied numbered descending (descending.parent_lt_nextId numbered _) present
  cases copies with
  | nil => cases count
  | cons copy fresh =>
      refine ⟨copy, fresh, _, Nat.succ.inj count, ?_, made⟩
      simp only [duplicateLineage, contains_iff.mpr live, if_true]
      rcases chain : arena.copyChain (arena.parentOf (copied.getLast?.getD id)) (id :: copied) with ⟨linked, later⟩
      rw [chain] at answer made
      have limit : later.maxDepth = arena.maxDepth := made.maxDepth
      rw [show linked = some copy from answer]
      simp only [limit]
      rfl

/-- A lineage can be duplicated if and only if its context is there. As many of the nearest ancestors as the arena
allows are copied with it, into contexts with new numbers; the copies are their originals except for the parents, and all
else is as it was. The parent of each copy is the copy of the next ancestor, and that of the oldest copy is the parent of
its original, even if that is gone. So the ancestors of the copy are the other copies and then the ancestors that were
not copied. -/
theorem lineagesAreDuplicated
    (numbered : arena.Numbered)
    (descending : arena.Descending)
    (id : ContextId)
    (realm : Realm) :
    (arena.duplicateLineage id realm = none ↔ arena.contains id = false) ∧
    (arena.contains id = true →
      let ancestors := arena.ancestors id
      let copied := min arena.maxDepth ancestors.length
      let originals := id :: ancestors.take copied
      ∃ copy fresh later,
        arena.duplicateLineage id realm = some (copy, later, realm.emit
          (.lineageDuplicated id copy (copied + 1) (decide (arena.maxDepth < ancestors.length)))) ∧
        fresh.length = copied ∧
        later.Numbered ∧ later.Descending ∧ later.ids = copy :: fresh ++ arena.ids ∧
        (∀ other, other ∉ copy :: fresh → later.get? other = arena.get? other) ∧
        (copy :: fresh).map later.unlinked = originals.map arena.unlinked ∧
        (copy :: fresh).map later.parentOf =
          fresh.map some ++ [arena.parentOf (originals.getLast (List.cons_ne_nil _ _))] ∧
        later.ancestors copy = fresh ++ ancestors.drop copied ∧
        later.depth copy = arena.depth id) := by
  have duplicated (live : id ∈ arena.ids) := duplicateLineage_copied numbered descending live realm
  refine ⟨?_, ?_⟩
  · cases live : arena.contains id with
    | false => simp [duplicateLineage, live]
    | true =>
        obtain ⟨copy, fresh, later, -, answer, -⟩ := duplicated (contains_iff.mp live)
        simp [answer]
  · intro live ancestors copied originals
    obtain ⟨copy, fresh, later, count, answer, made⟩ := duplicated (contains_iff.mp live)
    have nearest : ancestors.take arena.maxDepth = ancestors.take copied := List.take_eq_take_min
    have number : (ancestors.take copied).length = copied := List.length_take_of_le (Nat.min_le_right _ _)
    rw [nearest] at count answer made
    have oldest : originals.getLast (List.cons_ne_nil _ _) = (ancestors.take copied).getLast?.getD id := by
      rw [← Option.some_inj, ← List.getLast?_eq_some_getLast, List.getLast?_cons]
    have beyond : arena.Leads (arena.parentOf ((ancestors.take copied).getLast?.getD id)) (ancestors.drop copied) :=
      (descending.leads_ancestors id).drop copied
    have lineage : later.ancestors copy = fresh ++ ancestors.drop copied := by
      have present : ∀ other ∈ copy :: fresh, other ∈ later.ids := by
        intro other member
        rw [made.ids]
        exact List.mem_append_left _ member
      cases Leads.linked made.linked present (made.leads _ beyond) with
      | live live next => exact next.ancestors_eq made.descending
    refine ⟨copy, fresh, later, ?_, ?_, made.numbered, made.descending, made.ids, made.kept, made.alike, ?_, lineage, ?_⟩
    · rw [answer, number]
    · rw [count, number]
    · rw [oldest]
      exact made.linked
    · rw [depth, lineage, List.length_append, count, ← List.length_append, List.take_append_drop]
      rfl

/-- The arena copies one ancestor, and the context that the chain starts with has been released. Of the two ancestors
that are left the nearest is copied, and its copy is linked to the other one. -/
theorem lineagesAreDuplicated_oneOfTwo :
    let context (parent : Option ContextId) : Context Session.Part :=
      { Context.ofProgram (.ofInstructions []) with parent }
    let arena : Arena Session.Part :=
      ⟨[(3, context (some 2)), (2, context (some 1)), (1, context (some 0))], 4, 1⟩
    arena.Numbered ∧ arena.Descending ∧ arena.contains 3 = true ∧
      ∃ copy fresh later,
        arena.duplicateLineage 3 .empty = some (copy, later, Realm.empty.emit (.lineageDuplicated 3 copy 2 true)) ∧
        fresh.length = 1 ∧ later.ids = copy :: fresh ++ [3, 2, 1] ∧
        later.ancestors copy = fresh ++ [1] ∧ later.get? 1 = arena.get? 1 := by
  intro context arena
  have numbered : arena.Numbered := ⟨by decide, by decide⟩
  have descending : arena.Descending := by decide
  have live : arena.contains 3 = true := rfl
  obtain ⟨copy, fresh, later, answer, count, stillNumbered, -, ids, kept, -, -, lineage, -⟩ :=
    (lineagesAreDuplicated numbered descending 3 .empty).2 live
  refine ⟨numbered, descending, live, copy, fresh, later, answer, count, ids, lineage, ?_⟩
  apply kept
  intro isCopy
  have nodup : (copy :: fresh ++ [3, 2, 1]).Nodup := ids ▸ stillNumbered.nodup
  exact (List.nodup_append.mp nodup).2.2 1 isCopy 1 (by decide) rfl

end Spellcast.Arena
