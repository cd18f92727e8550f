import Spellcast.Arena

/-!
# The arena as a partial function

What every operation of an arena does to the contexts under its numbers. After this module nobody looks at the
list of entries any more: `get?` and `ids` are all there is to know about an arena, with `nextId` for the number
of the next context.
-/

namespace Spellcast.Arena

variable {κ : Type} {behaviour : Behaviour κ} {arena : Arena κ} {id other : ContextId} {context held : Context κ}

theorem lookup_isSome_iff
    {entries : List (ContextId × Context κ)} :
    (lookup id entries).isSome ↔ id ∈ entries.map (·.1) := by
  induction entries with
  | nil =>
      simp [lookup]
  | cons entry rest inductionHypothesis =>
      obtain ⟨number, held⟩ := entry
      by_cases same : number = id
      · simp [lookup, same]
      · simp [lookup, same, inductionHypothesis, Ne.symm same]

@[simp]
theorem exchange_map_fst
    (entries : List (ContextId × Context κ)) :
    (exchange id context entries).map (·.1) = entries.map (·.1) := by
  induction entries with
  | nil =>
      rfl
  | cons entry rest inductionHypothesis =>
      obtain ⟨number, held⟩ := entry
      by_cases same : number = id
      · simp [exchange, same]
      · simp [exchange, same, inductionHypothesis]

theorem lookup_exchange_of_ne
    (different : other ≠ id)
    (entries : List (ContextId × Context κ)) :
    lookup other (exchange id context entries) = lookup other entries := by
  induction entries with
  | nil =>
      rfl
  | cons entry rest inductionHypothesis =>
      obtain ⟨number, held⟩ := entry
      by_cases same : number = id
      · simp [exchange, lookup, same, Ne.symm different]
      · by_cases found : number = other
        · simp [exchange, lookup, found, different]
        · simp [exchange, lookup, same, found, inductionHypothesis]

theorem lookup_exchange_self
    {entries : List (ContextId × Context κ)}
    (live : lookup id entries = some held) :
    lookup id (exchange id context entries) = some context := by
  induction entries with
  | nil =>
      simp [lookup] at live
  | cons entry rest inductionHypothesis =>
      obtain ⟨number, first⟩ := entry
      by_cases same : number = id
      · simp [exchange, lookup, same]
      · have liveInRest : lookup id rest = some held := by
          simpa [lookup, same] using live
        simpa [exchange, lookup, same] using inductionHypothesis liveInRest

theorem lookup_filter
    (keep : ContextId → Bool)
    (kept : keep id = true)
    (entries : List (ContextId × Context κ)) :
    lookup id (entries.filter fun entry => keep entry.1) = lookup id entries := by
  induction entries with
  | nil =>
      rfl
  | cons entry rest inductionHypothesis =>
      obtain ⟨number, held⟩ := entry
      by_cases same : number = id
      · simp [lookup, same, kept]
      · by_cases stays : keep number = true
        · simp [lookup, same, stays, inductionHypothesis]
        · simp [lookup, same, stays, inductionHypothesis]

theorem mem_ids_iff :
    id ∈ arena.ids ↔ ∃ context, arena.get? id = some context := by
  rw [← Option.isSome_iff_exists]
  exact lookup_isSome_iff.symm

theorem contains_iff :
    arena.contains id = true ↔ id ∈ arena.ids := by
  rw [contains, Option.isSome_iff_exists, mem_ids_iff]

theorem contains_eq_false_iff :
    arena.contains id = false ↔ arena.get? id = none := by
  rw [contains, Option.isSome_eq_false_iff, Option.isNone_iff_eq_none]

/-- No number is in use twice, and all numbers in use have been given out. -/
structure Numbered (arena : Arena κ) : Prop where
  nodup : arena.ids.Nodup
  below : ∀ id ∈ arena.ids, id < arena.nextId

theorem Numbered.contains_nextId
    (numbered : arena.Numbered) :
    arena.contains arena.nextId = false := by
  rw [← Bool.not_eq_true, contains_iff]
  intro member
  exact Nat.lt_irrefl _ (numbered.below _ member)

theorem numbered_withDepth (maxDepth : Nat) : (withDepth maxDepth : Arena κ).Numbered where
  nodup := List.nodup_nil
  below _ nothing := absurd nothing List.not_mem_nil

@[simp]
theorem ids_insert : (arena.insert context).2.ids = arena.nextId :: arena.ids := rfl

@[simp]
theorem nextId_insert : (arena.insert context).2.nextId = arena.nextId + 1 := rfl

@[simp]
theorem get?_insert_self : (arena.insert context).2.get? arena.nextId = some context := by
  simp [insert, get?, lookup]

theorem get?_insert_of_ne
    (different : other ≠ arena.nextId) :
    (arena.insert context).2.get? other = arena.get? other := by
  simp [insert, get?, lookup, Ne.symm different]

theorem Numbered.insert
    (numbered : arena.Numbered)
    (context : Context κ) :
    (arena.insert context).2.Numbered where
  nodup := by
    rw [ids_insert, List.nodup_cons, ← contains_iff, numbered.contains_nextId]
    exact ⟨Bool.false_ne_true, numbered.nodup⟩
  below id member := by
    rw [ids_insert] at member
    rcases List.mem_cons.mp member with new | old
    · rw [new]
      exact Nat.lt_succ_self _
    · exact Nat.lt_succ_of_lt (numbered.below id old)

@[simp]
theorem ids_set : (arena.set id context).ids = arena.ids :=
  exchange_map_fst arena.contexts

@[simp]
theorem nextId_set : (arena.set id context).nextId = arena.nextId := rfl

theorem Numbered.set
    (numbered : arena.Numbered)
    (id : ContextId)
    (context : Context κ) :
    (arena.set id context).Numbered where
  nodup := by
    rw [ids_set]
    exact numbered.nodup
  below other member := by
    rw [ids_set] at member
    exact numbered.below other member

theorem get?_set_self
    (live : arena.get? id = some held) :
    (arena.set id context).get? id = some context :=
  lookup_exchange_self live

theorem get?_set_of_ne
    (different : other ≠ id) :
    (arena.set id context).get? other = arena.get? other :=
  lookup_exchange_of_ne different arena.contexts

@[simp]
theorem nextId_release (ids : List ContextId) : (arena.release ids).nextId = arena.nextId := rfl

theorem ids_release (ids : List ContextId) :
    (arena.release ids).ids = arena.ids.filter fun id => !ids.contains id := by
  simp only [Arena.ids, release, List.filter_map]
  rfl

theorem Numbered.release
    (numbered : arena.Numbered)
    (ids : List ContextId) :
    (arena.release ids).Numbered where
  nodup := by
    rw [ids_release]
    exact numbered.nodup.filter _
  below id member := by
    rw [ids_release] at member
    exact numbered.below id (List.mem_filter.mp member).1

theorem get?_release_of_notMem
    {ids : List ContextId}
    (kept : id ∉ ids) :
    (arena.release ids).get? id = arena.get? id := by
  have stays : (!ids.contains id) = true := by
    simpa using kept
  exact lookup_filter (fun id => !ids.contains id) stays arena.contexts

/-- A live context can always be forked: the child that it makes is stored under the next number. -/
theorem fork_eq
    (behaviour : Behaviour κ)
    (live : arena.get? id = some context)
    (realm : Realm) :
    arena.fork behaviour id realm =
      let made := context.makeChild behaviour id realm
      let stored := (arena.insert made.1.context).2
      some (⟨arena.nextId, made.1.supplier⟩, stored,
        made.2.emit (.contextForked id arena.nextId (stored.depth arena.nextId)
          made.1.context.program.length)) := by
  simp [fork, live, insert]

end Spellcast.Arena
