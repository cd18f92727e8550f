import Spellcast.Proofs.History

/-!
# Casts own their contexts

The contexts in the arena are divided among the casts in flight: every context belongs to exactly one place in the
list of exactly one cast. `Owns` says so, and it is kept by every operation of the arena, by every step of a turn and
by every call. As a cast only ever touches contexts of its own, `Turn.Keeps` says as well that the contexts of all
other casts stay as they are.
-/

namespace Spellcast

variable {κ : Type} {behaviour : Behaviour κ}

def owned (casts : List InFlight) : List ContextId := casts.flatMap (·.contexts)

/-- The contexts of a cast are consistent with its other fields: the last one is active, and there is one more than
forks. -/
structure InFlight.Coherent (cast : InFlight) : Prop where
  active : cast.contexts.getLast? = some cast.active
  length : cast.contexts.length = cast.forks + 1

/-- The contexts in the arena are those of the casts, each once, and all of them have been given out before. -/
structure Owns (arena : Arena κ) (casts : List InFlight) : Prop where
  perm : arena.ids.Perm (owned casts)
  nodup : arena.ids.Nodup
  below : ∀ id ∈ arena.ids, id < arena.nextId
  coherent : ∀ cast ∈ casts, cast.Coherent

theorem InFlight.Coherent.active_mem
    {cast : InFlight}
    (coherent : cast.Coherent) :
    cast.active ∈ cast.contexts :=
  List.mem_of_getLast? coherent.active

theorem InFlight.Coherent.moved
    {cast : InFlight}
    (coherent : cast.Coherent)
    (child : ContextId) :
    (cast.moved child).Coherent where
  active := by simp [InFlight.moved]
  length := by simp [InFlight.moved, coherent.length]

namespace Owns

variable {arena : Arena κ} {cast : InFlight} {casts others : List InFlight} {id : ContextId} {context : Context κ}

theorem numbered
    (owns : Owns arena casts) :
    arena.Numbered :=
  ⟨owns.nodup, owns.below⟩

theorem owned_nodup (owns : Owns arena casts) : (owned casts).Nodup :=
  owns.perm.nodup_iff.mp owns.nodup

theorem mem_ids
    (owns : Owns arena casts)
    (member : cast ∈ casts)
    (listed : id ∈ cast.contexts) :
    id ∈ arena.ids :=
  owns.perm.mem_iff.mpr (List.mem_flatMap.mpr ⟨cast, member, listed⟩)

theorem live
    (owns : Owns arena casts)
    (member : cast ∈ casts)
    (listed : id ∈ cast.contexts) :
    ∃ context, arena.get? id = some context :=
  Arena.mem_ids_iff.mp (owns.mem_ids member listed)

theorem active_live
    (owns : Owns arena casts)
    (member : cast ∈ casts) :
    ∃ context, arena.get? cast.active = some context :=
  owns.live member (owns.coherent cast member).active_mem

theorem ne_nextId
    (owns : Owns arena casts)
    (member : cast ∈ casts)
    (listed : id ∈ cast.contexts) :
    id ≠ arena.nextId :=
  Nat.ne_of_lt (owns.below id (owns.mem_ids member listed))

theorem disjoint
    {other : InFlight}
    (owns : Owns arena (cast :: others))
    (member : other ∈ others)
    (listed : id ∈ other.contexts) :
    id ∉ cast.contexts := by
  have separate : (cast.contexts ++ owned others).Nodup := owns.owned_nodup
  intro shared
  have elsewhere : id ∈ owned others :=
    List.mem_flatMap.mpr ⟨other, member, listed⟩
  exact (List.nodup_append.mp separate).2.2 id shared id elsewhere rfl

theorem ids_eq_nil
    (owns : Owns arena []) :
    arena.contexts = [] := by
  have noIds : arena.ids = [] := List.perm_nil.mp owns.perm
  exact List.map_eq_nil_iff.mp noIds

theorem reorder
    {casts' : List InFlight}
    (owns : Owns arena casts)
    (same : casts.Perm casts') :
    Owns arena casts' where
  perm := owns.perm.trans (same.flatMap_right _)
  nodup := owns.nodup
  below := owns.below
  coherent cast member := owns.coherent cast (same.mem_iff.mpr member)

/-- Only the contexts and the forks of a cast matter. -/
theorem recount
    {cast' : InFlight}
    (owns : Owns arena (cast :: others))
    (contexts : cast'.contexts = cast.contexts)
    (active : cast'.active = cast.active)
    (forks : cast'.forks = cast.forks) :
    Owns arena (cast' :: others) where
  perm := by simpa [owned, contexts] using owns.perm
  nodup := owns.nodup
  below := owns.below
  coherent other member := by
    rcases List.mem_cons.mp member with first | rest
    · have coherent := owns.coherent cast List.mem_cons_self
      subst first
      exact ⟨by rw [contexts, active, coherent.active], by rw [contexts, forks, coherent.length]⟩
    · exact owns.coherent other (List.mem_cons_of_mem _ rest)

theorem set
    (owns : Owns arena casts)
    (id : ContextId)
    (context : Context κ) :
    Owns (arena.set id context) casts where
  perm := by simpa using owns.perm
  nodup := (owns.numbered.set id context).nodup
  below := (owns.numbered.set id context).below
  coherent := owns.coherent

theorem insert_moved
    (owns : Owns arena (cast :: others))
    (context : Context κ) :
    Owns (arena.insert context).2 (cast.moved arena.nextId :: others) where
  perm := by
    have appended :
        owned (cast.moved arena.nextId :: others) =
          cast.contexts ++ arena.nextId :: owned others := by
      simp [owned, InFlight.moved]
    rw [appended, Arena.ids_insert]
    exact (owns.perm.cons arena.nextId).trans List.perm_middle.symm
  nodup := (owns.numbered.insert context).nodup
  below := (owns.numbered.insert context).below
  coherent other member := by
    rcases List.mem_cons.mp member with first | rest
    · subst first
      exact (owns.coherent cast List.mem_cons_self).moved _
    · exact owns.coherent other (List.mem_cons_of_mem _ rest)

theorem insert_root
    (owns : Owns arena casts)
    (context : Context κ)
    (root : cast.contexts = [arena.nextId])
    (active : cast.active = arena.nextId)
    (forks : cast.forks = 0) :
    Owns (arena.insert context).2 (casts ++ [cast]) where
  perm := by
    have appended : owned (casts ++ [cast]) = owned casts ++ [arena.nextId] := by
      simp [owned, root]
    rw [appended, Arena.ids_insert]
    exact (owns.perm.cons arena.nextId).trans (List.perm_append_singleton _ _).symm
  nodup := (owns.numbered.insert context).nodup
  below := (owns.numbered.insert context).below
  coherent other member := by
    rcases List.mem_append.mp member with old | new
    · exact owns.coherent other old
    · rw [List.mem_singleton.mp new]
      exact ⟨by simp [root, active], by simp [root, forks]⟩

/-- The contexts of the first cast are released and nothing else is. -/
theorem release
    (owns : Owns arena (cast :: others)) :
    Owns (arena.release cast.contexts) others where
  perm := by
    have separate := List.nodup_append.mp (owns.owned_nodup : (cast.contexts ++ owned others).Nodup)
    have gone : cast.contexts.filter (fun id => !cast.contexts.contains id) = [] := by
      simp
    have stays : (owned others).filter (fun id => !cast.contexts.contains id) = owned others := by
      rw [List.filter_eq_self]
      intro id elsewhere
      simpa using fun shared => separate.2.2 id shared id elsewhere rfl
    have filtered := owns.perm.filter fun id => !cast.contexts.contains id
    have split : owned (cast :: others) = cast.contexts ++ owned others := rfl
    rw [split, List.filter_append, gone, List.nil_append, stays] at filtered
    rw [Arena.ids_release]
    exact filtered
  nodup := (owns.numbered.release cast.contexts).nodup
  below := (owns.numbered.release cast.contexts).below
  coherent other member := owns.coherent other (List.mem_cons_of_mem _ member)

end Owns

end Spellcast
