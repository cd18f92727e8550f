import Spellcast.Attachment

/-!
# Attachments as partial functions

What every operation does to the values in cells and to the cells under the identifiers of a store, for values of any
kinds. `read?` and `Has` are all there is to know about cells, and `cell?` about a store apart from the order of its
entries.
-/

namespace Spellcast

namespace Cells

section

variable {ν : Type} {cells : Cells ν} {id other : CellId} {value : ν} {after : ν → ν}

/-- There is a cell with this number. -/
def Has (cells : Cells ν) (id : CellId) : Prop := id < cells.values.size

instance : Decidable (cells.Has id) := inferInstanceAs (Decidable (_ < _))

theorem has_iff :
    cells.Has id ↔ ∃ value, cells.read? id = some value := by
  constructor
  · intro inside
    exact ⟨_, Array.getElem?_eq_getElem inside⟩
  · rintro ⟨value, found⟩
    exact (Array.getElem?_eq_some_iff.mp found).1

theorem read?_allocate_self :
    (cells.allocate value).2.read? (cells.allocate value).1 = some value := by
  simp [allocate, read?]

theorem read?_allocate_of_has
    (has : cells.Has id) :
    (cells.allocate value).2.read? id = cells.read? id := by
  have inside : id < cells.values.size := has
  simp [allocate, read?, Array.getElem?_push, Nat.ne_of_lt inside]

theorem has_allocate_of_has
    (has : cells.Has id) :
    (cells.allocate value).2.Has id := by
  obtain ⟨held, found⟩ := has_iff.mp has
  exact has_iff.mpr ⟨held, (read?_allocate_of_has has).trans found⟩

theorem not_has_allocated : ¬ cells.Has (cells.allocate value).1 := Nat.lt_irrefl _

theorem allocate_ne (value : ν) : (cells.allocate value).2 ≠ cells := by
  intro same
  have has : (cells.allocate value).2.Has (cells.allocate value).1 := has_iff.mpr ⟨value, read?_allocate_self⟩
  rw [same] at has
  exact not_has_allocated has

theorem read?_change_self
    (found : cells.read? id = some value) :
    (cells.change id after).read? id = some (after value) := by
  have inside : id < cells.values.size := has_iff.mpr ⟨_, found⟩
  simp only [change, found]
  simp [read?, inside]

theorem read?_change_of_ne
    (different : other ≠ id) :
    (cells.change id after).read? other = cells.read? other := by
  unfold change
  split
  · simp [read?, Ne.symm different]
  · rfl

theorem has_change :
    (cells.change id after).Has other ↔ cells.Has other := by
  unfold change
  split
  · simp [Has]
  · rfl

theorem change_of_same
    (found : cells.read? id = some value)
    (same : after value = value) :
    cells.change id after = cells := by
  obtain ⟨inside, held⟩ := Array.getElem?_eq_some_iff.mp found
  simp only [change, found, same]
  rw [← held]
  simp [Array.setIfInBounds, inside]

end

variable {cells : Cells} {id other : CellId} {value : CellValue} {amount count : Nat}

theorem add_of_not_tally
    (found : cells.read? id = some value)
    (notTally : ∀ count, value ≠ .tally count) :
    cells.add id amount = cells := by
  cases value with
  | tally count => exact absurd rfl (notTally count)
  | natural _ | text _ | flag _ => exact change_of_same found rfl

theorem read?_add_self
    (tally : cells.read? id = some (.tally count)) :
    (cells.add id amount).read? id = some (.tally ((count + amount) % tallyModulus)) :=
  read?_change_self tally

theorem read?_add_of_ne
    (different : other ≠ id) :
    (cells.add id amount).read? other = cells.read? other :=
  read?_change_of_ne different

theorem has_add :
    (cells.add id amount).Has other ↔ cells.Has other :=
  has_change

end Cells

/-- Adding to a value makes no other kind of value of it. -/
theorem CellValue.kindOf_add
    (amount : Nat)
    (value : CellValue) :
    HasKind.kindOf (value.add amount) = HasKind.kindOf value := by
  cases value with
  | natural _ | text _ | flag _ | tally _ => rfl

namespace AttachmentStore

section

variable {id other : Identifier} {cell : CellId} {entries : List (Identifier × CellId)}

theorem mem_of_lookup
    (found : lookup id entries = some cell) :
    cell ∈ entries.map (·.2) := by
  induction entries with
  | nil =>
      simp [lookup] at found
  | cons head rest inductionHypothesis =>
      by_cases here : head.1 = id
      · simp only [lookup, here, if_true, Option.some.injEq] at found
        simp [found]
      · simp only [lookup, here, if_false] at found
        exact List.mem_cons_of_mem _ (inductionHypothesis found)

theorem replace_of_absent
    (absent : lookup id entries = none)
    (cell : CellId) :
    replace id cell entries = entries ++ [(id, cell)] := by
  induction entries with
  | nil =>
      rfl
  | cons head rest inductionHypothesis =>
      by_cases here : head.1 = id
      · simp [lookup, here] at absent
      · simp only [lookup, here, if_false] at absent
        simp [replace, here, inductionHypothesis absent]

theorem insertShared_of_absent
    {store : AttachmentStore}
    (absent : store.cell? id = none)
    (cell : CellId) :
    (store.insertShared id cell).2.entries = store.entries ++ [(id, cell)] :=
  replace_of_absent absent cell

theorem lookup_replace_self
    (id : Identifier)
    (cell : CellId)
    (entries : List (Identifier × CellId)) :
    lookup id (replace id cell entries) = some cell := by
  induction entries with
  | nil =>
      simp [replace, lookup]
  | cons head rest inductionHypothesis =>
      by_cases here : head.1 = id
      · simp [replace, lookup, here]
      · simp [replace, lookup, here, inductionHypothesis]

theorem cell?_insertShared_self
    (store : AttachmentStore)
    (id : Identifier)
    (cell : CellId) :
    (store.insertShared id cell).2.cell? id = some cell :=
  lookup_replace_self id cell store.entries

theorem mem_replace
    (id : Identifier)
    (cell : CellId)
    (entries : List (Identifier × CellId)) :
    cell ∈ (replace id cell entries).map (·.2) := by
  induction entries with
  | nil =>
      simp [replace]
  | cons head rest inductionHypothesis =>
      by_cases here : head.1 = id
      · simp [replace, here]
      · simp only [replace, here, if_false, List.map_cons]
        exact List.mem_cons_of_mem _ inductionHypothesis

theorem lookup_replace_of_ne
    (different : other ≠ id)
    (cell : CellId)
    (entries : List (Identifier × CellId)) :
    lookup other (replace id cell entries) = lookup other entries := by
  induction entries with
  | nil =>
      simp [replace, lookup, Ne.symm different]
  | cons head rest inductionHypothesis =>
      by_cases here : head.1 = id
      · simp [replace, lookup, here, Ne.symm different]
      · simp [replace, lookup, here, inductionHypothesis]

theorem lookup_filter_ne
    (id other : Identifier)
    (entries : List (Identifier × CellId)) :
    lookup other (entries.filter (·.1 != id)) = if other = id then none else lookup other entries := by
  induction entries with
  | nil =>
      simp [lookup]
  | cons head rest inductionHypothesis =>
      by_cases removed : head.1 = id
      · by_cases same : other = id
        · simpa [lookup, removed, same] using inductionHypothesis
        · simpa [lookup, removed, same, Ne.symm same] using inductionHypothesis
      · by_cases here : head.1 = other
        · have different : other ≠ id := here ▸ removed
          simp [lookup, here, different]
        · simp [lookup, removed, here, inductionHypothesis]

end

variable {ν τ : Type} {store : AttachmentStore} {cells : Cells ν} {id : Identifier} {cell : CellId} {held : ν}

theorem cell?_insertShared
    (store : AttachmentStore)
    (id : Identifier)
    (cell : CellId)
    (other : Identifier) :
    (store.insertShared id cell).2.cell? other = if other = id then some cell else store.cell? other := by
  by_cases same : other = id
  · rw [if_pos same, same, cell?_insertShared_self]
  · rw [if_neg same]
    exact lookup_replace_of_ne same cell store.entries

theorem cell?_remove
    (store : AttachmentStore)
    (id other : Identifier) :
    (store.remove id).2.cell? other = if other = id then none else store.cell? other :=
  lookup_filter_ne id other store.entries

section

variable [HasKind ν τ] [DecidableEq τ]

theorem getOrInsert_of_absent
    (absent : store.cell? id = none)
    (initial : ν) :
    store.getOrInsert cells id initial =
      (.ok (cells.allocate initial).1, (store.insertShared id (cells.allocate initial).1).2,
        (cells.allocate initial).2) := by
  simp only [getOrInsert, absent]

theorem get?_of_present
    (present : store.cell? id = some cell)
    (read : cells.read? cell = some held)
    (kind : τ) :
    store.get? cells kind id = if HasKind.kindOf held = kind then some cell else none := by
  simp only [get?, present, read]

theorem get?_eq_some_iff
    {kind : τ} :
    store.get? cells kind id = some cell ↔
      store.cell? id = some cell ∧ ∃ value, cells.read? cell = some value ∧ HasKind.kindOf value = kind := by
  constructor
  · intro found
    simp only [get?] at found
    split at found
    · cases found
    · next present =>
      split at found
      · next read =>
        split at found
        · next same =>
          obtain rfl := Option.some.inj found
          exact ⟨present, _, read, same⟩
        · cases found
      · cases found
  · rintro ⟨present, value, read, same⟩
    rw [get?_of_present present read, if_pos same]

theorem getOrInsert_of_fits
    {initial : ν}
    (present : store.cell? id = some cell)
    (read : cells.read? cell = some held)
    (same : HasKind.kindOf held = HasKind.kindOf initial) :
    store.getOrInsert cells id initial = (.ok cell, store, cells) := by
  simp only [getOrInsert, present, get?_of_present present read, if_pos same]

theorem getOrInsert_of_misfits
    {initial : ν}
    (present : store.cell? id = some cell)
    (read : cells.read? cell = some held)
    (different : HasKind.kindOf held ≠ HasKind.kindOf initial) :
    store.getOrInsert cells id initial =
      (.error (.kindMismatch id (HasKind.kindOf initial)), store, cells) := by
  simp only [getOrInsert, present, get?_of_present present read, if_neg different]

end

/-- What parts attach. -/
theorem getOrInsert_of_present
    {cells : Cells}
    {held : CellValue}
    (present : store.cell? id = some cell)
    (read : cells.read? cell = some held)
    (initial : CellValue) :
    store.getOrInsert cells id initial =
      (if held.kind = initial.kind then .ok cell else .error (.kindMismatch id initial.kind), store, cells) := by
  by_cases same : held.kind = initial.kind
  · rw [if_pos same]
    exact getOrInsert_of_fits present read same
  · rw [if_neg same]
    exact getOrInsert_of_misfits present read same

end AttachmentStore

end Spellcast
