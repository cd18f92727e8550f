import Spellcast.Proofs.Attachment

/-!
# What stores hold by their history

A `Shelf` has any number of stores, the cells that these have in common, and beside each store the writes in its
history. A copy starts with the history of what it was copied from. `RecordedStore.Truthful` says that a store has
under each identifier what the last write there has put, with a value that is still of the kind that it was put with.
Everything that is done to stores and to values in cells keeps it, so typed lookups can be told from the history alone.
-/

namespace Spellcast

variable {ν τ : Type}

/-- A write to a store: a cell with a value of some kind is under the identifier from then on, or nothing. -/
structure Write (τ : Type) where
  id : Identifier
  put : Option (CellId × τ)
deriving DecidableEq

namespace Write

variable {writes : List (Write τ)} {id : Identifier}

/-- The last write under an identifier. Writes are listed with the latest first. -/
def last? (writes : List (Write τ)) (id : Identifier) : Option (Write τ) := writes.find? (·.id = id)

/-- What stands under an identifier after these writes. -/
def standing (writes : List (Write τ)) (id : Identifier) : Option (CellId × τ) := (last? writes id).bind (·.put)

theorem standing_cons
    (writes : List (Write τ))
    (id : Identifier)
    (put : Option (CellId × τ))
    (other : Identifier) :
    standing (⟨id, put⟩ :: writes) other = if other = id then put else standing writes other := by
  by_cases same : other = id
  · simp [standing, last?, same]
  · simp [standing, last?, same, Ne.symm same]

theorem standing_eq_some_iff
    {stored : CellId × τ} :
    standing writes id = some stored ↔ last? writes id = some ⟨id, some stored⟩ := by
  constructor
  · intro stands
    obtain ⟨last, isLast, put⟩ := Option.bind_eq_some_iff.mp stands
    have same : last.id = id := by
      simpa using List.find?_some isLast
    rw [isLast, ← same, ← put]
  · intro isLast
    rw [standing, isLast]
    rfl

end Write

namespace Cells

variable {cells after : Cells ν}

/-- All values are what they were; there may be new cells. -/
def Retains (cells after : Cells ν) : Prop :=
  ∀ id value, cells.read? id = some value → after.read? id = some value

theorem Retains.refl (cells : Cells ν) : Retains cells cells := fun _ _ found => found

theorem Retains.allocate (cells : Cells ν) (value : ν) : Retains cells (cells.allocate value).2 :=
  fun _ held found => (read?_allocate_of_has (has_iff.mpr ⟨held, found⟩)).trans found

variable [HasKind ν τ]

/-- No cell has gone, and the values in them are still of the same kinds. -/
def KeepsKinds (cells after : Cells ν) : Prop :=
  ∀ id value, cells.read? id = some value →
    ∃ held, after.read? id = some held ∧ HasKind.kindOf held = HasKind.kindOf value

theorem KeepsKinds.change
    (cells : Cells ν)
    (id : CellId)
    {after : ν → ν}
    (keeps : ∀ value, HasKind.kindOf (after value) = HasKind.kindOf value) :
    KeepsKinds cells (cells.change id after) := by
  intro other value found
  by_cases same : other = id
  · rw [same] at found ⊢
    exact ⟨after value, read?_change_self found, keeps value⟩
  · exact ⟨value, (read?_change_of_ne same).trans found, rfl⟩

theorem Retains.keepsKinds
    (retains : cells.Retains after) :
    cells.KeepsKinds after :=
  fun id value found => ⟨value, retains id value found, rfl⟩

end Cells

variable [HasKind ν τ]

namespace AttachmentStore

/-- Something that can be done with one store, for values of any kinds. -/
inductive Operation (ν : Type) where
  | insert (id : Identifier) (value : ν)
  | insertShared (id : Identifier) (cell : CellId)
  | remove (id : Identifier)
  | getOrInsert (id : Identifier) (value : ν)

def Operation.Allowed (cells : Cells ν) : Operation ν → Prop
  | .insertShared _ cell => cells.Has cell
  | _ => True

end AttachmentStore

/-- A store with its history: what has been written to it, and before that to the store that it was copied from. -/
structure RecordedStore (τ : Type) where
  store : AttachmentStore
  writes : List (Write τ)
deriving DecidableEq

namespace RecordedStore

variable {cells after : Cells ν} {recorded : RecordedStore τ} {id : Identifier}

def empty : RecordedStore τ := ⟨.empty, []⟩

/-- Under each identifier is the cell that stands there by the history, and its value is of the kind that it had when it
was put there. -/
structure Truthful (cells : Cells ν) (recorded : RecordedStore τ) : Prop where
  held : ∀ id, recorded.store.cell? id = (Write.standing recorded.writes id).map (·.1)
  kinds : ∀ id cell kind, Write.standing recorded.writes id = some (cell, kind) →
    ∃ value, cells.read? cell = some value ∧ HasKind.kindOf value = kind

theorem Truthful.empty (cells : Cells ν) : Truthful cells (.empty : RecordedStore τ) where
  held _ := rfl
  kinds _ _ _ nothing := nomatch nothing

theorem Truthful.later
    (truthful : recorded.Truthful cells)
    (keeps : cells.KeepsKinds after) :
    recorded.Truthful after where
  held := truthful.held
  kinds id cell kind stands := by
    obtain ⟨value, found, same⟩ := truthful.kinds id cell kind stands
    obtain ⟨held, stillFound, sameKind⟩ := keeps cell value found
    exact ⟨held, stillFound, sameKind.trans same⟩

theorem Truthful.put
    {cell : CellId}
    {value : ν}
    (truthful : recorded.Truthful cells)
    (found : cells.read? cell = some value)
    (id : Identifier) :
    Truthful cells
      ⟨(recorded.store.insertShared id cell).2, ⟨id, some (cell, HasKind.kindOf value)⟩ :: recorded.writes⟩ where
  held other := by
    rw [AttachmentStore.cell?_insertShared, Write.standing_cons]
    split
    · rfl
    · exact truthful.held other
  kinds other otherCell kind stands := by
    rw [Write.standing_cons] at stands
    split at stands
    · obtain ⟨rfl, rfl⟩ := Prod.mk.inj (Option.some.inj stands)
      exact ⟨value, found, rfl⟩
    · exact truthful.kinds other otherCell kind stands

theorem Truthful.put_allocated
    (truthful : recorded.Truthful cells)
    (id : Identifier)
    (value : ν) :
    Truthful (cells.allocate value).2
      ⟨(recorded.store.insertShared id (cells.allocate value).1).2,
        ⟨id, some ((cells.allocate value).1, HasKind.kindOf value)⟩ :: recorded.writes⟩ :=
  (truthful.later (Cells.Retains.allocate cells value).keepsKinds).put Cells.read?_allocate_self id

theorem Truthful.remove
    (truthful : recorded.Truthful cells)
    (id : Identifier) :
    Truthful cells ⟨(recorded.store.remove id).2, ⟨id, none⟩ :: recorded.writes⟩ where
  held other := by
    rw [AttachmentStore.cell?_remove, Write.standing_cons]
    split
    · rfl
    · exact truthful.held other
  kinds other cell kind stands := by
    rw [Write.standing_cons] at stands
    split at stands
    · cases stands
    · exact truthful.kinds other cell kind stands

theorem Truthful.contains_iff
    (truthful : recorded.Truthful cells) :
    recorded.store.contains id = true ↔
      ∃ cell kind, Write.last? recorded.writes id = some ⟨id, some (cell, kind)⟩ := by
  rw [AttachmentStore.contains, truthful.held, Option.isSome_map, Option.isSome_iff_exists, Prod.exists]
  simp only [Write.standing_eq_some_iff]

variable [DecidableEq τ]

/-- Does something with a store and writes it down. Something is written under an identifier by `getOrInsert` only if
the history has left nothing there. -/
def perform (recorded : RecordedStore τ) (cells : Cells ν) : AttachmentStore.Operation ν → RecordedStore τ × Cells ν
  | .insert id value =>
    let (_, store, after) := recorded.store.insert cells id value
    (⟨store, ⟨id, some ((cells.allocate value).1, HasKind.kindOf value)⟩ :: recorded.writes⟩, after)
  | .insertShared id cell =>
    let put := (cells.read? cell).map fun value => (cell, HasKind.kindOf value)
    (⟨(recorded.store.insertShared id cell).2, ⟨id, put⟩ :: recorded.writes⟩, cells)
  | .remove id => (⟨(recorded.store.remove id).2, ⟨id, none⟩ :: recorded.writes⟩, cells)
  | .getOrInsert id value =>
    let (_, store, after) := recorded.store.getOrInsert cells id value
    match Write.standing recorded.writes id with
    | some _ => (⟨store, recorded.writes⟩, after)
    | none => (⟨store, ⟨id, some ((cells.allocate value).1, HasKind.kindOf value)⟩ :: recorded.writes⟩, after)

theorem Truthful.getOrInsert_cases
    (truthful : recorded.Truthful cells)
    (id : Identifier)
    (value : ν) :
    (Write.standing recorded.writes id = none ∧ recorded.store.contains id = false ∧
      recorded.store.getOrInsert cells id value =
        (.ok (cells.allocate value).1, (recorded.store.insertShared id (cells.allocate value).1).2,
          (cells.allocate value).2)) ∨
    ∃ cell kind, Write.standing recorded.writes id = some (cell, kind) ∧ recorded.store.contains id = true ∧
      recorded.store.getOrInsert cells id value =
        (if kind = HasKind.kindOf value then .ok cell else .error (.kindMismatch id (HasKind.kindOf value)),
          recorded.store, cells) := by
  have held := truthful.held id
  -- the history tells whether there is a cell, and of which kind its value is by now
  rcases stands : Write.standing recorded.writes id with _ | ⟨cell, kind⟩
  · rw [stands] at held
    exact .inl ⟨rfl, by rw [AttachmentStore.contains, held]; rfl, AttachmentStore.getOrInsert_of_absent held value⟩
  · rw [stands] at held
    obtain ⟨stored, found, rfl⟩ := truthful.kinds id cell kind stands
    refine .inr ⟨cell, _, rfl, by rw [AttachmentStore.contains, held]; rfl, ?_⟩
    by_cases same : HasKind.kindOf stored = HasKind.kindOf value
    · rw [if_pos same]
      exact AttachmentStore.getOrInsert_of_fits held found same
    · rw [if_neg same]
      exact AttachmentStore.getOrInsert_of_misfits held found same

/-- A typed lookup finds what the last write has put, if that was of the type. -/
theorem Truthful.get?_eq_some_iff
    {kind : τ}
    {cell : CellId}
    (truthful : recorded.Truthful cells) :
    recorded.store.get? cells kind id = some cell ↔ Write.last? recorded.writes id = some ⟨id, some (cell, kind)⟩ := by
  rw [AttachmentStore.get?_eq_some_iff, truthful.held, ← Write.standing_eq_some_iff]
  constructor
  · rintro ⟨present, value, read, rfl⟩
    obtain ⟨⟨stored, kind⟩, stands, rfl⟩ := Option.map_eq_some_iff.mp present
    obtain ⟨held, found, same⟩ := truthful.kinds id stored kind stands
    obtain rfl := Option.some.inj (found.symm.trans read)
    rw [stands, same]
  · intro stands
    exact ⟨by rw [stands]; rfl, truthful.kinds id cell kind stands⟩

theorem Truthful.retains_perform
    (truthful : recorded.Truthful cells)
    (operation : AttachmentStore.Operation ν) :
    cells.Retains (recorded.perform cells operation).2 := by
  cases operation with
  | insert id value => exact .allocate cells value
  | insertShared id cell => exact .refl cells
  | remove id => exact .refl cells
  | getOrInsert id value =>
      rcases truthful.getOrInsert_cases id value with ⟨stands, -, answer⟩ | ⟨cell, kind, stands, -, answer⟩
      · simp only [RecordedStore.perform, stands, answer]
        exact .allocate cells value
      · simp only [RecordedStore.perform, stands, answer]
        exact .refl cells

/-- A value is built only where nothing is, and what is there is never replaced. -/
theorem Truthful.getOrInsert_spec
    (truthful : recorded.Truthful cells)
    (id : Identifier)
    (value : ν) :
    let answer := recorded.store.getOrInsert cells id value
    let built := cells.allocate value
    (answer.2.2 = cells ↔ recorded.store.contains id = true) ∧
    (recorded.store.contains id = false →
      answer.1 = .ok built.1 ∧ answer.2.2 = built.2 ∧ ¬ cells.Has built.1 ∧ built.2.read? built.1 = some value ∧
        ∀ other, answer.2.1.cell? other = if other = id then some built.1 else recorded.store.cell? other) ∧
    (∀ cell, recorded.store.get? cells (HasKind.kindOf value) id = some cell →
      answer = (.ok cell, recorded.store, cells)) ∧
    (recorded.store.contains id = true → recorded.store.get? cells (HasKind.kindOf value) id = none →
      answer = (.error (.kindMismatch id (HasKind.kindOf value)), recorded.store, cells)) := by
  intro answer built
  have lookup (cell : CellId) :
      recorded.store.get? cells (HasKind.kindOf value) id = some cell ↔
        Write.standing recorded.writes id = some (cell, HasKind.kindOf value) := by
    rw [truthful.get?_eq_some_iff, Write.standing_eq_some_iff]
  rcases truthful.getOrInsert_cases id value with ⟨stands, absent, gives⟩ | ⟨cell, kind, stands, present, gives⟩
  · have given : answer = _ := gives
    refine ⟨?_, ?_, ?_, ?_⟩
    · rw [given, absent]
      exact iff_of_false (Cells.allocate_ne value) Bool.false_ne_true
    · rw [given]
      exact fun _ => ⟨rfl, rfl, Cells.not_has_allocated, Cells.read?_allocate_self,
        AttachmentStore.cell?_insertShared recorded.store id built.1⟩
    · intro cell found
      rw [lookup, stands] at found
      cases found
    · intro present
      rw [absent] at present
      cases present
  · have given : answer = _ := gives
    refine ⟨?_, ?_, ?_, ?_⟩
    · rw [given]
      exact iff_of_true rfl present
    · intro absent
      rw [present] at absent
      cases absent
    · intro found isFound
      rw [lookup, stands] at isFound
      obtain ⟨rfl, same⟩ := Prod.mk.inj (Option.some.inj isFound)
      rw [given, if_pos same]
    · intro _ nothing
      have different : kind ≠ HasKind.kindOf value := by
        rintro rfl
        rw [(lookup cell).mpr stands] at nothing
        cases nothing
      rw [given, if_neg different]

theorem Truthful.perform
    {operation : AttachmentStore.Operation ν}
    (truthful : recorded.Truthful cells)
    (allowed : operation.Allowed cells) :
    (recorded.perform cells operation).1.Truthful (recorded.perform cells operation).2 := by
  cases operation with
  | insert id value => exact truthful.put_allocated id value
  | insertShared id cell =>
      obtain ⟨value, found⟩ := Cells.has_iff.mp allowed
      simp only [RecordedStore.perform, found, Option.map_some]
      exact truthful.put found id
  | remove id => exact truthful.remove id
  | getOrInsert id value =>
      rcases truthful.getOrInsert_cases id value with ⟨stands, -, answer⟩ | ⟨cell, kind, stands, -, answer⟩
      · simp only [RecordedStore.perform, stands, answer]
        exact truthful.put_allocated id value
      · simp only [RecordedStore.perform, stands, answer]
        exact truthful

end RecordedStore

/-- Stores by number, and the cells that they have in common. -/
structure Shelf (ν τ : Type) where
  cells : Cells ν
  stores : List (RecordedStore τ)

namespace Shelf

variable [DecidableEq τ] {shelf : Shelf ν τ} {number : Nat} {recorded : RecordedStore τ}

/-- Something that can be done with stores and with values in cells. -/
inductive Operation (ν : Type) where
  /-- A value is made outside of all stores. -/
  | make (value : ν)
  /-- A value is changed by somebody who has its cell. -/
  | change (cell : CellId) (after : ν → ν)
  /-- A new store. -/
  | create
  /-- A copy of a store, with a number of its own. -/
  | copy (number : Nat)
  | on (number : Nat) (operation : AttachmentStore.Operation ν)

/-- A change of a value does not change its kind. -/
def Operation.Allowed (cells : Cells ν) : Operation ν → Prop
  | .change _ after => ∀ value, HasKind.kindOf (after value) = HasKind.kindOf value
  | .on _ operation => operation.Allowed cells
  | _ => True

def perform (shelf : Shelf ν τ) : Operation ν → Shelf ν τ
  | .make value => { shelf with cells := (shelf.cells.allocate value).2 }
  | .change cell after => { shelf with cells := shelf.cells.change cell after }
  | .create => { shelf with stores := shelf.stores ++ [.empty] }
  | .copy number => { shelf with stores := shelf.stores ++ shelf.stores[number]?.toList }
  | .on number operation =>
    match shelf.stores[number]? with
    | none => shelf
    | some recorded =>
      let (recorded, cells) := recorded.perform shelf.cells operation
      { cells, stores := shelf.stores.set number recorded }

/-- It has begun without stores, and this is what operations have made of it. -/
inductive Reached : Shelf ν τ → Prop
  | start (cells : Cells ν) : Reached ⟨cells, []⟩
  | perform {shelf : Shelf ν τ} (reached : Reached shelf) (operation : Operation ν)
      (allowed : operation.Allowed shelf.cells) : Reached (shelf.perform operation)

/-- Operations that are allowed whatever is in cells can be performed one after the other. -/
theorem Reached.foldl
    {operations : List (Operation ν)}
    (reached : shelf.Reached)
    (allowed : ∀ operation ∈ operations, ∀ cells, operation.Allowed cells) :
    (operations.foldl Shelf.perform shelf).Reached := by
  induction operations generalizing shelf with
  | nil => exact reached
  | cons first rest inductionHypothesis =>
      apply inductionHypothesis (reached.perform first (allowed first List.mem_cons_self shelf.cells))
      exact fun operation member => allowed operation (List.mem_cons_of_mem _ member)

theorem retains_perform
    {operation : Operation ν}
    (truthful : ∀ recorded ∈ shelf.stores, recorded.Truthful shelf.cells)
    (unchanged : ∀ cell after, operation ≠ .change cell after) :
    shelf.cells.Retains (shelf.perform operation).cells := by
  cases operation with
  | make value => exact .allocate shelf.cells value
  | change cell after => exact absurd rfl (unchanged cell after)
  | create => exact .refl shelf.cells
  | copy number => exact .refl shelf.cells
  | on number operation =>
      rcases found : shelf.stores[number]? with _ | target
      · simp only [Shelf.perform, found]
        exact .refl shelf.cells
      · simp only [Shelf.perform, found]
        exact (truthful target (List.mem_of_getElem? found)).retains_perform operation

theorem keepsKinds_perform
    {operation : Operation ν}
    (truthful : ∀ recorded ∈ shelf.stores, recorded.Truthful shelf.cells)
    (allowed : operation.Allowed shelf.cells) :
    shelf.cells.KeepsKinds (shelf.perform operation).cells := by
  cases operation with
  | change cell after => exact .change shelf.cells cell allowed
  | make _ | create | copy _ | on _ _ => exact (retains_perform truthful (by simp)).keepsKinds

theorem truthful_perform
    {operation : Operation ν}
    (truthful : ∀ recorded ∈ shelf.stores, recorded.Truthful shelf.cells)
    (allowed : operation.Allowed shelf.cells) :
    ∀ recorded ∈ (shelf.perform operation).stores, recorded.Truthful (shelf.perform operation).cells := by
  intro recorded member
  have still {old : RecordedStore τ} (listed : old ∈ shelf.stores) : old.Truthful (shelf.perform operation).cells :=
    (truthful old listed).later (keepsKinds_perform truthful allowed)
  cases operation with
  | make value => exact still member
  | change cell after => exact still member
  | create =>
      rcases List.mem_append.mp member with old | new
      · exact still old
      · rw [List.mem_singleton.mp new]
        exact .empty shelf.cells
  | copy number =>
      rcases List.mem_append.mp member with old | new
      · exact still old
      · exact still (List.mem_of_getElem? (Option.mem_toList.mp new))
  | on number operation =>
      rcases found : shelf.stores[number]? with _ | target
      · simp only [Shelf.perform, found] at member ⊢
        exact truthful recorded member
      · simp only [Shelf.perform, found] at member still ⊢
        -- the other stores have at most seen new cells
        rcases List.mem_or_eq_of_mem_set member with other | same
        · exact still other
        · rw [same]
          exact (truthful target (List.mem_of_getElem? found)).perform allowed

theorem Reached.truthful
    (reached : shelf.Reached) :
    ∀ recorded ∈ shelf.stores, recorded.Truthful shelf.cells := by
  induction reached with
  | start cells => exact fun _ nothing => absurd nothing List.not_mem_nil
  | perform _ operation allowed inductionHypothesis => exact truthful_perform inductionHypothesis allowed

theorem stores_perform_of_apart
    {operation : Operation ν}
    (found : shelf.stores[number]? = some recorded)
    (apart : ∀ own, operation ≠ .on number own) :
    (shelf.perform operation).stores[number]? = some recorded := by
  have inside : number < shelf.stores.length := (List.getElem?_eq_some_iff.mp found).1
  cases operation with
  | make value => exact found
  | change cell after => exact found
  | create => exact (List.getElem?_append_left inside).trans found
  | copy other => exact (List.getElem?_append_left inside).trans found
  | on other operation =>
      have different : other ≠ number := fun same => apart operation (same ▸ rfl)
      simp only [Shelf.perform]
      split
      · exact found
      · exact (List.getElem?_set_ne different).trans found

theorem get?_perform_of_apart
    {operation : Operation ν}
    (truthful : ∀ recorded ∈ shelf.stores, recorded.Truthful shelf.cells)
    (found : shelf.stores[number]? = some recorded)
    (allowed : operation.Allowed shelf.cells)
    (apart : ∀ own, operation ≠ .on number own)
    (kind : τ)
    (id : Identifier) :
    recorded.store.get? (shelf.perform operation).cells kind id = recorded.store.get? shelf.cells kind id := by
  have before := truthful recorded (List.mem_of_getElem? found)
  have after := truthful_perform truthful allowed recorded (List.mem_of_getElem? (stores_perform_of_apart found apart))
  -- what is found is a matter of the history, and the history is the same
  ext cell
  rw [after.get?_eq_some_iff, before.get?_eq_some_iff]

theorem change_seen
    {id : Identifier}
    {cell : CellId}
    {after : ν → ν}
    (truthful : recorded.Truthful shelf.cells)
    (keeps : ∀ value, HasKind.kindOf (after value) = HasKind.kindOf value)
    (held : recorded.store.cell? id = some cell) :
    let changed := shelf.perform (.change cell after)
    ∃ value, shelf.cells.read? cell = some value ∧ changed.cells.read? cell = some (after value) ∧
      recorded.store.get? changed.cells (HasKind.kindOf value) id = some cell := by
  intro changed
  rw [truthful.held] at held
  obtain ⟨⟨stored, kind⟩, stands, rfl⟩ := Option.map_eq_some_iff.mp held
  obtain ⟨value, read, rfl⟩ := truthful.kinds id stored kind stands
  have still : recorded.Truthful changed.cells := truthful.later (.change shelf.cells stored keeps)
  refine ⟨value, read, Cells.read?_change_self read, ?_⟩
  rw [still.get?_eq_some_iff, ← Write.standing_eq_some_iff]
  exact stands

/-- Whatever has been done to stores and values, a typed lookup in a store finds exactly what the last write in the
history of the store has put under the identifier, if it was of that kind; and there is something exactly if the last
write has put something. Where nothing is `getOrInsert` builds a value, and only there; otherwise it answers what is
there, or that it is of another kind, and leaves all as it is. What is not done with the store itself leaves the store
and its history alone, and what it finds. A copy starts with the entries and the history of the store. Nothing but a
change of a value changes that value; it is seen by each store that holds the cell, and changes no entries. -/
theorem storesYieldTheirLastWrites
    (reached : shelf.Reached)
    (found : shelf.stores[number]? = some recorded)
    (id : Identifier) :
    (∀ kind cell, recorded.store.get? shelf.cells kind id = some cell ↔
      Write.last? recorded.writes id = some ⟨id, some (cell, kind)⟩) ∧
    (recorded.store.contains id = true ↔
      ∃ cell kind, Write.last? recorded.writes id = some ⟨id, some (cell, kind)⟩) ∧
    (∀ value,
      let answer := recorded.store.getOrInsert shelf.cells id value
      let built := shelf.cells.allocate value
      (answer.2.2 = shelf.cells ↔ recorded.store.contains id = true) ∧
      (recorded.store.contains id = false →
        answer.1 = .ok built.1 ∧ answer.2.2 = built.2 ∧ ¬ shelf.cells.Has built.1 ∧ built.2.read? built.1 = some value ∧
          ∀ other, answer.2.1.cell? other = if other = id then some built.1 else recorded.store.cell? other) ∧
      (∀ cell, recorded.store.get? shelf.cells (HasKind.kindOf value) id = some cell →
        answer = (.ok cell, recorded.store, shelf.cells)) ∧
      (recorded.store.contains id = true → recorded.store.get? shelf.cells (HasKind.kindOf value) id = none →
        answer = (.error (.kindMismatch id (HasKind.kindOf value)), recorded.store, shelf.cells))) ∧
    (∀ operation : Operation ν, operation.Allowed shelf.cells → (∀ own, operation ≠ .on number own) →
      (shelf.perform operation).stores[number]? = some recorded ∧
      ∀ kind, recorded.store.get? (shelf.perform operation).cells kind id = recorded.store.get? shelf.cells kind id) ∧
    (shelf.perform (.copy number)).stores = shelf.stores ++ [recorded] ∧
    (∀ operation : Operation ν, (∀ cell after, operation ≠ .change cell after) →
      shelf.cells.Retains (shelf.perform operation).cells) ∧
    (∀ cell after, (∀ value, HasKind.kindOf (after value) = HasKind.kindOf value) →
      let changed := shelf.perform (.change cell after)
      changed.stores = shelf.stores ∧
      (∀ other, other ≠ cell → changed.cells.read? other = shelf.cells.read? other) ∧
      (recorded.store.cell? id = some cell →
        ∃ value, shelf.cells.read? cell = some value ∧ changed.cells.read? cell = some (after value) ∧
          recorded.store.get? changed.cells (HasKind.kindOf value) id = some cell)) := by
  have truthful := reached.truthful recorded (List.mem_of_getElem? found)
  refine ⟨fun kind cell => truthful.get?_eq_some_iff, truthful.contains_iff, truthful.getOrInsert_spec id, ?_, ?_,
    fun operation => retains_perform reached.truthful, ?_⟩
  · intro operation allowed apart
    exact ⟨stores_perform_of_apart found apart,
      fun kind => get?_perform_of_apart reached.truthful found allowed apart kind id⟩
  · simp only [Shelf.perform, found, Option.toList_some]
  · intro cell after keeps changed
    exact ⟨rfl, fun other different => Cells.read?_change_of_ne different, change_seen truthful keeps⟩

/-- A store with a text and a tally is copied, and in the copy the text gives way to a number. The original still holds
the text, a number is refused in its place, and what is added to the tally is seen through both stores. -/
theorem storesYieldTheirLastWrites_copied :
    let label : Identifier := ⟨Identifier.defaultSpace, "label", Identifier.defaultSpace_isWord, by decide⟩
    let hits : Identifier := ⟨Identifier.defaultSpace, "hits", Identifier.defaultSpace_isWord, by decide⟩
    let operations : List (Operation CellValue) :=
      [.create, .on 0 (.insert label (.text "hello")), .on 0 (.getOrInsert hits (.tally 5)), .copy 0,
        .on 1 (.remove label), .on 1 (.insert label (.natural 7))]
    let shelf : Shelf CellValue CellKind := operations.foldl perform ⟨.empty, []⟩
    let changed := shelf.perform (.change 1 (.add 42))
    shelf.Reached ∧ ∃ original copy, shelf.stores = [original, copy] ∧
      original.store.get? shelf.cells CellKind.text label = some 0 ∧
      copy.store.get? shelf.cells CellKind.natural label = some 2 ∧
      original.store.getOrInsert shelf.cells label (CellValue.natural 0) =
        (.error (.kindMismatch label CellKind.natural), original.store, shelf.cells) ∧
      original.store.get? changed.cells CellKind.tally hits = some 1 ∧
      copy.store.get? changed.cells CellKind.tally hits = some 1 ∧
      changed.cells.read? 1 = some (.tally 47) := by
  intro label hits operations shelf changed
  have allowed : ∀ operation ∈ operations, ∀ cells, operation.Allowed cells := by
    simp [operations, Operation.Allowed, AttachmentStore.Operation.Allowed]
  have reached : shelf.Reached := (Reached.start .empty).foldl allowed
  have stores : shelf.stores =
      [⟨⟨[(label, 0), (hits, 1)]⟩, [⟨hits, some (1, .tally)⟩, ⟨label, some (0, .text)⟩]⟩,
        ⟨⟨[(hits, 1), (label, 2)]⟩,
          [⟨label, some (2, .natural)⟩, ⟨label, none⟩, ⟨hits, some (1, .tally)⟩, ⟨label, some (0, .text)⟩]⟩] := by
    decide +kernel +zetaReduce
  obtain ⟨originalFinds, originalHas, originalBuilds, -⟩ :=
    storesYieldTheirLastWrites reached (congrArg (·[0]?) stores) label
  obtain ⟨copyFinds, -⟩ := storesYieldTheirLastWrites reached (congrArg (·[1]?) stores) label
  obtain ⟨-, -, -, -, -, -, originalSees⟩ := storesYieldTheirLastWrites reached (congrArg (·[0]?) stores) hits
  obtain ⟨-, -, -, -, -, -, copySees⟩ := storesYieldTheirLastWrites reached (congrArg (·[1]?) stores) hits
  have five : shelf.cells.read? 1 = some (.tally 5) := by decide +kernel +zetaReduce
  obtain ⟨tally, read, counted, seen⟩ := (originalSees 1 (.add 42) (CellValue.kindOf_add 42)).2.2 (by decide +kernel)
  obtain ⟨tally', read', -, seen'⟩ := (copySees 1 (.add 42) (CellValue.kindOf_add 42)).2.2 (by decide +kernel)
  obtain rfl := Option.some.inj (read.symm.trans five)
  obtain rfl := Option.some.inj (read'.symm.trans five)
  refine ⟨reached, _, _, stores, (originalFinds _ 0).mpr (by decide +kernel),
    (copyFinds _ 2).mpr (by decide +kernel), ?_, seen, seen', counted⟩
  apply (originalBuilds (.natural 0)).2.2.2
  · exact originalHas.mpr ⟨0, .text, by decide +kernel⟩
  · decide +kernel +zetaReduce

end Shelf

end Spellcast
