import Mathlib.Data.List.Forall2
import Spellcast.Proofs.Isolation.Mirror

/-!
# Cells that count as the same

What an observer attaches to a context that is left behind lies in a new cell, and cells that are made later in the same
run have other numbers than they would have had. So two runs are compared by pairs of cells, one of each run. Nothing is
asked of cells that have no partner.
-/

namespace Spellcast

variable {pairs more : CellId → CellId → Prop}

/-- A cell has one partner at most, and the same value as its partner. -/
structure Cells.Paired (pairs : CellId → CellId → Prop) (cells cells' : Cells) : Prop where
  partner {cell cell' other other' : CellId} : pairs cell cell' → pairs other other' → (other' = cell' ↔ other = cell)
  values {cell cell' : CellId} : pairs cell cell' →
    ∃ value, cells.read? cell = some value ∧ cells'.read? cell' = some value

/-- Two stores have the same identifiers in the same order, with cells that are partners. -/
def AttachmentStore.Paired (pairs : CellId → CellId → Prop) (first second : AttachmentStore) : Prop :=
  List.Forall₂ (fun entry entry' => entry'.1 = entry.1 ∧ pairs entry.2 entry'.2) first.entries second.entries

def CellId.pairsWith (pairs : CellId → CellId → Prop) (new new' cell cell' : CellId) : Prop :=
  pairs cell cell' ∨ cell = new ∧ cell' = new'

namespace Cells.Paired

variable {cells cells' after after' : Cells} {cell cell' : CellId}

theorem has
    (paired : Paired pairs cells cells')
    (partners : pairs cell cell') :
    cells.Has cell ∧ cells'.Has cell' := by
  obtain ⟨value, found, found'⟩ := paired.values partners
  exact ⟨has_iff.mpr ⟨value, found⟩, has_iff.mpr ⟨value, found'⟩⟩

theorem kept
    (paired : Paired pairs cells cells')
    (same : ∀ cell, cells.Has cell → after.read? cell = cells.read? cell)
    (same' : ∀ cell, cells'.Has cell → after'.read? cell = cells'.read? cell) :
    Paired pairs after after' where
  partner := paired.partner
  values partners := by
    obtain ⟨value, found, found'⟩ := paired.values partners
    obtain ⟨has, has'⟩ := paired.has partners
    exact ⟨value, (same _ has).trans found, (same' _ has').trans found'⟩

theorem allocate
    (paired : Paired pairs cells cells')
    (value : CellValue) :
    Paired (CellId.pairsWith pairs (cells.allocate value).1 (cells'.allocate value).1) (cells.allocate value).2
      (cells'.allocate value).2 where
  partner {cell cell' other other'} partners others := by
    have old {cell cell' : CellId} (partners : pairs cell cell') :
        cell ≠ (cells.allocate value).1 ∧ cell' ≠ (cells'.allocate value).1 :=
      ⟨fun same => not_has_allocated (same ▸ (paired.has partners).1),
        fun same => not_has_allocated (same ▸ (paired.has partners).2)⟩
    rcases partners with partners | ⟨rfl, rfl⟩
    · rcases others with others | ⟨rfl, rfl⟩
      · exact paired.partner partners others
      · exact iff_of_false (old partners).2.symm (old partners).1.symm
    · rcases others with others | ⟨rfl, rfl⟩
      · exact iff_of_false (old others).2 (old others).1
      · exact iff_of_true rfl rfl
  values := by
    rintro cell cell' (partners | ⟨rfl, rfl⟩)
    · obtain ⟨held, found, found'⟩ := paired.values partners
      obtain ⟨has, has'⟩ := paired.has partners
      exact ⟨held, (read?_allocate_of_has has).trans found, (read?_allocate_of_has has').trans found'⟩
    · exact ⟨value, read?_allocate_self, read?_allocate_self⟩

/-- Counting in partners keeps their values the same. -/
theorem add
    (paired : Paired pairs cells cells')
    (partners : pairs cell cell')
    (amount : Nat) :
    Paired pairs (cells.add cell amount) (cells'.add cell' amount) where
  partner := paired.partner
  values {other other'} others := by
    obtain ⟨value, found, found'⟩ := paired.values partners
    cases value with
    | tally count =>
        by_cases same : other = cell
        · have same' : other' = cell' := (paired.partner partners others).mpr same
          rw [same, same']
          exact ⟨_, read?_add_self found, read?_add_self found'⟩
        · have different : other' ≠ cell' := fun same' => same ((paired.partner partners others).mp same')
          rw [read?_add_of_ne same, read?_add_of_ne different]
          exact paired.values others
    | natural _ | text _ | flag _ =>
        rw [add_of_not_tally found (by simp), add_of_not_tally found' (by simp)]
        exact paired.values others

end Cells.Paired

namespace AttachmentStore.Paired

variable {first second : AttachmentStore} {cells cells' : Cells} {cell cell' : CellId}

theorem mono
    (paired : Paired pairs first second)
    (larger : ∀ cell cell', pairs cell cell' → more cell cell') :
    Paired more first second :=
  List.Forall₂.imp (fun _ _ same => ⟨same.1, larger _ _ same.2⟩) paired

theorem cell?
    (paired : Paired pairs first second)
    (id : Identifier) :
    Option.Rel pairs (first.cell? id) (second.cell? id) := by
  obtain ⟨entries⟩ := first
  obtain ⟨entries'⟩ := second
  change List.Forall₂ _ entries entries' at paired
  change Option.Rel pairs (lookup id entries) (lookup id entries')
  induction paired with
  | nil =>
      exact .none
  | @cons entry entry' rest rest' same _ inductionHypothesis =>
      simp only [lookup, same.1]
      split
      · exact .some same.2
      · exact inductionHypothesis

theorem insertShared
    (paired : Paired pairs first second)
    (partners : pairs cell cell')
    (id : Identifier) :
    Paired pairs (first.insertShared id cell).2 (second.insertShared id cell').2 := by
  obtain ⟨entries⟩ := first
  obtain ⟨entries'⟩ := second
  change List.Forall₂ _ entries entries' at paired
  change List.Forall₂ _ (replace id cell entries) (replace id cell' entries')
  induction paired with
  | nil =>
      exact .cons ⟨rfl, partners⟩ .nil
  | @cons entry entry' rest rest' same still inductionHypothesis =>
      simp only [replace, same.1]
      split
      · exact .cons ⟨rfl, partners⟩ still
      · exact .cons ⟨rfl, same.2⟩ inductionHypothesis

theorem mirrors
    (paired : Paired pairs first second)
    (cellsPaired : cells.Paired pairs cells') :
    ∃ rename, first.Mirrors rename cells second cells' := by
  have only (cell : CellId) : ∃ partner, ∀ cell', pairs cell cell' → cell' = partner := by
    by_cases found : ∃ cell', pairs cell cell'
    · obtain ⟨partner, partners⟩ := found
      exact ⟨partner, fun _ others => (cellsPaired.partner partners others).mpr rfl⟩
    · exact ⟨cell, fun cell' partners => absurd ⟨cell', partners⟩ found⟩
  -- a cell without a partner may get any name, for it is in neither store
  choose rename renamed using only
  obtain ⟨entries⟩ := first
  obtain ⟨entries'⟩ := second
  change List.Forall₂ _ entries entries' at paired
  have renames : (entries' = entries.map fun entry => (entry.1, rename entry.2)) ∧
      ∀ cell ∈ entries.map (·.2), pairs cell (rename cell) := by
    induction paired with
    | nil =>
        exact ⟨rfl, fun _ member => absurd member List.not_mem_nil⟩
    | @cons entry entry' rest rest' same _ inductionHypothesis =>
        have partner : entry'.2 = rename entry.2 := renamed _ _ same.2
        have first : entry' = (entry.1, rename entry.2) := Prod.ext same.1 partner
        refine ⟨by rw [List.map_cons, ← inductionHypothesis.1, first], ?_⟩
        exact List.forall_mem_cons.mpr ⟨partner ▸ same.2, inductionHypothesis.2⟩
  obtain ⟨sameEntries, partners⟩ := renames
  refine ⟨rename, sameEntries, ?_, fun cell member => cellsPaired.values (partners cell member)⟩
  exact fun cell member other otherMember same =>
    (cellsPaired.partner (partners other otherMember) (partners cell member)).mp same

end AttachmentStore.Paired

end Spellcast
