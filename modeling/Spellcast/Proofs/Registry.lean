import Mathlib.Data.List.Induction
import Spellcast.Registry

/-!
# Registries as partial functions

Registering puts an instruction under its identifier and leaves all others where they are, so a registry finds the last
instruction that was registered under an identifier.
-/

namespace Spellcast.Registry

variable {κ : Type} {id : Identifier} {instruction : Instruction κ} {registered : List (Instruction κ)}

/-- The last of the registered instructions with an identifier. -/
def Latest (registered : List (Instruction κ)) (id : Identifier) (instruction : Instruction κ) : Prop :=
  ∃ before after, registered = before ++ instruction :: after ∧ instruction.id = id ∧ ∀ other ∈ after, other.id ≠ id

theorem Latest.id_eq
    (latest : Latest registered id instruction) :
    instruction.id = id := by
  obtain ⟨-, -, -, same, -⟩ := latest
  exact same

theorem lookup_replace
    (other : Identifier)
    (entries : List (Identifier × Instruction κ)) :
    lookup other (replace id instruction entries) = if id = other then some instruction else lookup other entries := by
  induction entries with
  | nil =>
      simp [replace, lookup]
  | cons entry rest inductionHypothesis =>
      obtain ⟨key, held⟩ := entry
      by_cases same : key = id
      · subst same
        by_cases found : key = other
        · simp [replace, lookup, found]
        · simp [replace, lookup, found]
      · by_cases found : key = other
        · have different : id ≠ other := fun equal => same (found.trans equal.symm)
          have back : other ≠ id := Ne.symm different
          simp [replace, lookup, found, different, back]
        · simp [replace, lookup, same, found, inductionHypothesis]

theorem find?_register
    (registry : Registry κ)
    (instruction : Instruction κ)
    (id : Identifier) :
    (registry.register instruction).2.find? id = if instruction.id = id then some instruction else registry.find? id :=
  lookup_replace id registry.entries

theorem ofList_append_singleton
    (registered : List (Instruction κ))
    (last : Instruction κ) :
    ofList (registered ++ [last]) = ((ofList registered).register last).2 := by
  simp [ofList]

theorem find?_ofList (registered : List (Instruction κ)) (id : Identifier) :
    (ofList registered).find? id = registered.reverse.find? (·.id = id) := by
  induction registered using List.reverseRecOn with
  | nil =>
      rfl
  | append_singleton earlier last inductionHypothesis =>
      rw [ofList_append_singleton, find?_register, inductionHypothesis, List.reverse_append, List.reverse_singleton,
        List.singleton_append, List.find?_cons]
      by_cases same : last.id = id
      · simp [same]
      · simp [same]

/-- A registry finds the last instruction registered under an identifier. -/
theorem find?_ofList_eq_some_iff :
    (ofList registered).find? id = some instruction ↔ Latest registered id instruction := by
  rw [find?_ofList, List.find?_eq_some_iff_append]
  constructor
  · rintro ⟨isId, after, before, split, unlisted⟩
    refine ⟨before.reverse, after.reverse, ?_, by simpa using isId, ?_⟩
    · simpa using congrArg List.reverse split
    · intro other member
      simpa using unlisted other (List.mem_reverse.mp member)
  · rintro ⟨before, after, rfl, isId, unlisted⟩
    refine ⟨by simpa using isId, after.reverse, before.reverse, by simp, ?_⟩
    intro other member
    simpa using unlisted other (List.mem_reverse.mp member)

/-- A registry finds nothing exactly if nothing was registered under the identifier. -/
theorem find?_ofList_eq_none_iff :
    (ofList registered).find? id = none ↔ ∀ instruction ∈ registered, instruction.id ≠ id := by
  rw [find?_ofList, List.find?_eq_none]
  simp

end Spellcast.Registry
