import Mathlib.Data.List.TakeDrop
import Spellcast.Identifier

/-!
# Identifiers read back

The joined form of an identifier splits at its only colon, so reading it gives the identifier back.
-/

namespace Spellcast.Identifier

theorem make_eq_ok (id : Identifier) : make id.space id.path = .ok id := by
  obtain ⟨space, path, ⟨spaceFilled, spaceAllowed⟩, ⟨pathFilled, pathAllowed⟩⟩ := id
  have spaceClean : space.toList.find? (! isSpaceChar ·) = none := by simpa using spaceAllowed
  have pathClean : path.toList.find? (! isPathChar ·) = none := by simpa using pathAllowed
  rw [make, dif_neg (by simp [spaceFilled, pathFilled])]
  split
  · next found => rw [spaceClean] at found; cases found
  · split
    · next found => rw [pathClean] at found; cases found
    · rfl

/-- The joined form is read back. -/
theorem parse_text (id : Identifier) : parse id.text = .ok id := by
  have clean : ∀ character ∈ id.space.toList, (character != ':') = true := by
    intro character member
    have allowed := List.all_eq_true.mp id.space_isWord.2 character member
    simp only [bne_iff_ne, ne_eq]
    rintro rfl
    exact absurd allowed (by decide)
  have split : id.text.toList.span (· != ':') = (id.space.toList, ':' :: id.path.toList) := by
    rw [text, String.toList_append, String.toList_append, List.append_assoc, List.span_eq_takeWhile_dropWhile,
      List.takeWhile_append_of_pos clean, List.dropWhile_append_of_pos clean]
    simp
  rw [parse, split]
  simp only [String.ofList_toList]
  exact make_eq_ok id

end Spellcast.Identifier
