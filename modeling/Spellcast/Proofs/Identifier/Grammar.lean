import Spellcast.Proofs.Identifier
import Spellcast.Proofs.Reference

/-!
# The grammar of identifiers

Two alphabets and a colon say which texts are identifiers, what an identifier is displayed as, and what is reported of
every other text. `Canonical` relates an accepted text to its display, `Sides` is the split at the first colon, and
`Refused` names the fault of two sides; none of them mentions the reader.
-/

namespace Spellcast.Identifier

def spaceAlphabet : List Char := "abcdefghijklmnopqrstuvwxyz0123456789_.-".toList

def pathAlphabet : List Char := "abcdefghijklmnopqrstuvwxyz0123456789_.-/".toList

def Clean (alphabet : List Char) (word : String) : Prop :=
  ∀ character ∈ word.toList, character ∈ alphabet

/-- The character is the first of the text that is not in the alphabet. -/
def FirstOutside (alphabet : List Char) (word : String) (character : Char) : Prop :=
  character ∉ alphabet ∧
    ∃ before after, word.toList = before ++ character :: after ∧ ∀ earlier ∈ before, earlier ∈ alphabet

theorem isSpaceChar_iff
    (character : Char) :
    isSpaceChar character = true ↔ character ∈ spaceAlphabet := by
  constructor
  · intro allowed
    have low : character.toNat < 128 := by
      simp only [isSpaceChar, Bool.or_eq_true, Bool.and_eq_true, decide_eq_true_eq, beq_iff_eq] at allowed
      rcases allowed with (((⟨_, high⟩ | ⟨_, high⟩) | rfl) | rfl) | rfl
      · exact Nat.lt_of_le_of_lt high (by decide)
      · exact Nat.lt_of_le_of_lt high (by decide)
      · decide
      · decide
      · decide
    have listed : ∀ code < 128, isSpaceChar (Char.ofNat code) = true → Char.ofNat code ∈ spaceAlphabet := by
      decide +kernel
    have same : Char.ofNat character.toNat = character := Char.ofNat_toNat character
    rw [← same] at allowed ⊢
    exact listed character.toNat low allowed
  · intro member
    have allowed : spaceAlphabet.all isSpaceChar = true := by decide
    exact List.all_eq_true.mp allowed character member

theorem isPathChar_iff
    (character : Char) :
    isPathChar character = true ↔ character ∈ pathAlphabet := by
  have alphabets : pathAlphabet = spaceAlphabet ++ ['/'] := by decide
  simp [isPathChar, isSpaceChar_iff, alphabets]

section words

variable {allowed : Char → Bool} {alphabet : List Char} {word : String}

theorem clean_iff
    (agree : ∀ character, allowed character = true ↔ character ∈ alphabet) :
    word.toList.find? (! allowed ·) = none ↔ Clean alphabet word := by
  simp [Clean, agree]

theorem isWord_iff
    (agree : ∀ character, allowed character = true ↔ character ∈ alphabet) :
    IsWord allowed word ↔ word ≠ "" ∧ Clean alphabet word := by
  simp [IsWord, Clean, agree]

theorem firstOutside_iff
    {character : Char}
    (agree : ∀ character, allowed character = true ↔ character ∈ alphabet) :
    word.toList.find? (! allowed ·) = some character ↔ FirstOutside alphabet word character := by
  simp [List.find?_eq_some_iff_append, FirstOutside, ← agree]

end words

/-- The text is an identifier, displayed as the other one. -/
inductive Canonical : String → String → Prop where
  | short {path : String} :
      path ≠ "" → Clean pathAlphabet path → Canonical path ("spellbook:" ++ path)
  | full {space path : String} :
      space ≠ "" → Clean spaceAlphabet space → path ≠ "" → Clean pathAlphabet path →
        Canonical (space ++ ":" ++ path) (space ++ ":" ++ path)

/-- The two sides of the first colon of a text; one without a colon is the path of the default space. -/
inductive Sides : String → String → String → Prop where
  | short {path : String} :
      ':' ∉ path.toList → Sides path "spellbook" path
  | full {space path : String} :
      ':' ∉ space.toList → Sides (space ++ ":" ++ path) space path

/-- What is wrong with two sides: emptiness before any character, and the space before the path. -/
inductive Refused (space path : String) : Fault → Prop where
  | empty :
      space = "" ∨ path = "" → Refused space path (.empty (space ++ ":" ++ path))
  | space {character : Char} :
      space ≠ "" → path ≠ "" → FirstOutside spaceAlphabet space character →
        Refused space path (.badCharacter (space ++ ":" ++ path) character)
  | path {character : Char} :
      space ≠ "" → path ≠ "" → Clean spaceAlphabet space → FirstOutside pathAlphabet path character →
        Refused space path (.badCharacter (space ++ ":" ++ path) character)

section sides

variable {input space path : String} {id : Identifier} {fault : Fault}

theorem make_of_empty
    (empty : space = "" ∨ path = "") :
    make space path = .error (.empty (space ++ ":" ++ path)) := by
  rw [make, dif_pos empty]

theorem make_of_space
    {character : Char}
    (filled : ¬ (space = "" ∨ path = ""))
    (outside : FirstOutside spaceAlphabet space character) :
    make space path = .error (.badCharacter (space ++ ":" ++ path) character) := by
  have spaceFault := (firstOutside_iff isSpaceChar_iff).mpr outside
  rw [make, dif_neg filled]
  split
  · next other found =>
      rw [spaceFault] at found
      cases found
      rfl
  · next none =>
      rw [spaceFault] at none
      cases none

theorem make_of_path
    {character : Char}
    (filled : ¬ (space = "" ∨ path = ""))
    (clean : Clean spaceAlphabet space)
    (outside : FirstOutside pathAlphabet path character) :
    make space path = .error (.badCharacter (space ++ ":" ++ path) character) := by
  have spaceClean := (clean_iff isSpaceChar_iff).mpr clean
  have pathFault := (firstOutside_iff isPathChar_iff).mpr outside
  rw [make, dif_neg filled]
  split
  · next other found =>
      rw [spaceClean] at found
      cases found
  · split
    · next other found =>
        rw [pathFault] at found
        cases found
        rfl
    · next none =>
        rw [pathFault] at none
        cases none

theorem make_cases
    (space path : String) :
    (∃ id, make space path = .ok id ∧ id.space = space ∧ id.path = path) ∨
      ∃ fault, make space path = .error fault ∧ Refused space path fault := by
  by_cases empty : space = "" ∨ path = ""
  · right
    exact ⟨_, make_of_empty empty, .empty empty⟩
  · obtain ⟨spaceFilled, pathFilled⟩ := not_or.mp empty
    cases spaceFault : space.toList.find? (! isSpaceChar ·) with
    | some character =>
        have outside := (firstOutside_iff isSpaceChar_iff).mp spaceFault
        right
        exact ⟨_, make_of_space empty outside, .space spaceFilled pathFilled outside⟩
    | none =>
        have spaceClean := (clean_iff isSpaceChar_iff).mp spaceFault
        cases pathFault : path.toList.find? (! isPathChar ·) with
        | some character =>
            have outside := (firstOutside_iff isPathChar_iff).mp pathFault
            right
            exact ⟨_, make_of_path empty spaceClean outside, .path spaceFilled pathFilled spaceClean outside⟩
        | none =>
            have pathClean := (clean_iff isPathChar_iff).mp pathFault
            let id : Identifier :=
              ⟨space, path, (isWord_iff isSpaceChar_iff).mpr ⟨spaceFilled, spaceClean⟩,
                (isWord_iff isPathChar_iff).mpr ⟨pathFilled, pathClean⟩⟩
            left
            exact ⟨id, make_eq_ok id, rfl, rfl⟩

theorem make_ok_iff :
    make space path = .ok id ↔ id.space = space ∧ id.path = path := by
  constructor
  · intro made
    rcases make_cases space path with ⟨other, same, spaceSame, pathSame⟩ | ⟨fault, failed, _⟩
    · rw [made] at same
      cases same
      exact ⟨spaceSame, pathSame⟩
    · rw [made] at failed
      cases failed
  · rintro ⟨rfl, rfl⟩
    exact make_eq_ok id

/-- No fault is named of two sides that make an identifier, and only one of two sides that do not. -/
theorem make_error_iff :
    make space path = .error fault ↔ Refused space path fault := by
  constructor
  · intro failed
    rcases make_cases space path with ⟨id, made, _, _⟩ | ⟨other, same, refused⟩
    · rw [failed] at made
      cases made
    · rw [failed] at same
      cases same
      exact refused
  · intro refused
    cases refused with
    | empty empty =>
        exact make_of_empty empty
    | space spaceFilled pathFilled outside =>
        exact make_of_space (not_or.mpr ⟨spaceFilled, pathFilled⟩) outside
    | path spaceFilled pathFilled clean outside =>
        exact make_of_path (not_or.mpr ⟨spaceFilled, pathFilled⟩) clean outside

theorem exists_sides
    (input : String) :
    ∃ space path, Sides input space path := by
  by_cases colon : ':' ∈ input.toList
  · obtain ⟨before, after, split, noColon⟩ := List.eq_append_cons_of_mem colon
    have joined : input = String.ofList before ++ ":" ++ String.ofList after := by
      rw [← String.toList_inj, split]
      simp
    rw [joined]
    exact ⟨_, _, .full (by simpa using noColon)⟩
  · exact ⟨_, _, .short colon⟩

theorem parse_of_sides
    (sides : Sides input space path) :
    parse input = make space path := by
  have passed : ∀ {word : String}, ':' ∉ word.toList → ∀ character ∈ word.toList, (character != ':') = true := by
    intro word noColon character member
    rw [bne_iff_ne]
    rintro rfl
    exact noColon member
  cases sides with
  | short noColon =>
      have consumed : input.toList.dropWhile (· != ':') = [] := List.dropWhile_eq_nil_iff.mpr (passed noColon)
      rw [parse, List.span_eq_takeWhile_dropWhile, consumed]
      rfl
  | full noColon =>
      have split : (space ++ ":" ++ path).toList.span (· != ':') = (space.toList, ':' :: path.toList) := by
        rw [String.toList_append, String.toList_append, List.append_assoc]
        exact span_append_cons (passed noColon) (by decide)
      rw [parse, split]
      simp only [String.ofList_toList]

end sides

theorem text_injective : Function.Injective text := by
  intro first second same
  have read : parse second.text = .ok first := same ▸ parse_text first
  rw [parse_text] at read
  cases read
  rfl

section reading

variable {input shown : String} {id : Identifier}

theorem canonical_of_parse
    (read : parse input = .ok id) :
    Canonical input id.text := by
  obtain ⟨spaceFilled, spaceClean⟩ := (isWord_iff isSpaceChar_iff).mp id.space_isWord
  obtain ⟨pathFilled, pathClean⟩ := (isWord_iff isPathChar_iff).mp id.path_isWord
  obtain ⟨space, path, sides⟩ := exists_sides input
  rw [parse_of_sides sides, make_ok_iff] at read
  obtain ⟨sameSpace, samePath⟩ := read
  rw [text, sameSpace, samePath]
  rw [sameSpace] at spaceFilled spaceClean
  rw [samePath] at pathFilled pathClean
  cases sides with
  | short noColon => exact .short pathFilled pathClean
  | full noColon => exact .full spaceFilled spaceClean pathFilled pathClean

theorem parse_of_canonical
    (canonical : Canonical input id.text) :
    parse input = .ok id := by
  generalize displayed : id.text = shown at canonical
  cases canonical with
  | short filled clean =>
      -- The short form and the full form have the same two sides.
      have noColon : ':' ∉ input.toList := by
        intro member
        exact absurd (clean ':' member) (by decide)
      have full : parse ("spellbook" ++ ":" ++ input) = make "spellbook" input := parse_of_sides (.full (by decide))
      calc
        parse input = make "spellbook" input := parse_of_sides (.short noColon)
        _ = parse id.text := by rw [displayed, ← full]; rfl
        _ = .ok id := parse_text id
  | full =>
      rw [← displayed]
      exact parse_text id

theorem exists_of_canonical
    (canonical : Canonical input shown) :
    ∃ id : Identifier, id.text = shown := by
  cases canonical with
  | short filled clean =>
      exact ⟨⟨defaultSpace, _, defaultSpace_isWord, (isWord_iff isPathChar_iff).mpr ⟨filled, clean⟩⟩, rfl⟩
  | full spaceFilled spaceClean pathFilled pathClean =>
      exact
        ⟨⟨_, _, (isWord_iff isSpaceChar_iff).mpr ⟨spaceFilled, spaceClean⟩,
          (isWord_iff isPathChar_iff).mpr ⟨pathFilled, pathClean⟩⟩, rfl⟩

end reading

/-- A text is read exactly when the grammar has it, and the identifier is the one displayed as the grammar says. What is
displayed is read back and tells identifiers apart. Of every other text the fault of its two sides is reported. -/
theorem identifiersReadAsWritten :
    (∀ input, (∃ id, parse input = .ok id) ↔ ∃ shown, Canonical input shown) ∧
      (∀ input id, parse input = .ok id ↔ Canonical input id.text) ∧
      (∀ id, parse id.text = .ok id) ∧
      (∀ first second : Identifier, first = second ↔ first.text = second.text) ∧
      ∀ input fault,
        parse input = .error fault ↔ ∃ space path, Sides input space path ∧ Refused space path fault := by
  refine ⟨?_, ?_, parse_text, fun first second => text_injective.eq_iff.symm, ?_⟩
  · intro input
    constructor
    · rintro ⟨id, read⟩
      exact ⟨id.text, canonical_of_parse read⟩
    · rintro ⟨shown, canonical⟩
      obtain ⟨id, rfl⟩ := exists_of_canonical canonical
      exact ⟨id, parse_of_canonical canonical⟩
  · intro input id
    exact ⟨canonical_of_parse, parse_of_canonical⟩
  · intro input fault
    constructor
    · intro failed
      obtain ⟨space, path, sides⟩ := exists_sides input
      rw [parse_of_sides sides] at failed
      exact ⟨space, path, sides, make_error_iff.mp failed⟩
    · rintro ⟨space, path, sides, refused⟩
      rw [parse_of_sides sides]
      exact make_error_iff.mpr refused

/-- Only the first colon separates; the second one is a wrong character of the path. -/
example : parse "ars:a:b" = .error (.badCharacter "ars:a:b" ':') := by decide

end Spellcast.Identifier
