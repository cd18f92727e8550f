import Spellcast.Proofs.Json.Leaf

/-!
# JSON texts read back

The text of a value is read as one tree, in either spacing and whatever follows it. `Json.toTree` is that tree; which
value it stands for depends on its numbers and on how deep it is nested, and is not looked at here.
-/

namespace Spellcast.Json

open Spellcast.Json.Tree (EndsNumber endsNumber_cons endsNumber_nil isBlank skipBlanks)
open Spellcast.Json.Tree (readNumber readValue readItems readMembers)

variable {fuel : Nat} {rest : List Char}

mutual

def toTree : Json → Tree
  | null => .null
  | bool value => .bool value
  | int value => .number (intNumeral value)
  | real value => .number (realNumeral value)
  | text content => .text (some content)
  | list items => .list (toTrees items) true
  | object fields => .object (toMembers fields) true

def toTrees : List Json → List Tree
  | [] => []
  | item :: rest => toTree item :: toTrees rest

def toMembers : List (String × Json) → List (Option String × Tree)
  | [] => []
  | (key, value) :: rest => (some key, toTree value) :: toMembers rest

end

theorem isBlank_of_mem_gap
    {spacing : Spacing} {level : Nat} {character : Char}
    (member : character ∈ gap spacing level) :
    isBlank character = true := by
  cases spacing with
  | compact =>
      simp [gap] at member
  | indented =>
      rcases List.mem_cons.mp member with rfl | blank
      · rfl
      · rw [List.eq_of_mem_replicate blank]
        rfl

theorem skipBlanks_append
    {blanks : List Char}
    (blank : ∀ character ∈ blanks, isBlank character = true)
    (input : List Char) :
    skipBlanks (blanks ++ input) = skipBlanks input :=
  List.dropWhile_append_of_pos blank

@[simp]
theorem skipBlanks_gap
    (spacing : Spacing)
    (level : Nat)
    (input : List Char) :
    skipBlanks (gap spacing level ++ input) = skipBlanks input :=
  skipBlanks_append (fun _ member => isBlank_of_mem_gap member) input

theorem skipBlanks_cons
    {first : Char}
    (visible : isBlank first = false) :
    skipBlanks (first :: rest) = first :: rest := by
  simp [skipBlanks, visible]

theorem readValue_append
    {blanks : List Char}
    (blank : ∀ character ∈ blanks, isBlank character = true)
    (input : List Char) :
    readValue fuel (blanks ++ input) = readValue fuel input := by
  cases fuel with
  | zero => simp [readValue]
  | succ fuel => simp [readValue, skipBlanks_append blank]

@[simp]
theorem readValue_gap
    (spacing : Spacing)
    (level : Nat)
    (input : List Char) :
    readValue fuel (gap spacing level ++ input) = readValue fuel input :=
  readValue_append (fun _ member => isBlank_of_mem_gap member) input

@[simp]
theorem readItems_gap
    (spacing : Spacing)
    (level : Nat)
    (input : List Char) :
    readItems fuel (gap spacing level ++ input) = readItems fuel input := by
  cases fuel with
  | zero => simp [readItems]
  | succ fuel => simp [readItems]

@[simp]
theorem readMembers_gap
    (spacing : Spacing)
    (level : Nat)
    (input : List Char) :
    readMembers fuel (gap spacing level ++ input) = readMembers fuel input := by
  cases fuel with
  | zero => simp [readMembers]
  | succ fuel => simp [readMembers]

theorem endsNumber_gap
    (spacing : Spacing)
    (level : Nat)
    (ends : EndsNumber rest) :
    EndsNumber (gap spacing level ++ rest) := by
  cases spacing with
  | compact => exact ends
  | indented => exact endsNumber_cons (by decide) (by decide)

theorem exists_first_of_readNumber
    {input : List Char} {read : Numeral × List Char}
    (found : readNumber input = some read) :
    ∃ first others, input = first :: others ∧ (first = '-' ∨ first.isDigit = true) := by
  cases input with
  | nil =>
      simp [readNumber, Tree.readNumeral, Tree.spanDigits, List.span_eq_takeWhile_dropWhile] at found
  | cons first others =>
      refine ⟨first, others, rfl, ?_⟩
      by_cases sign : first = '-'
      · exact .inl sign
      · cases digit : first.isDigit with
        | true =>
            exact .inr rfl
        | false =>
            rw [readNumber] at found
            · simp [Tree.readNumeral, Tree.spanDigits, List.span_eq_takeWhile_dropWhile, digit] at found
            · rintro _ ⟨⟩
              exact sign rfl

theorem readValue_number
    {input : List Char} {numeral : Numeral}
    (found : readNumber input = some (numeral, rest)) :
    readValue (fuel + 1) input = (.number numeral, some rest) := by
  obtain ⟨first, others, rfl, sign | digit⟩ := exists_first_of_readNumber found
  · subst sign
    rw [readNumber] at found
    have skip : skipBlanks ('-' :: others) = '-' :: others := skipBlanks_cons (by decide)
    rw [readValue, skip]
    simp [found]
  · have other : ∀ letter : Char, letter.isDigit = false → first ≠ letter := by
      rintro letter noDigit rfl
      rw [digit] at noDigit
      cases noDigit
    have visible : isBlank first = false := by
      simp [isBlank, other ' ' rfl, other '\n' rfl, other '\t' rfl, other '\r' rfl]
    have unsigned : Tree.readNumeral false (first :: others) = some (numeral, rest) := by
      rw [readNumber] at found
      · exact found
      · rintro _ ⟨⟩
        exact other '-' rfl rfl
    rw [readValue, skipBlanks_cons visible]
    split
    · next isNull => exact absurd (List.cons.inj isNull).1 (other _ rfl)
    · next isTrue => exact absurd (List.cons.inj isTrue).1 (other _ rfl)
    · next isFalse => exact absurd (List.cons.inj isFalse).1 (other _ rfl)
    · next isText => exact absurd (List.cons.inj isText).1 (other _ rfl)
    · next isList => exact absurd (List.cons.inj isList).1 (other _ rfl)
    · next isObject => exact absurd (List.cons.inj isObject).1 (other _ rfl)
    · next isNegative => exact absurd (List.cons.inj isNegative).1 (other _ rfl)
    · rw [unsigned]

/-- The text of a value begins with a character that is neither blank nor closes a list. -/
theorem exists_first
    (spacing : Spacing)
    (level : Nat)
    (value : Json) :
    ∃ first others, chars spacing level value = first :: others ∧ isBlank first = false ∧ first ≠ ']' := by
  have number : ∀ input : List Char, (∃ read, readNumber input = some read) →
      ∃ first others, input = first :: others ∧ isBlank first = false ∧ first ≠ ']' := by
    rintro input ⟨read, found⟩
    obtain ⟨first, others, rfl, sign | digit⟩ := exists_first_of_readNumber found
    · exact ⟨first, others, rfl, by subst sign; decide, by subst sign; decide⟩
    · refine ⟨first, others, rfl, ?_, ?_⟩
      · cases blank : isBlank first with
        | false => rfl
        | true =>
            simp only [isBlank, Bool.or_eq_true, beq_iff_eq] at blank
            rcases blank with ((rfl | rfl) | rfl) | rfl <;> cases digit
      · rintro rfl
        cases digit
  cases value with
  | null => exact ⟨_, _, rfl, by decide, by decide⟩
  | bool value => cases value <;> exact ⟨_, _, rfl, by decide, by decide⟩
  | int value =>
      have read := readNumber_intChars value endsNumber_nil
      rw [List.append_nil] at read
      exact number _ ⟨_, read⟩
  | real value =>
      have read := readNumber_realChars value endsNumber_nil
      rw [List.append_nil] at read
      exact number _ ⟨_, read⟩
  | text content => exact ⟨_, _, rfl, by decide, by decide⟩
  | list items => cases items <;> exact ⟨_, _, rfl, by decide, by decide⟩
  | object fields => rcases fields with _ | ⟨⟨_, _⟩, _⟩ <;> exact ⟨_, _, rfl, by decide, by decide⟩

theorem readValue_list
    {input more : List Char} {first : Char} {items : List Tree} {behind : Tree.Rest}
    (skip : skipBlanks input = first :: more)
    (goesOn : first ≠ ']')
    (read : readItems fuel (first :: more) = (items, behind)) :
    readValue (fuel + 1) ('[' :: input) = (.list items behind.isSome, behind) := by
  rw [readValue, skipBlanks_cons (by decide)]
  simp only [skip]
  split
  · next closes => exact absurd (List.cons.inj closes).1 goesOn
  · rw [read]

theorem readValue_object
    {input more : List Char} {first : Char} {members : List (Option String × Tree)} {behind : Tree.Rest}
    (skip : skipBlanks input = first :: more)
    (goesOn : first ≠ '\x7d')
    (read : readMembers fuel (first :: more) = (members, behind)) :
    readValue (fuel + 1) ('\x7b' :: input) = (.object members behind.isSome, behind) := by
  rw [readValue, skipBlanks_cons (by decide)]
  simp only [skip]
  split
  · next closes => exact absurd (List.cons.inj closes).1 goesOn
  · rw [read]

theorem endsNumber_items
    (spacing : Spacing)
    (level outer : Nat)
    (others : List Json)
    (rest : List Char) :
    EndsNumber (itemChars spacing level others ++ (gap spacing outer ++ ']' :: rest)) := by
  cases others with
  | nil => exact endsNumber_gap _ _ (endsNumber_cons (by decide) (by decide))
  | cons item others => exact endsNumber_cons (by decide) (by decide)

theorem endsNumber_fields
    (spacing : Spacing)
    (level outer : Nat)
    (others : List (String × Json))
    (rest : List Char) :
    EndsNumber (fieldChars spacing level others ++ (gap spacing outer ++ '\x7d' :: rest)) := by
  rcases others with _ | ⟨⟨key, value⟩, others⟩
  · exact endsNumber_gap _ _ (endsNumber_cons (by decide) (by decide))
  · exact endsNumber_cons (by decide) (by decide)

theorem skipBlanks_colon
    (spacing : Spacing)
    (input : List Char) :
    ∃ blanks, skipBlanks (colon spacing ++ input) = ':' :: (blanks ++ input) ∧
      ∀ blank ∈ blanks, isBlank blank = true := by
  cases spacing with
  | compact => exact ⟨[], rfl, by simp⟩
  | indented => exact ⟨[' '], rfl, by simp [isBlank]⟩

mutual

/-- The text of a value is read as its tree, whatever follows it. -/
theorem readValue_chars
    (spacing : Spacing)
    (level : Nat)
    (value : Json)
    (fuel : Nat)
    (rest : List Char)
    (enough : (chars spacing level value).length < fuel)
    (ends : EndsNumber rest) :
    readValue fuel (chars spacing level value ++ rest) = (value.toTree, some rest) := by
  obtain ⟨fuel, rfl⟩ : ∃ fewer, fuel = fewer + 1 := ⟨fuel - 1, by omega⟩
  match value with
  | null => simp [chars, readValue, skipBlanks, isBlank, toTree]
  | bool true => simp [chars, readValue, skipBlanks, isBlank, toTree]
  | bool false => simp [chars, readValue, skipBlanks, isBlank, toTree]
  | int value => exact readValue_number (readNumber_intChars value ends)
  | real value => exact readValue_number (readNumber_realChars value ends)
  | text content =>
      obtain ⟨quotes, read⟩ := Tree.readText_quoted content rest
      rw [chars, quotes, readValue, skipBlanks_cons (by decide)]
      simp [read, toTree]
  | list [] => simp [chars, readValue, skipBlanks, isBlank, toTree, toTrees]
  | list (item :: others) =>
      have items := readItems_chars spacing (level + 1) level item others fuel rest (by
        simp only [chars, List.length_cons, List.length_append] at enough
        omega)
      obtain ⟨first, more, isFirst, visible, goesOn⟩ := exists_first spacing (level + 1) item
      rw [isFirst, List.cons_append] at items
      simp only [chars, List.cons_append, List.append_assoc, List.nil_append]
      refine readValue_list ?_ goesOn items
      rw [skipBlanks_gap, isFirst]
      exact skipBlanks_cons visible
  | object [] => simp [chars, readValue, skipBlanks, isBlank, toTree, toMembers]
  | object ((key, value) :: others) =>
      have members := readMembers_chars spacing (level + 1) level key value others fuel rest (by
        simp only [chars, List.length_cons, List.length_append] at enough
        omega)
      simp only [chars, List.cons_append, List.append_assoc, List.nil_append]
      refine readValue_object ?_ (show '"' ≠ '\x7d' by decide) members
      rw [skipBlanks_gap]
      exact skipBlanks_cons (by decide)
termination_by fuel

/-- The items of a list are read up to its closing bracket. -/
theorem readItems_chars
    (spacing : Spacing)
    (level outer : Nat)
    (item : Json)
    (others : List Json)
    (fuel : Nat)
    (rest : List Char)
    (enough : (chars spacing level item).length + (itemChars spacing level others).length + 1 < fuel) :
    readItems fuel (chars spacing level item ++ (itemChars spacing level others ++ (gap spacing outer ++ ']' :: rest))) =
      (toTrees (item :: others), some rest) := by
  obtain ⟨fuel, rfl⟩ : ∃ fewer, fuel = fewer + 1 := ⟨fuel - 1, by omega⟩
  rw [readItems, readValue_chars spacing level item fuel _ (by omega) (endsNumber_items spacing level outer others rest)]
  match others with
  | [] =>
      have visible : isBlank ']' = false := by decide
      simp only [itemChars, List.nil_append, skipBlanks_gap, skipBlanks_cons visible]
      rfl
  | next :: others =>
      have items := readItems_chars spacing level outer next others fuel rest (by
        simp only [itemChars, List.length_cons, List.length_append] at enough
        omega)
      have visible : isBlank ',' = false := by decide
      simp only [itemChars, List.cons_append, List.append_assoc, skipBlanks_cons visible, readItems_gap, items]
      rfl
termination_by fuel

/-- The fields of an object are read up to its closing brace. -/
theorem readMembers_chars
    (spacing : Spacing)
    (level outer : Nat)
    (key : String)
    (value : Json)
    (others : List (String × Json))
    (fuel : Nat)
    (rest : List Char)
    (enough : (chars spacing level value).length + (fieldChars spacing level others).length + 1 < fuel) :
    readMembers fuel (quoted key ++ (colon spacing ++ (chars spacing level value ++
      (fieldChars spacing level others ++ (gap spacing outer ++ '\x7d' :: rest))))) =
      (toMembers ((key, value) :: others), some rest) := by
  obtain ⟨fuel, rfl⟩ : ∃ fewer, fuel = fewer + 1 := ⟨fuel - 1, by omega⟩
  obtain ⟨quotes, readKey⟩ := Tree.readText_quoted key (colon spacing ++ (chars spacing level value ++
    (fieldChars spacing level others ++ (gap spacing outer ++ '\x7d' :: rest))))
  obtain ⟨blanks, isColon, blank⟩ := skipBlanks_colon spacing (chars spacing level value ++
    (fieldChars spacing level others ++ (gap spacing outer ++ '\x7d' :: rest)))
  have first := readValue_chars spacing level value fuel _ (by omega) (endsNumber_fields spacing level outer others rest)
  rw [quotes, readMembers, skipBlanks_cons (by decide)]
  simp only [readKey, isColon, readValue_append blank, first]
  match others with
  | [] =>
      have visible : isBlank '\x7d' = false := by decide
      simp only [fieldChars, List.nil_append, skipBlanks_gap, skipBlanks_cons visible]
      rfl
  | (nextKey, next) :: others =>
      have members := readMembers_chars spacing level outer nextKey next others fuel rest (by
        simp only [fieldChars, List.length_cons, List.length_append] at enough
        omega)
      have visible : isBlank ',' = false := by decide
      simp only [fieldChars, List.cons_append, List.append_assoc, skipBlanks_cons visible, readMembers_gap, members]
      rfl
termination_by fuel

end

theorem ofText_ofList_chars
    (spacing : Spacing)
    (value : Json) :
    Tree.ofText (String.ofList (chars spacing 0 value)) = (value.toTree, true) := by
  have read := readValue_chars spacing 0 value (2 * (chars spacing 0 value).length + 2) [] (by omega) endsNumber_nil
  rw [List.append_nil] at read
  simp [Tree.ofText, Tree.ofChars, read, skipBlanks]

/-- A compact text is read as the tree of its value, and nothing follows it. -/
theorem ofText_compact (value : Json) : Tree.ofText value.compact = (value.toTree, true) :=
  ofText_ofList_chars .compact value

/-- So is an indented text. -/
theorem ofText_pretty (value : Json) : Tree.ofText value.pretty = (value.toTree, true) :=
  ofText_ofList_chars .indented value

end Spellcast.Json
