import Mathlib.Algebra.Order.Ring.Nat
import Spellcast.Json.Reader
import Spellcast.Proofs.Json.Text

/-!
# JSON values read back

What the text of a value is read as: nothing if more containers are nested than the reader allows, and otherwise the
value itself, except that a binary number becomes the one its numeral stands for (`Json.reread`). On the other side,
whatever the reader answers is a value that a program can hold, and is nested no deeper than allowed.
-/

namespace Spellcast

namespace Fields

variable {key : String} {value : Json} {fields : Fields}

/-- The keys of a map are strictly increasing. -/
def Increasing (fields : Fields) : Prop := fields.Pairwise fun first second => first.1 < second.1

theorem mem_insert
    {field : String × Json}
    (member : field ∈ insert key value fields) :
    field = (key, value) ∨ field ∈ fields := by
  induction fields with
  | nil =>
      exact .inl (List.mem_singleton.mp member)
  | cons entry rest inductionHypothesis =>
      obtain ⟨other, held⟩ := entry
      rw [insert] at member
      split at member
      · rcases List.mem_cons.mp member with same | later
        · exact .inl same
        · exact .inr (List.mem_cons_of_mem _ later)
      · split at member
        · rcases List.mem_cons.mp member with same | later
          · exact .inl same
          · exact .inr later
        · rcases List.mem_cons.mp member with same | later
          · exact .inr (by simp [same])
          · rcases inductionHypothesis later with same | old
            · exact .inl same
            · exact .inr (List.mem_cons_of_mem _ old)

theorem Increasing.insert
    (increasing : fields.Increasing)
    (key : String)
    (value : Json) :
    (fields.insert key value).Increasing := by
  induction fields with
  | nil =>
      exact List.pairwise_singleton _ _
  | cons entry rest inductionHypothesis =>
      obtain ⟨other, held⟩ := entry
      obtain ⟨first, later⟩ := List.pairwise_cons.mp increasing
      rw [Fields.insert]
      split
      · next same =>
          exact List.pairwise_cons.mpr ⟨fun field member => same ▸ first field member, later⟩
      · next different =>
          split
          · next before =>
              refine List.pairwise_cons.mpr ⟨fun field member => ?_, increasing⟩
              rcases List.mem_cons.mp member with rfl | behind
              · exact before
              · exact String.lt_trans before (first field behind)
          · next notBefore =>
              refine List.pairwise_cons.mpr ⟨fun field member => ?_, inductionHypothesis later⟩
              rcases mem_insert member with rfl | behind
              · exact String.not_le.mp fun reverse => different (String.le_antisymm reverse (String.not_lt.mp notBefore))
              · exact first field behind

/-- A key behind all others is put at the end. -/
theorem insert_of_last
    (last : ∀ field ∈ fields, field.1 < key) :
    fields.insert key value = fields ++ [(key, value)] := by
  induction fields with
  | nil =>
      rfl
  | cons entry rest inductionHypothesis =>
      obtain ⟨other, held⟩ := entry
      have before : other < key := last (other, held) List.mem_cons_self
      have different : key ≠ other := by
        rintro rfl
        exact String.lt_irrefl key before
      rw [insert, if_neg different, if_neg (String.lt_asymm before),
        inductionHypothesis fun field member => last field (List.mem_cons_of_mem _ member)]
      rfl

end Fields

namespace Json

mutual

/-- The property holds of the value and of everything in it. -/
def Everywhere (holds : Json → Prop) : Json → Prop
  | list items => holds (.list items) ∧ EverywhereIn holds items
  | object fields => holds (.object fields) ∧ EverywhereUnder holds fields
  | leaf => holds leaf

def EverywhereIn (holds : Json → Prop) : List Json → Prop
  | [] => True
  | item :: rest => Everywhere holds item ∧ EverywhereIn holds rest

def EverywhereUnder (holds : Json → Prop) : List (String × Json) → Prop
  | [] => True
  | (_, value) :: rest => Everywhere holds value ∧ EverywhereUnder holds rest

end

/-- Integers fit 64 bits, and the keys of a map are increasing. -/
def Regular : Json → Prop
  | int value => -2 ^ 63 ≤ value ∧ value < 2 ^ 64
  | object fields => Fields.Increasing fields
  | _ => True

/-- A value that a program can hold. -/
def WellFormed (value : Json) : Prop := value.Everywhere Regular

/-- A binary number is read back as itself from its text. -/
def Rereads : Json → Prop
  | real value => parse? (compact (.real value)) = some (.real value)
  | _ => True

mutual

/-- How many containers are nested in the value, itself included. -/
def nesting : Json → Nat
  | list items => nestingOfItems items + 1
  | object fields => nestingOfFields fields + 1
  | _ => 0

def nestingOfItems : List Json → Nat
  | [] => 0
  | item :: rest => max (nesting item) (nestingOfItems rest)

def nestingOfFields : List (String × Json) → Nat
  | [] => 0
  | (_, value) :: rest => max (nesting value) (nestingOfFields rest)

end

theorem nestingOfFields_le_iff
    {bound : Nat}
    (fields : Fields) :
    nestingOfFields fields ≤ bound ↔ ∀ field ∈ fields, field.2.nesting ≤ bound := by
  induction fields with
  | nil =>
      simp [nestingOfFields]
  | cons field rest inductionHypothesis =>
      simp [nestingOfFields, inductionHypothesis]

theorem everywhereUnder_iff
    {holds : Json → Prop}
    (fields : Fields) :
    EverywhereUnder holds fields ↔ ∀ field ∈ fields, field.2.Everywhere holds := by
  induction fields with
  | nil =>
      simp [EverywhereUnder]
  | cons field rest inductionHypothesis =>
      simp [EverywhereUnder, inductionHypothesis]

theorem gatherWhole_of_le
    {digits : List Char} {significand : Nat}
    (bounded : Nat.ofDigitChars 10 digits significand ≤ Numeral.greatest) :
    Numeral.gatherWhole significand digits = (Nat.ofDigitChars 10 digits significand, 0) := by
  induction digits generalizing significand with
  | nil =>
      rfl
  | cons digit rest inductionHypothesis =>
      have next : 10 * significand + (digit.toNat - '0'.toNat) = significand * 10 + Numeral.digitValue digit := by
        rw [Nat.mul_comm, Numeral.digitValue]
      rw [Nat.ofDigitChars_cons, next] at bounded ⊢
      have next_le : significand * 10 + Numeral.digitValue digit ≤
          Nat.ofDigitChars 10 rest (significand * 10 + Numeral.digitValue digit) := by
        rw [Nat.ofDigitChars_eq_ofDigitChars_zero]
        exact Nat.le_trans (Nat.le_mul_of_pos_left _ (Nat.pow_pos (by decide))) (Nat.le_add_right _ _)
      rw [Numeral.gatherWhole, if_neg (Nat.not_lt.mpr (Nat.le_trans next_le bounded))]
      exact inductionHypothesis bounded

theorem gatherWhole_le
    {digits : List Char} {significand : Nat}
    (bounded : significand ≤ Numeral.greatest) :
    (Numeral.gatherWhole significand digits).1 ≤ Numeral.greatest := by
  induction digits generalizing significand with
  | nil =>
      exact bounded
  | cons digit rest inductionHypothesis =>
      rw [Numeral.gatherWhole]
      split
      · exact bounded
      · next fits => exact inductionHypothesis (Nat.not_lt.mp fits)

/-- An integer of 64 bits is read back. -/
theorem value?_intNumeral
    {value : Int}
    (lower : -2 ^ 63 ≤ value)
    (upper : value < 2 ^ 64) :
    (intNumeral value).value? = some (.int value) := by
  have gathered : Numeral.gatherWhole 0 (Layout.digitsOf value.natAbs) = (value.natAbs, 0) := by
    have digits : Nat.ofDigitChars 10 (Layout.digitsOf value.natAbs) 0 = value.natAbs := Nat.ofDigitChars_ten_toDigits
    rw [gatherWhole_of_le (by rw [digits, Numeral.greatest]; omega), digits]
  have parts : (intNumeral value).parts = (value.natAbs, 0) := by
    simp [Numeral.parts, intNumeral, gathered]
  rw [Numeral.value?, parts]
  by_cases below : value < 0
  · have inside : ¬ (value.natAbs = 0 ∨ 0x8000000000000000 < value.natAbs) := by omega
    simp only [intNumeral, below, decide_true, Bool.not_true, ne_eq, not_true_eq_false, if_false, inside,
      Bool.false_eq_true, Option.some.injEq, int.injEq]
    omega
  · simp only [intNumeral, below, decide_false, Bool.not_false, ne_eq, not_true_eq_false, if_false, if_true,
      Option.some.injEq, int.injEq]
    omega

/-- What a numeral stands for is a number, and an integer only if it fits 64 bits. -/
theorem value?_cases
    {numeral : Numeral} {value : Json}
    (stands : numeral.value? = some value) :
    (∃ number, value = .real number) ∨ ∃ number, value = .int number ∧ -2 ^ 63 ≤ number ∧ number < 2 ^ 64 := by
  have scaled : ∀ number : Option Binary64, number.map Json.real = some value → ∃ number, value = .real number := by
    intro number isReal
    obtain ⟨number, -, rfl⟩ := Option.map_eq_some_iff.mp isReal
    exact ⟨number, rfl⟩
  rcases parts : numeral.parts with ⟨significand, power⟩
  simp only [Numeral.value?, parts] at stands
  split at stands
  · split at stands
    · exact .inl (scaled _ stands)
    · split at stands
      · cases stands
      · exact .inl ⟨_, (Option.some.inj stands).symm⟩
  · split at stands
    · exact .inl (scaled _ stands)
    · next noFraction =>
        have whole : significand ≤ Numeral.greatest := by
          have gathered : (Numeral.gatherWhole 0 numeral.whole).1 ≤ Numeral.greatest := gatherWhole_le (Nat.zero_le _)
          rw [Numeral.parts, noFraction] at parts
          exact (Prod.mk.inj parts).1 ▸ gathered
        rw [Numeral.greatest] at whole
        split at stands
        · exact .inl (scaled _ stands)
        · split at stands
          · obtain rfl := Option.some.inj stands
            exact .inr ⟨_, rfl, by omega, by omega⟩
          · split at stands
            · exact .inl (scaled _ stands)
            · obtain rfl := Option.some.inj stands
              exact .inr ⟨_, rfl, by omega, by omega⟩

mutual

/-- What the text of a value is read as when nothing bounds its nesting. -/
def reread : Json → Option Json
  | int value => (intNumeral value).value?
  | real value => (realNumeral value).value?
  | list items => (rereadItems items).map .list
  | object fields => (rereadFields fields).map .object
  | leaf => some leaf

def rereadItems : List Json → Option (List Json)
  | [] => some []
  | item :: rest => do
    let first ← reread item
    let others ← rereadItems rest
    some (first :: others)

def rereadFields : List (String × Json) → Option (List (String × Json))
  | [] => some []
  | (key, value) :: rest => do
    let first ← reread value
    let others ← rereadFields rest
    some ((key, first) :: others)

end

open Spellcast.Json.Tree (toJson? toItems? toFields?)

mutual

/-- The tree of a value stands for what its text is read as, unless it is nested too deep. -/
theorem toJson?_toTree
    (value : Json)
    (depth : Nat)
    (wellFormed : value.WellFormed) :
    toJson? depth value.toTree = if value.nesting ≤ depthLimit - depth then value.reread else none := by
  match value with
  | null => simp [toTree, toJson?, nesting, reread]
  | bool value => simp [toTree, toJson?, nesting, reread]
  | int value => simp [toTree, toJson?, nesting, reread]
  | real value => simp [toTree, toJson?, nesting, reread]
  | text content => simp [toTree, toJson?, nesting, reread]
  | list items =>
      rw [toTree, toJson?, toItems?_toTrees items (depth + 1) wellFormed.2, nesting, reread]
      by_cases deep : depth < depthLimit
      · have bound : nestingOfItems items + 1 ≤ depthLimit - depth ↔ nestingOfItems items ≤ depthLimit - (depth + 1) := by
          omega
        simp only [deep, and_self, if_true, bound]
        split <;> rfl
      · have exceeds : ¬ nestingOfItems items + 1 ≤ depthLimit - depth := by omega
        simp [deep, exceeds]
  | object fields =>
      rw [toTree, toJson?, toFields?_toMembers fields [] (depth + 1) wellFormed.1 wellFormed.2, nesting, reread]
      by_cases deep : depth < depthLimit
      · have bound : nestingOfFields fields + 1 ≤ depthLimit - depth ↔
            nestingOfFields fields ≤ depthLimit - (depth + 1) := by
          omega
        simp only [deep, and_self, if_true, bound]
        split
        · cases rereadFields fields <;> rfl
        · rfl
      · have exceeds : ¬ nestingOfFields fields + 1 ≤ depthLimit - depth := by omega
        simp [deep, exceeds]

/-- So do the trees of the items. -/
theorem toItems?_toTrees
    (items : List Json)
    (depth : Nat)
    (wellFormed : EverywhereIn Regular items) :
    toItems? depth (toTrees items) = if nestingOfItems items ≤ depthLimit - depth then rereadItems items else none := by
  match items with
  | [] => simp [toTrees, toItems?, nestingOfItems, rereadItems]
  | item :: rest =>
      rw [toTrees, toItems?, toJson?_toTree item depth wellFormed.1, toItems?_toTrees rest depth wellFormed.2,
        nestingOfItems, rereadItems]
      by_cases first : item.nesting ≤ depthLimit - depth
      · by_cases others : nestingOfItems rest ≤ depthLimit - depth
        · simp [first, others]
        · simp [first, others]
      · simp [first]

/-- So do the trees of the fields, put behind what has been gathered. -/
theorem toFields?_toMembers
    (fields gathered : Fields)
    (depth : Nat)
    (increasing : (gathered ++ fields).Increasing)
    (wellFormed : EverywhereUnder Regular fields) :
    toFields? depth gathered (toMembers fields) =
      if nestingOfFields fields ≤ depthLimit - depth then (rereadFields fields).map (gathered ++ ·) else none := by
  match fields with
  | [] => simp [toMembers, toFields?, nestingOfFields, rereadFields]
  | (key, value) :: rest =>
      have before : ∀ field ∈ gathered, field.1 < key := fun field member =>
        (List.pairwise_append.mp increasing).2.2 field member (key, value) List.mem_cons_self
      have behind : ∀ first : Json, (gathered ++ [(key, first)] ++ rest).Increasing := by
        intro first
        simpa [Fields.Increasing, List.pairwise_append] using increasing
      rw [toMembers, toFields?, toJson?_toTree value depth wellFormed.1, nestingOfFields, rereadFields]
      by_cases first : value.nesting ≤ depthLimit - depth
      · cases read : value.reread with
        | none => simp [first]
        | some result =>
            simp only [first, if_true, Option.bind_eq_bind, Option.bind_some, Fields.insert_of_last before,
              toFields?_toMembers rest _ depth (behind result) wellFormed.2]
            by_cases others : nestingOfFields rest ≤ depthLimit - depth
            · cases rereadFields rest <;> simp [others, first]
            · simp [others, first]
      · simp [first]

end

theorem readText_compact
    {α : Type}
    (read : Tree → Except Unfit α)
    (value : Json) :
    readText read value.compact = read value.toTree := by
  simp only [readText, ofText_compact, if_true]
  cases read value.toTree <;> rfl

theorem readText_pretty
    {α : Type}
    (read : Tree → Except Unfit α)
    (value : Json) :
    readText read value.pretty = read value.toTree := by
  simp only [readText, ofText_pretty, if_true]
  cases read value.toTree <;> rfl

/-- What the compact text of a value is read as. -/
theorem parse?_compact
    {value : Json}
    (wellFormed : value.WellFormed) :
    parse? value.compact = if value.nesting ≤ depthLimit then value.reread else none := by
  rw [parse?, readText_compact, toJson?_toTree value 0 wellFormed, Nat.sub_zero]
  split
  · cases value.reread <;> rfl
  · rfl

theorem rereads_real_iff
    {value : Binary64} :
    Rereads (.real value) ↔ reread (.real value) = some (.real value) := by
  have wellFormed : WellFormed (.real value) := by
    rw [WellFormed, Everywhere]
    · trivial
    · rintro _ ⟨⟩
    · rintro _ ⟨⟩
  rw [Rereads, parse?_compact wellFormed, nesting, if_pos (Nat.zero_le _)]
  · rintro _ ⟨⟩
  · rintro _ ⟨⟩

/-- The binary number that a value is, if it is one. -/
def real? : Json → Option Binary64
  | real value => some value
  | _ => none

theorem eq_real_iff
    {value : Option Json} {number : Binary64} :
    value = some (.real number) ↔ value.bind real? = some number := by
  rcases value with _ | value
  · simp
  · cases value <;> simp [real?]

instance (value : Binary64) : Decidable (Rereads (.real value)) :=
  decidable_of_iff _ (rereads_real_iff.trans eq_real_iff).symm

mutual

/-- A value is read back as itself exactly if every binary number in it is. -/
theorem reread_eq_self_iff
    (value : Json)
    (wellFormed : value.WellFormed) :
    value.reread = some value ↔ value.Everywhere Rereads := by
  match value with
  | null => simp [reread, Everywhere, Rereads]
  | bool value => simp [reread, Everywhere, Rereads]
  | int value =>
      obtain ⟨lower, upper⟩ : -2 ^ 63 ≤ value ∧ value < 2 ^ 64 := wellFormed
      simp [reread, value?_intNumeral lower upper, Everywhere, Rereads]
  | real value => exact rereads_real_iff.symm
  | text content => simp [reread, Everywhere, Rereads]
  | list items =>
      simp [reread, Everywhere, Rereads, rereadItems_eq_self_iff items wellFormed.2]
  | object fields =>
      simp [reread, Everywhere, Rereads, rereadFields_eq_self_iff fields wellFormed.2]

theorem rereadItems_eq_self_iff
    (items : List Json)
    (wellFormed : EverywhereIn Regular items) :
    rereadItems items = some items ↔ EverywhereIn Rereads items := by
  match items with
  | [] => simp [rereadItems, EverywhereIn]
  | item :: rest =>
      rw [EverywhereIn, ← reread_eq_self_iff item wellFormed.1, ← rereadItems_eq_self_iff rest wellFormed.2, rereadItems]
      cases item.reread <;> cases rereadItems rest <;> simp

theorem rereadFields_eq_self_iff
    (fields : Fields)
    (wellFormed : EverywhereUnder Regular fields) :
    rereadFields fields = some fields ↔ EverywhereUnder Rereads fields := by
  match fields with
  | [] => simp [rereadFields, EverywhereUnder]
  | (key, value) :: rest =>
      rw [EverywhereUnder, ← reread_eq_self_iff value wellFormed.1, ← rereadFields_eq_self_iff rest wellFormed.2,
        rereadFields]
      cases value.reread <;> cases rereadFields rest <;> simp

end

/-- A map that a program can hold, with values that are nested no deeper than the bound. -/
structure Held (bound : Nat) (fields : Fields) : Prop where
  increasing : fields.Increasing
  wellFormed : ∀ field ∈ fields, field.2.WellFormed
  nested : ∀ field ∈ fields, field.2.nesting ≤ bound

theorem held_nil (bound : Nat) : Held bound [] :=
  ⟨List.Pairwise.nil, by simp, by simp⟩

theorem Held.insert
    {bound : Nat} {fields : Fields} {value : Json}
    (held : Held bound fields)
    (key : String)
    (wellFormed : value.WellFormed)
    (nested : value.nesting ≤ bound) :
    Held bound (fields.insert key value) where
  increasing := held.increasing.insert key value
  wellFormed field member := by
    rcases Fields.mem_insert member with rfl | old
    · exact wellFormed
    · exact held.wellFormed field old
  nested field member := by
    rcases Fields.mem_insert member with rfl | old
    · exact nested
    · exact held.nested field old

mutual

/-- Whatever a tree stands for is a value that a program can hold, nested no deeper than allowed. -/
theorem wellFormed_of_toJson?
    (tree : Tree)
    {depth : Nat} {value : Json}
    (stands : toJson? depth tree = some value) :
    value.WellFormed ∧ value.nesting ≤ depthLimit - depth := by
  match tree with
  | .null =>
      obtain rfl := Option.some.inj stands
      exact ⟨trivial, Nat.zero_le _⟩
  | .bool _ =>
      obtain rfl := Option.some.inj stands
      exact ⟨trivial, Nat.zero_le _⟩
  | .number _ =>
      rcases value?_cases stands with ⟨number, rfl⟩ | ⟨number, rfl, inRange⟩
      · exact ⟨trivial, Nat.zero_le _⟩
      · exact ⟨inRange, Nat.zero_le _⟩
  | .text _ =>
      obtain ⟨content, -, rfl⟩ := Option.map_eq_some_iff.mp stands
      exact ⟨trivial, Nat.zero_le _⟩
  | .list items closed =>
      rw [toJson?] at stands
      split at stands
      · next allowed =>
          obtain ⟨values, read, rfl⟩ := Option.map_eq_some_iff.mp stands
          obtain ⟨wellFormed, nested⟩ := wellFormed_of_toItems? items read
          exact ⟨⟨trivial, wellFormed⟩, by rw [nesting]; omega⟩
      · cases stands
  | .object members closed =>
      rw [toJson?] at stands
      split at stands
      · next allowed =>
          obtain ⟨fields, read, rfl⟩ := Option.map_eq_some_iff.mp stands
          have held := held_of_toFields? members (held_nil _) read
          have nested := (nestingOfFields_le_iff fields).mpr held.nested
          exact ⟨⟨held.increasing, (everywhereUnder_iff fields).mpr held.wellFormed⟩, by rw [nesting]; omega⟩
      · cases stands

theorem wellFormed_of_toItems?
    (items : List Tree)
    {depth : Nat} {values : List Json}
    (stand : toItems? depth items = some values) :
    EverywhereIn Regular values ∧ nestingOfItems values ≤ depthLimit - depth := by
  match items with
  | [] =>
      obtain rfl := Option.some.inj stand
      exact ⟨trivial, Nat.zero_le _⟩
  | item :: rest =>
      simp only [toItems?, Option.bind_eq_bind, Option.bind_eq_some_iff, Option.some.injEq] at stand
      obtain ⟨first, firstRead, others, othersRead, rfl⟩ := stand
      obtain ⟨firstWellFormed, firstNested⟩ := wellFormed_of_toJson? item firstRead
      obtain ⟨othersWellFormed, othersNested⟩ := wellFormed_of_toItems? rest othersRead
      exact ⟨⟨firstWellFormed, othersWellFormed⟩, Nat.max_le.mpr ⟨firstNested, othersNested⟩⟩

theorem held_of_toFields?
    (members : List (Option String × Tree))
    {depth : Nat} {gathered fields : Fields}
    (held : Held (depthLimit - depth) gathered)
    (stand : toFields? depth gathered members = some fields) :
    Held (depthLimit - depth) fields := by
  match members with
  | [] =>
      obtain rfl := Option.some.inj stand
      exact held
  | (key, value) :: rest =>
      simp only [toFields?, Option.bind_eq_bind, Option.bind_eq_some_iff] at stand
      obtain ⟨key, -, first, firstRead, othersRead⟩ := stand
      obtain ⟨wellFormed, nested⟩ := wellFormed_of_toJson? value firstRead
      exact held_of_toFields? rest (held.insert key wellFormed nested) othersRead

end

/-- Whatever a whole text is read as is a value that a program can hold, nested no deeper than allowed. -/
theorem wellFormed_of_parse?
    {text : String} {value : Json}
    (parsed : parse? text = some value) :
    value.WellFormed ∧ value.nesting ≤ depthLimit := by
  rcases read : Tree.ofText text with ⟨tree, ended⟩
  simp only [parse?, readText, read] at parsed
  cases stands : toJson? 0 tree with
  | none =>
      rw [stands] at parsed
      cases parsed
  | some result =>
      rw [stands] at parsed
      cases ended with
      | false =>
          cases parsed
      | true =>
          obtain rfl : result = value := Option.some.inj parsed
          exact wellFormed_of_toJson? tree stands

end Json

end Spellcast
