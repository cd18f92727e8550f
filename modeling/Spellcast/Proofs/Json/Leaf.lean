import Mathlib.Data.List.TakeDrop
import Spellcast.Json.Printer
import Spellcast.Json.Tree

/-!
# Leaves of a JSON text read back

What is written for a number or a text is read again as one number or one text, whatever follows it. Of a binary number
only the spelling is settled here: it is written as a numeral, and which number that numeral stands for is another
question.
-/

namespace Spellcast

namespace Layout

theorem isDigit_of_mem_digitsOf
    {number : Nat} {digit : Char}
    (member : digit ∈ digitsOf number) :
    digit.isDigit = true :=
  Nat.isDigit_of_mem_toDigits (by decide) (by decide) member

theorem digitsOf_ne_nil (number : Nat) : digitsOf number ≠ [] := Nat.toDigits_ne_nil

theorem digitsOf_head?_ne_zero
    {number : Nat}
    (positive : 0 < number) :
    (digitsOf number).head? ≠ some '0' := by
  induction number using Nat.strongRecOn with
  | ind number inductionHypothesis =>
      rw [digitsOf, Nat.toDigits_eq_if (by decide)]
      by_cases small : number < 10
      · rw [if_pos small]
        simp only [List.head?_cons, ne_eq, Option.some.injEq]
        have nonzero : ∀ digit, digit < 10 → 0 < digit → Nat.digitChar digit ≠ '0' := by decide
        exact nonzero number small positive
      · have fewer : (digitsOf (number / 10)).head? ≠ some '0' :=
          inductionHypothesis (number / 10) (by omega) (by omega)
        obtain ⟨first, others, split⟩ := List.exists_cons_of_ne_nil (digitsOf_ne_nil (number / 10))
        rw [split] at fewer
        rw [if_neg small, ← digitsOf, split]
        simpa using fewer

/-- The digits are those of zero, or they do not begin with a zero. -/
theorem digitsOf_leads (number : Nat) :
    (digitsOf number).length = 1 ∨ (digitsOf number).head? ≠ some '0' := by
  cases number with
  | zero => exact .inl rfl
  | succ fewer => exact .inr (digitsOf_head?_ne_zero (Nat.succ_pos fewer))

end Layout

/-- Digits that may stand in a numeral: there is at least one. -/
def AreDigits (digits : List Char) : Prop := digits ≠ [] ∧ ∀ digit ∈ digits, digit.isDigit = true

theorem areDigits_digitsOf (number : Nat) : AreDigits (Layout.digitsOf number) :=
  ⟨Layout.digitsOf_ne_nil number, fun _ member => Layout.isDigit_of_mem_digitsOf member⟩

theorem areDigits_zero : AreDigits ['0'] := areDigits_digitsOf 0

namespace AreDigits

variable {digits : List Char}

theorem of_subset
    {part : List Char}
    (areDigits : AreDigits digits)
    (nonempty : part ≠ [])
    (inside : part ⊆ digits) :
    AreDigits part :=
  ⟨nonempty, fun _ member => areDigits.2 _ (inside member)⟩

theorem append_zeros
    (areDigits : AreDigits digits)
    (count : Nat) :
    AreDigits (digits ++ List.replicate count '0') := by
  refine ⟨List.append_ne_nil_of_left_ne_nil areDigits.1 _, ?_⟩
  intro digit member
  rcases List.mem_append.mp member with inside | isZero
  · exact areDigits.2 digit inside
  · rw [List.eq_of_mem_replicate isZero]
    rfl

theorem zeros_append
    (areDigits : AreDigits digits)
    (count : Nat) :
    AreDigits (List.replicate count '0' ++ digits) := by
  refine ⟨List.append_ne_nil_of_right_ne_nil _ areDigits.1, ?_⟩
  intro digit member
  rcases List.mem_append.mp member with isZero | inside
  · rw [List.eq_of_mem_replicate isZero]
    rfl
  · exact areDigits.2 digit inside

end AreDigits

namespace Numeral

/-- A numeral that can be written: it has digits wherever digits belong, and a leading zero stands alone. -/
structure Spelled (numeral : Numeral) : Prop where
  whole : AreDigits numeral.whole
  leads : numeral.whole.length = 1 ∨ numeral.whole.head? ≠ some '0'
  fraction : ∀ digits, numeral.fraction = some digits → AreDigits digits
  exponent : ∀ falling digits, numeral.exponent = some (falling, digits) → AreDigits digits

def fractionChars (numeral : Numeral) : List Char :=
  match numeral.fraction with
  | none => []
  | some digits => '.' :: digits

/-- The exponent with its letter and its sign; the sign of a positive one may be left out. -/
def exponentChars (signed : Bool) (numeral : Numeral) : List Char :=
  match numeral.exponent with
  | none => []
  | some (falling, digits) => 'e' :: (if falling then ['-'] else if signed then ['+'] else []) ++ digits

def body (signed : Bool) (numeral : Numeral) : List Char :=
  numeral.whole ++ numeral.fractionChars ++ numeral.exponentChars signed

end Numeral

namespace Json.Tree

variable {digits rest : List Char}

def EndsNumber (rest : List Char) : Prop :=
  ∀ first, rest.head? = some first → first.isDigit = false ∧ first ≠ '.' ∧ first ≠ 'e' ∧ first ≠ 'E'

theorem endsNumber_nil : EndsNumber [] := by
  simp [EndsNumber]

theorem endsNumber_cons
    {first : Char}
    (noDigit : first.isDigit = false)
    (other : first ≠ '.' ∧ first ≠ 'e' ∧ first ≠ 'E') :
    EndsNumber (first :: rest) := by
  rintro _ ⟨⟩
  exact ⟨noDigit, other⟩

theorem spanDigits_append
    (areDigits : ∀ digit ∈ digits, digit.isDigit = true)
    (ends : ∀ first, rest.head? = some first → first.isDigit = false) :
    spanDigits (digits ++ rest) = (digits, rest) := by
  rw [spanDigits, List.span_eq_takeWhile_dropWhile, List.takeWhile_append_of_pos areDigits,
    List.dropWhile_append_of_pos areDigits]
  cases rest with
  | nil => simp
  | cons first others => simp [ends first rfl]

theorem readExponent_of_ends
    (ends : EndsNumber rest) :
    readExponent rest = some (none, rest) := by
  cases rest with
  | nil => rfl
  | cons first others =>
      obtain ⟨-, -, small, large⟩ := ends first rfl
      rw [readExponent]
      · rintro _ ⟨⟩
        exact small rfl
      · rintro _ ⟨⟩
        exact large rfl

theorem readExponent_exponentChars
    {numeral : Numeral}
    (signed : Bool)
    (spelled : numeral.Spelled)
    (ends : EndsNumber rest) :
    readExponent (numeral.exponentChars signed ++ rest) = some (numeral.exponent, rest) := by
  cases written : numeral.exponent with
  | none =>
      simpa [Numeral.exponentChars, written] using readExponent_of_ends ends
  | some exponent =>
      obtain ⟨falling, digits⟩ := exponent
      obtain ⟨nonempty, areDigits⟩ := spelled.exponent falling digits written
      have span : spanDigits (digits ++ rest) = (digits, rest) :=
        spanDigits_append areDigits fun first isFirst => (ends first isFirst).1
      obtain ⟨digit, others, rfl⟩ := List.exists_cons_of_ne_nil nonempty
      have isDigit : digit.isDigit = true := areDigits digit List.mem_cons_self
      rw [List.cons_append] at span
      cases falling with
      | true =>
          simp [Numeral.exponentChars, written, readExponent, span]
      | false =>
          cases signed with
          | true =>
              simp [Numeral.exponentChars, written, readExponent, span]
          | false =>
              have noPlus : digit ≠ '+' := by
                rintro rfl
                exact absurd isDigit (by decide)
              have noMinus : digit ≠ '-' := by
                rintro rfl
                exact absurd isDigit (by decide)
              simp [Numeral.exponentChars, written, readExponent, span, noPlus, noMinus]

theorem readNumeral_of_span
    {input whole : List Char}
    (negative : Bool)
    (span : spanDigits input = (whole, rest))
    (nonempty : whole ≠ [])
    (leads : whole.length = 1 ∨ whole.head? ≠ some '0')
    (noPoint : rest.head? ≠ some '.') :
    readNumeral negative input =
      (readExponent rest).map fun (exponent, rest) => (⟨negative, whole, none, exponent⟩, rest) := by
  rw [readNumeral, span]
  split
  · next blank => exact absurd (congrArg Prod.fst blank) nonempty
  · next zero =>
      obtain ⟨rfl, -⟩ := Prod.mk.inj zero
      simp at leads
  · next point =>
      obtain ⟨-, rfl⟩ := Prod.mk.inj point
      exact absurd rfl noPoint
  · next same =>
      obtain ⟨rfl, rfl⟩ := Prod.mk.inj same
      rfl

theorem readNumeral_of_point
    {input whole behind : List Char}
    (negative : Bool)
    (span : spanDigits input = (whole, '.' :: behind))
    (nonempty : whole ≠ [])
    (leads : whole.length = 1 ∨ whole.head? ≠ some '0')
    (fraction : spanDigits behind = (digits, rest))
    (some_digit : digits ≠ []) :
    readNumeral negative input =
      (readExponent rest).map fun (exponent, rest) => (⟨negative, whole, some digits, exponent⟩, rest) := by
  rw [readNumeral, span]
  split
  · next blank => exact absurd (congrArg Prod.fst blank) nonempty
  · next zero =>
      obtain ⟨rfl, -⟩ := Prod.mk.inj zero
      simp at leads
  · next point =>
      obtain ⟨rfl, same⟩ := Prod.mk.inj point
      obtain ⟨-, rfl⟩ := List.cons.inj same
      rw [fraction]
      split
      · next blank => exact absurd (congrArg Prod.fst blank) some_digit
      · next same =>
          obtain ⟨rfl, rfl⟩ := Prod.mk.inj same
          rfl
  · next noPoint same =>
      obtain ⟨rfl, rfl⟩ := Prod.mk.inj same
      exact (noPoint _ rfl).elim

theorem exponentChars_ends
    {numeral : Numeral} {first : Char}
    (signed : Bool)
    (ends : EndsNumber rest)
    (isFirst : (numeral.exponentChars signed ++ rest).head? = some first) :
    first.isDigit = false ∧ first ≠ '.' := by
  cases written : numeral.exponent with
  | none =>
      simp only [Numeral.exponentChars, written, List.nil_append] at isFirst
      exact ⟨(ends first isFirst).1, (ends first isFirst).2.1⟩
  | some exponent =>
      simp only [Numeral.exponentChars, written, List.cons_append, List.head?_cons, Option.some.injEq] at isFirst
      subst isFirst
      exact ⟨by decide, by decide⟩

/-- A numeral is read back from what is written of it. -/
theorem readNumeral_body
    {numeral : Numeral}
    (signed : Bool)
    (spelled : numeral.Spelled)
    (ends : EndsNumber rest) :
    readNumeral numeral.negative (numeral.body signed ++ rest) = some (numeral, rest) := by
  have exponent := readExponent_exponentChars signed spelled ends
  obtain ⟨nonempty, areDigits⟩ := spelled.whole
  have behind : ∀ first, (numeral.exponentChars signed ++ rest).head? = some first →
      first.isDigit = false ∧ first ≠ '.' := fun _ isFirst => exponentChars_ends signed ends isFirst
  rw [Numeral.body, List.append_assoc, List.append_assoc]
  cases written : numeral.fraction with
  | none =>
      have chars : numeral.fractionChars = [] := by simp [Numeral.fractionChars, written]
      have span := spanDigits_append areDigits fun first isFirst => (behind first isFirst).1
      rw [chars, List.nil_append, readNumeral_of_span _ span nonempty spelled.leads fun point => (behind '.' point).2 rfl,
        exponent, Option.map_some, ← written]
  | some digits =>
      obtain ⟨some_digit, digitsAll⟩ := spelled.fraction digits written
      have chars : numeral.fractionChars = '.' :: digits := by simp [Numeral.fractionChars, written]
      have fraction := spanDigits_append digitsAll fun first isFirst => (behind first isFirst).1
      have span : spanDigits (numeral.whole ++ '.' :: (digits ++ (numeral.exponentChars signed ++ rest))) =
          (numeral.whole, '.' :: (digits ++ (numeral.exponentChars signed ++ rest))) := by
        refine spanDigits_append areDigits ?_
        rintro _ ⟨⟩
        decide
      rw [chars, List.cons_append, readNumeral_of_point _ span nonempty spelled.leads fraction some_digit, exponent,
        Option.map_some, ← written]

def readNumber : List Char → Option (Numeral × List Char)
  | '-' :: rest => readNumeral true rest
  | rest => readNumeral false rest

theorem readNumber_of_negative
    {numeral : Numeral}
    (signed : Bool)
    (spelled : numeral.Spelled)
    (negative : numeral.negative = true)
    (ends : EndsNumber rest) :
    readNumber ('-' :: numeral.body signed ++ rest) = some (numeral, rest) := by
  rw [List.cons_append, readNumber, ← negative]
  exact readNumeral_body signed spelled ends

theorem readNumber_of_positive
    {numeral : Numeral}
    (signed : Bool)
    (spelled : numeral.Spelled)
    (positive : numeral.negative = false)
    (ends : EndsNumber rest) :
    readNumber (numeral.body signed ++ rest) = some (numeral, rest) := by
  obtain ⟨nonempty, areDigits⟩ := spelled.whole
  obtain ⟨digit, others, whole⟩ := List.exists_cons_of_ne_nil nonempty
  have isDigit : digit.isDigit = true := areDigits digit (by simp [whole])
  have read := readNumeral_body signed spelled ends
  rw [positive] at read
  rw [readNumber]
  · exact read
  · simp only [Numeral.body, whole, List.cons_append]
    rintro _ ⟨⟩
    exact absurd isDigit (by decide)

end Json.Tree

namespace Json

open Spellcast.Json.Tree (EndsNumber readNumber readNumber_of_negative readNumber_of_positive)

variable {rest : List Char}

def intNumeral (value : Int) : Numeral :=
  ⟨decide (value < 0), Layout.digitsOf value.natAbs, none, none⟩

theorem intNumeral_spelled (value : Int) : (intNumeral value).Spelled where
  whole := areDigits_digitsOf value.natAbs
  leads := Layout.digitsOf_leads value.natAbs
  fraction := by simp [intNumeral]
  exponent := by simp [intNumeral]

theorem readNumber_intChars
    (value : Int)
    (ends : EndsNumber rest) :
    readNumber (intChars value ++ rest) = some (intNumeral value, rest) := by
  have body : (intNumeral value).body false = Layout.digitsOf value.natAbs := by
    simp [Numeral.body, intNumeral, Numeral.fractionChars, Numeral.exponentChars]
  by_cases below : value < 0
  · rw [intChars, if_pos below, ← body]
    exact readNumber_of_negative false (intNumeral_spelled value) (by simp [intNumeral, below]) ends
  · rw [intChars, if_neg below, ← body]
    exact readNumber_of_positive false (intNumeral_spelled value) (by simp [intNumeral, below]) ends

end Json

namespace Binary64

theorem nearestOnGrid?_positive
    {number : Binary64} {exponent : Int} {decimal : Decimal}
    (found : number.nearestOnGrid? exponent = some decimal) :
    0 < decimal.digits := by
  have passed := List.find?_some found
  simp only [Bool.and_eq_true, decide_eq_true_eq] at passed
  exact passed.1

/-- The shortest decimal is positive, or it is a plain zero. -/
theorem shortest_plain
    {number : Binary64}
    (zero : number.shortest.digits = 0) :
    number.shortest.exponent = 0 := by
  have default_plain : ∀ found : Option Decimal, (∀ decimal, found = some decimal → 0 < decimal.digits) →
      (found.getD ⟨0, 0⟩).digits = 0 → (found.getD ⟨0, 0⟩).exponent = 0 := by
    intro found positive zero
    cases found with
    | none => rfl
    | some decimal => exact absurd zero (Nat.ne_of_gt (positive decimal rfl))
  rw [shortest] at zero ⊢
  refine default_plain _ (fun decimal found => ?_) zero
  obtain ⟨count, -, onGrid⟩ := List.exists_of_findSome?_eq_some found
  exact nearestOnGrid?_positive onGrid

end Binary64

namespace Layout

variable {decimal : Decimal}

theorem trim_plain
    (plain : decimal.digits = 0 → decimal.exponent = 0)
    (fuel : Nat) :
    (trim decimal fuel).digits = 0 → (trim decimal fuel).exponent = 0 := by
  induction fuel generalizing decimal with
  | zero =>
      exact plain
  | succ fuel inductionHypothesis =>
      rw [trim]
      split
      · next ends =>
          exact inductionHypothesis fun zero => by
            simp only at zero
            omega
      · exact plain

/-- A decimal is written as a numeral, unless it is a zero with an exponent. -/
theorem exists_numeral_of_decimal
    (layout : Layout)
    (negative : Bool)
    (plain : decimal.digits = 0 → decimal.exponent = 0) :
    ∃ numeral : Numeral, numeral.Spelled ∧ numeral.negative = negative ∧
      layout.decimalChars decimal = numeral.body layout.signedExponent := by
  have areDigits := areDigits_digitsOf decimal.digits
  have leads : decimal.exponent ≠ 0 → (digitsOf decimal.digits).head? ≠ some '0' := by
    intro scaled
    exact digitsOf_head?_ne_zero (by omega)
  have single := digitsOf_leads decimal.digits
  simp only [decimalChars]
  generalize digitsOf decimal.digits = digits at *
  generalize isLeading : ↑digits.length + decimal.exponent - 1 = leading
  obtain ⟨digit, others, rfl⟩ := List.exists_cons_of_ne_nil areDigits.1
  have first : AreDigits [digit] := areDigits.of_subset (by simp) (by simp)
  have power := areDigits_digitsOf leading.natAbs
  split
  · -- One digit, the others behind the point, and an exponent.
    cases others with
    | nil =>
        refine ⟨⟨negative, [digit], none, some (decide (leading < 0), digitsOf leading.natAbs)⟩, ?_, rfl, ?_⟩
        · exact ⟨first, .inl rfl, by simp, by simp [power]⟩
        · simp [Numeral.body, Numeral.fractionChars, Numeral.exponentChars]
    | cons second more =>
        have fraction : AreDigits (second :: more) := areDigits.of_subset (by simp) (List.subset_cons_self _ _)
        refine ⟨⟨negative, [digit], some (second :: more), some (decide (leading < 0), digitsOf leading.natAbs)⟩,
          ?_, rfl, ?_⟩
        · exact ⟨first, .inl rfl, by simp [fraction], by simp [power]⟩
        · simp [Numeral.body, Numeral.fractionChars, Numeral.exponentChars]
  · split
    · -- All digits and some zeros in front of the point.
      next natural =>
      refine ⟨⟨negative, digit :: others ++ List.replicate decimal.exponent.toNat '0', some ['0'], none⟩, ?_, rfl, ?_⟩
      · refine ⟨areDigits.append_zeros _, ?_, by simp [areDigits_zero], by simp⟩
        by_cases scaled : decimal.exponent = 0
        · simpa [scaled] using single
        · exact .inr (by simpa using leads scaled)
      · simp [Numeral.body, Numeral.fractionChars, Numeral.exponentChars]
    · next negativeExponent =>
      have scaled : decimal.exponent ≠ 0 := by omega
      split
      · -- The point stands among the digits.
        next inside =>
        have length : ((digit :: others).length : Int) + decimal.exponent - 1 = leading := isLeading
        obtain ⟨count, isCount⟩ : ∃ count, (leading + 1).toNat = count + 1 := ⟨leading.toNat, by omega⟩
        have fewer : count < others.length := by
          simp only [List.length_cons] at length
          omega
        refine ⟨⟨negative, digit :: others.take count, some (others.drop count), none⟩, ?_, rfl, ?_⟩
        · refine ⟨?_, .inr (by simpa using leads scaled), ?_, by simp⟩
          · exact areDigits.of_subset (by simp) (List.cons_subset_cons _ (List.take_subset _ _))
          · rintro _ ⟨⟩
            exact areDigits.of_subset (by simp [fewer]) (List.subset_cons_of_subset _ (List.drop_subset _ _))
        · simp [Numeral.body, Numeral.fractionChars, Numeral.exponentChars, isCount]
      · -- All digits behind the point, and zeros in front of them.
        refine ⟨⟨negative, ['0'], some (List.replicate (-leading - 1).toNat '0' ++ digit :: others), none⟩, ?_, rfl, ?_⟩
        · refine ⟨areDigits_zero, .inl rfl, ?_, by simp⟩
          rintro _ ⟨⟩
          exact areDigits.zeros_append _
        · simp [Numeral.body, Numeral.fractionChars, Numeral.exponentChars]

/-- Every binary number is written as a numeral behind its sign. -/
theorem exists_numeral
    (layout : Layout)
    (number : Binary64) :
    ∃ numeral : Numeral, numeral.Spelled ∧ numeral.negative = number.isNegative ∧
      layout.chars number =
        if number.isNegative then '-' :: numeral.body layout.signedExponent else numeral.body layout.signedExponent := by
  by_cases zero : number.magnitude = 0
  · refine ⟨⟨number.isNegative, ['0'], some ['0'], none⟩, ?_, rfl, ?_⟩
    · exact ⟨areDigits_zero, .inl rfl, by simp [areDigits_zero], by simp⟩
    · simp [chars, zero, Numeral.body, Numeral.fractionChars, Numeral.exponentChars]
  · obtain ⟨numeral, spelled, sign, body⟩ :=
      exists_numeral_of_decimal layout number.isNegative (trim_plain number.shortest_plain 17)
    exact ⟨numeral, spelled, sign, by simp [chars, zero, body]⟩

end Layout

namespace Json

open Spellcast.Json.Tree (EndsNumber readNumber readNumber_of_negative readNumber_of_positive endsNumber_nil)

variable {rest : List Char}

def realNumeral (value : Binary64) : Numeral :=
  match readNumber (realLayout.chars value) with
  | some (numeral, _) => numeral
  | none => intNumeral 0

theorem readNumber_realChars
    (value : Binary64)
    (ends : EndsNumber rest) :
    readNumber (realLayout.chars value ++ rest) = some (realNumeral value, rest) := by
  obtain ⟨numeral, spelled, sign, chars⟩ := realLayout.exists_numeral value
  have read : ∀ rest, EndsNumber rest → readNumber (realLayout.chars value ++ rest) = some (numeral, rest) := by
    intro rest ends
    rw [chars]
    cases negative : value.isNegative with
    | true => exact readNumber_of_negative _ spelled (sign.trans negative) ends
    | false => exact readNumber_of_positive _ spelled (sign.trans negative) ends
  have alone := read [] endsNumber_nil
  rw [List.append_nil] at alone
  rw [realNumeral, alone]
  exact read rest ends

end Json

namespace Json

namespace Tree

variable {rest : List Char}

theorem hexValue?_hexDigit : ∀ value, value < 16 → hexValue? (hexDigit value) = some value := by
  decide

theorem readPieces_escaped
    {letter character : Char}
    (escape : escaped? letter = some character)
    (rest : List Char) :
    readPieces ('\\' :: letter :: rest) =
      (readPieces rest).map fun (pieces, rest) => (.character character :: pieces, rest) := by
  have noUnit : letter ≠ 'u' := by
    rintro rfl
    have noEscape : escaped? 'u' = none := rfl
    rw [noEscape] at escape
    cases escape
  rw [readPieces, escape]
  · cases readPieces rest <;> rfl
  · intro _ _ _ _ _ isUnit
    exact (noUnit isUnit).elim

/-- A character is read back from its escaped form. -/
theorem readPieces_escapeChar
    (character : Char)
    (rest : List Char) :
    readPieces (escapeChar character ++ rest) =
      (readPieces rest).map fun (pieces, rest) => (.character character :: pieces, rest) := by
  rw [escapeChar.eq_def]
  split
  · exact readPieces_escaped rfl rest
  · exact readPieces_escaped rfl rest
  · exact readPieces_escaped rfl rest
  · exact readPieces_escaped rfl rest
  · exact readPieces_escaped rfl rest
  · next noQuote noBackslash _ _ _ =>
      split
      · next backspace =>
          exact readPieces_escaped (by rw [← Char.ofNat_toNat character, backspace]; rfl) rest
      · split
        · next formFeed =>
            exact readPieces_escaped (by rw [← Char.ofNat_toNat character, formFeed]; rfl) rest
        · split
          · next control =>
              have high := hexValue?_hexDigit (character.toNat / 16) (by omega)
              have low := hexValue?_hexDigit (character.toNat % 16) (by omega)
              have unit : hexUnit? '0' '0' (hexDigit (character.toNat / 16)) (hexDigit (character.toNat % 16)) =
                  some character.toNat := by
                have zero : hexValue? '0' = some 0 := rfl
                have joined : character.toNat / 16 * 16 + character.toNat % 16 = character.toNat := by omega
                simp [hexUnit?, zero, high, low, joined]
              have piece : Piece.ofUnit character.toNat = .character character := by
                rw [Piece.ofUnit, if_neg (by omega), Char.ofNat_toNat]
              simp only [List.cons_append, List.nil_append]
              rw [readPieces, unit]
              cases readPieces rest with
              | none => rfl
              | some read => simp [piece]
          · next visible =>
              rw [List.singleton_append, readPieces, if_neg]
              · exact fun hidden => hidden.elim noBackslash visible
              · exact noQuote
              · rintro _ _ _ _ _ rfl
                exact (noBackslash rfl).elim
              · rintro _ _ rfl
                exact (noBackslash rfl).elim

theorem readPieces_quoted
    (content rest : List Char) :
    readPieces (content.flatMap escapeChar ++ '"' :: rest) = some (content.map .character, rest) := by
  induction content with
  | nil =>
      simp [readPieces]
  | cons character others inductionHypothesis =>
      rw [List.flatMap_cons, List.append_assoc, readPieces_escapeChar, inductionHypothesis]
      rfl

theorem content?_characters (content : List Char) : content? (content.map .character) = some content := by
  induction content with
  | nil =>
      rfl
  | cons character others inductionHypothesis =>
      simp [content?, inductionHypothesis]

/-- A text is read back from its quoted form. -/
theorem readText_quoted
    (content : String)
    (rest : List Char) :
    quoted content ++ rest = '"' :: (content.toList.flatMap escapeChar ++ '"' :: rest) ∧
      readText (content.toList.flatMap escapeChar ++ '"' :: rest) = some (some content, rest) := by
  refine ⟨by simp [quoted], ?_⟩
  simp [readText, readPieces_quoted, content?_characters]

end Tree

end Json

end Spellcast
