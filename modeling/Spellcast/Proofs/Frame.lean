import Mathlib.Algebra.Order.Ring.Nat
import Spellcast.Frame

/-!
# Frames read back

Numbers, keys and fields are read back from their bytes whatever follows them, and so is every row of fields that a
message can have. A frame is such a row: what is left out of a look has the value that a look starts with.
-/

namespace Spellcast

namespace Wire

variable {number levels : Nat} {rest : Bytes}

/-- The length is a number of 64 bits, as that of everything a machine holds is. -/
def Fits (bytes : Bytes) : Prop := bytes.length < 2 ^ 64

theorem writeNumber_ne_nil (number : Nat) : writeNumber number ≠ [] := by
  rw [writeNumber]
  split <;> simp

theorem readDigits?_writeNumber_of_lt
    {count : Nat}
    (small : number < 128) :
    readDigits? (count + 1) (writeNumber number ++ rest) = some (number, rest) := by
  have last : UInt8.ofNat number < 128 := by
    rw [UInt8.lt_iff_toNat_lt, UInt8.toNat_ofNat']
    simp only [UInt8.reduceToNat]
    omega
  have value : number % 256 = number := by omega
  rw [writeNumber, if_pos small]
  simp [readDigits?, last, value]

theorem readDigits?_writeNumber
    {count : Nat}
    (bounded : number < 128 ^ (count + 1)) :
    readDigits? (count + 1) (writeNumber number ++ rest) = some (number, rest) := by
  induction count generalizing number with
  | zero =>
      exact readDigits?_writeNumber_of_lt (by simpa using bounded)
  | succ count inductionHypothesis =>
      by_cases small : number < 128
      · exact readDigits?_writeNumber_of_lt small
      · have more : ¬ UInt8.ofNat (number % 128 + 128) < 128 := by
          rw [UInt8.lt_iff_toNat_lt, UInt8.toNat_ofNat']
          simp only [UInt8.reduceToNat]
          omega
        have low : (number % 128 + 128) % 256 % 128 = number % 128 := by omega
        have high : number / 128 < 128 ^ (count + 1) := by
          rw [Nat.div_lt_iff_lt_mul (by decide), ← Nat.pow_succ]
          exact bounded
        rw [writeNumber, if_neg small]
        simp only [List.cons_append, readDigits?, if_neg more, inductionHypothesis high, Option.map_some,
          UInt8.toNat_ofNat', Nat.reducePow, low, Nat.mod_add_div]

theorem readNumber?_writeNumber
    (bounded : number < 2 ^ 64) :
    readNumber? (writeNumber number ++ rest) = some (number, rest) := by
  have digits : readDigits? longestNumber (writeNumber number ++ rest) = some (number, rest) :=
    readDigits?_writeNumber (by omega)
  simp only [readNumber?, digits]
  exact if_pos (by omega)

theorem Kind.ofCode?_code (kind : Kind) : ofCode? kind.code = some kind := by
  cases kind <;> rfl

theorem Kind.code_lt (kind : Kind) : kind.code < 8 := by
  cases kind <;> decide

theorem Key.read?_write
    {key : Key}
    (positive : 0 < key.field)
    (narrow : key.field < 2 ^ 29) :
    Key.read? (key.write ++ rest) = some (key, rest) := by
  have code := key.kind.code_lt
  have kind : (key.field * 8 + key.kind.code) % 8 = key.kind.code := by omega
  have field : (key.field * 8 + key.kind.code) / 8 = key.field := by omega
  have inside : key.field * 8 + key.kind.code ≤ 0xFFFFFFFF ∧ 8 ≤ key.field * 8 + key.kind.code := by omega
  rw [Key.read?, Key.write, readNumber?_writeNumber (by omega)]
  simp [inside, kind, field, Kind.ofCode?_code]

theorem readContent?_writeContent
    {content : Bytes}
    (fits : Fits content) :
    readContent? (writeContent content ++ rest) = some (content, rest) := by
  rw [readContent?, writeContent, List.append_assoc, readNumber?_writeNumber fits]
  simp

/-- A field that is written so that it can be read back: its number can stand in a key, and its value is there and in
range. -/
structure Field.Writable (field : Field) : Prop where
  positive : 0 < field.number
  narrow : field.number < 2 ^ 29
  value : match field.value with
    | .number value => value < 2 ^ 64
    | .content bytes => Fits bytes
    | .skipped => False

theorem Field.read?_write
    {field : Field}
    (writable : field.Writable) :
    Field.read? levels (field.write ++ rest) = some (field, rest) := by
  obtain ⟨positive, narrow, inRange⟩ := writable
  obtain ⟨fieldNumber, value⟩ := field
  have key : ∀ kind rest, Key.read? (Key.write ⟨fieldNumber, kind⟩ ++ rest) = some (⟨fieldNumber, kind⟩, rest) :=
    fun _ _ => Key.read?_write positive narrow
  cases value with
  | number value =>
      simp only [Field.write, List.append_assoc, Field.read?, key]
      simp [readNumber?_writeNumber inRange]
  | content bytes =>
      simp only [Field.write, List.append_assoc, Field.read?, key]
      simp [readContent?_writeContent inRange]
  | skipped =>
      exact inRange.elim

theorem Field.write_ne_nil
    {field : Field}
    (writable : field.Writable) :
    field.write ≠ [] := by
  obtain ⟨-, -, inRange⟩ := writable
  obtain ⟨fieldNumber, value⟩ := field
  cases value with
  | number value => simp [Field.write, Key.write, writeNumber_ne_nil]
  | content bytes => simp [Field.write, Key.write, writeNumber_ne_nil]
  | skipped => exact inRange.elim

theorem readFields?_write
    {fields : List Field}
    (writable : ∀ field ∈ fields, field.Writable)
    {bound : Nat}
    (enough : (write fields).length ≤ bound) :
    readFields? levels bound (write fields) = some fields := by
  induction fields generalizing bound with
  | nil =>
      simp [write, readFields?]
  | cons field others inductionHypothesis =>
      have first : field.Writable := writable field List.mem_cons_self
      have bytes : write (field :: others) = field.write ++ write others := by simp [write]
      rw [bytes, List.length_append] at enough
      have some_byte : 0 < field.write.length := List.length_pos_iff.mpr (Field.write_ne_nil first)
      obtain ⟨bound, rfl⟩ : ∃ fewer, bound = fewer + 1 := ⟨bound - 1, by omega⟩
      have others_read : readFields? levels bound (write others) = some others :=
        inductionHypothesis (fun other member => writable other (List.mem_cons_of_mem _ member)) (by omega)
      rw [bytes]
      obtain ⟨byte, bytes, split⟩ := List.exists_cons_of_ne_nil (Field.write_ne_nil first)
      have step : Field.read? levels (byte :: (bytes ++ write others)) = some (field, write others) := by
        rw [← List.cons_append, ← split]
        exact Field.read?_write first
      rw [split, List.cons_append, readFields?, step]
      · simp [others_read]
      · exact List.cons_ne_nil _ _

/-- A message is read back as the row of fields that was written. -/
theorem read?_write
    {fields : List Field}
    (writable : ∀ field ∈ fields, field.Writable) :
    read? levels (write fields) = some fields :=
  readFields?_write writable (Nat.le_refl _)

theorem length_write_le
    {fields : List Field} {field : Field}
    (member : field ∈ fields) :
    field.write.length ≤ (write fields).length := by
  obtain ⟨before, after, rfl⟩ := List.append_of_mem member
  simp only [write, List.flatMap_append, List.flatMap_cons, List.length_append]
  omega

/-- The content of a field is no longer than the message. -/
theorem length_content_le
    {fields : List Field} {bytes : Bytes}
    (member : ⟨number, .content bytes⟩ ∈ fields) :
    bytes.length ≤ (write fields).length := by
  refine Nat.le_trans ?_ (length_write_le member)
  simp only [Field.write, writeContent, List.length_append]
  omega

theorem length_writeNumber_le
    (count : Nat)
    (bounded : number < 128 ^ (count + 1)) :
    (writeNumber number).length ≤ count + 1 := by
  induction count generalizing number with
  | zero =>
      have small : number < 128 := by simpa using bounded
      rw [writeNumber, if_pos small]
      exact Nat.le_refl 1
  | succ count inductionHypothesis =>
      rw [writeNumber]
      split
      · exact Nat.succ_le_succ (Nat.zero_le _)
      · have high : number / 128 < 128 ^ (count + 1) := by
          rw [Nat.div_lt_iff_lt_mul (by decide), ← Nat.pow_succ]
          exact bounded
        exact Nat.succ_le_succ (inductionHypothesis high)

def Field.payload (field : Field) : Nat :=
  match field.value with
  | .content bytes => bytes.length
  | _ => 0

/-- Besides what it carries, a field takes ten bytes for its key and ten for a number or a length at most. -/
theorem Field.length_write_le
    {field : Field}
    (writable : field.Writable) :
    field.write.length ≤ field.payload + 20 := by
  obtain ⟨fieldNumber, value⟩ := field
  obtain ⟨-, narrow, inRange⟩ := writable
  have key : ∀ kind, (Key.write ⟨fieldNumber, kind⟩).length ≤ 10 := by
    intro kind
    have code := kind.code_lt
    have bounded : fieldNumber * 8 + kind.code < 128 ^ 10 := by
      simp only at narrow
      omega
    exact length_writeNumber_le 9 bounded
  have digits : ∀ value, value < 2 ^ 64 → (writeNumber value).length ≤ 10 :=
    fun value bounded => length_writeNumber_le 9 (by omega)
  cases value with
  | number value =>
      have keyBytes := key .number
      have valueBytes := digits value inRange
      simp only [Field.write, List.length_append, payload]
      omega
  | content bytes =>
      have keyBytes := key .content
      have lengthBytes := digits bytes.length inRange
      simp only [Field.write, writeContent, List.length_append, payload]
      omega
  | skipped =>
      exact inRange.elim

theorem length_write_le_sum
    {fields : List Field}
    (writable : ∀ field ∈ fields, field.Writable) :
    (write fields).length ≤ (fields.map fun field => field.payload + 20).sum := by
  induction fields with
  | nil =>
      exact Nat.le_refl 0
  | cons field others inductionHypothesis =>
      have first := Field.length_write_le (writable field List.mem_cons_self)
      have later := inductionHypothesis fun other member => writable other (List.mem_cons_of_mem _ member)
      simp only [write, List.flatMap_cons, List.length_append, List.map_cons, List.sum_cons] at later ⊢
      omega

theorem toText?_ofText (text : String) : toText? (ofText text) = some text := by
  have bytes : (⟨(ofText text).toArray⟩ : ByteArray) = text.toByteArray := by
    simp [ofText]
  simp only [toText?, bytes, String.fromUTF8?, text.isValidUTF8, dite_true, Option.some.injEq]
  rfl

end Wire

open Wire (Fits)

namespace FrameVisual

variable {visual : FrameVisual}

/-- The channels are 32 bits wide. -/
def InRange (visual : FrameVisual) : Prop :=
  visual.red < 2 ^ 32 ∧ visual.green < 2 ^ 32 ∧ visual.blue < 2 ^ 32

theorem channel_of_lt
    {value : Nat}
    (bounded : value < 2 ^ 32) :
    channel value = value :=
  Nat.mod_eq_of_lt bounded

theorem fits_style
    (fits : Fits (Wire.write visual.fields)) :
    Fits (Wire.ofText visual.style) := by
  cases blank : visual.style.isEmpty with
  | true =>
      rw [String.isEmpty_iff] at blank
      rw [blank]
      exact Nat.two_pow_pos 64
  | false =>
      have member : ⟨4, .content (Wire.ofText visual.style)⟩ ∈ visual.fields := by simp [fields, blank]
      exact Nat.lt_of_le_of_lt (Wire.length_content_le member) fits

theorem writable_channelField
    {number value : Nat}
    (positive : 0 < number)
    (narrow : number < 2 ^ 29)
    (bounded : value < 2 ^ 32) :
    ∀ field ∈ channelField number value, field.Writable := by
  intro field member
  rw [channelField] at member
  split at member
  · simp at member
  · obtain rfl := List.mem_singleton.mp member
    exact ⟨positive, narrow, Nat.lt_trans bounded (by decide)⟩

theorem writable_fields
    (inRange : visual.InRange)
    (fits : Fits (Wire.ofText visual.style)) :
    ∀ field ∈ visual.fields, field.Writable := by
  obtain ⟨red, green, blue⟩ := inRange
  intro field member
  simp only [fields, List.mem_append] at member
  rcases member with ((member | member) | member) | member
  · exact writable_channelField (by decide) (by decide) red field member
  · exact writable_channelField (by decide) (by decide) green field member
  · exact writable_channelField (by decide) (by decide) blue field member
  · split at member
    · simp at member
    · obtain rfl := List.mem_singleton.mp member
      exact ⟨by simp, by simp, fits⟩

theorem length_write_fields_le
    (inRange : visual.InRange)
    (fits : Fits (Wire.ofText visual.style)) :
    (Wire.write visual.fields).length ≤ (Wire.ofText visual.style).length + 80 := by
  have channels : ∀ number value,
      ((channelField number value).map fun field => field.payload + 20).sum ≤ 20 := by
    intro number value
    rw [channelField]
    split <;> simp [Wire.Field.payload]
  have red := channels 1 visual.red
  have green := channels 2 visual.green
  have blue := channels 3 visual.blue
  have style : Wire.Field.payload ⟨4, .content (Wire.ofText visual.style)⟩ = (Wire.ofText visual.style).length := rfl
  refine Nat.le_trans (Wire.length_write_le_sum (writable_fields inRange fits)) ?_
  simp only [fields, List.map_append, List.sum_append]
  split
  · rw [List.map_nil, List.sum_nil]
    omega
  · rw [List.map_singleton, List.sum_singleton, style]
    omega

/-- The fields of a look make that look. -/
theorem merge?_fields
    (inRange : visual.InRange)
    (fits : Fits (Wire.write visual.fields)) :
    empty.merge? (Wire.write visual.fields) = some visual := by
  rw [merge?, Wire.read?_write (writable_fields inRange (fits_style fits))]
  obtain ⟨red, green, blue⟩ := inRange
  obtain ⟨redValue, greenValue, blueValue, style⟩ := visual
  have addRed : (channelField 1 redValue).foldlM add? empty = some { empty with red := redValue } := by
    rw [channelField]
    split
    · next zero => simp [zero, empty]
    · simp [add?, channel_of_lt red]
  have addGreen : (channelField 2 greenValue).foldlM add? { empty with red := redValue } =
      some { empty with red := redValue, green := greenValue } := by
    rw [channelField]
    split
    · next zero => simp [zero, empty]
    · simp [add?, channel_of_lt green]
  have addBlue : (channelField 3 blueValue).foldlM add? { empty with red := redValue, green := greenValue } =
      some { empty with red := redValue, green := greenValue, blue := blueValue } := by
    rw [channelField]
    split
    · next zero => simp [zero, empty]
    · simp [add?, channel_of_lt blue]
  simp only [fields, List.foldlM_append, addRed, addGreen, addBlue, Option.bind_eq_bind, Option.bind_some]
  split
  · next blank =>
      rw [String.isEmpty_iff] at blank
      simp [blank, empty]
  · simp [add?, Wire.toText?_ofText, empty]

end FrameVisual

namespace Frame

variable {frame : Frame}

/-- The channels of the look are 32 bits wide. -/
def InRange (frame : Frame) : Prop := ∀ visual, frame.visual = some visual → visual.InRange

theorem gather_instructions
    (names : List String)
    (frame : Frame) :
    (names.map fun name => (⟨1, .content (Wire.ofText name)⟩ : Wire.Field)).foldlM add? frame =
      some { frame with instructions := frame.instructions ++ names } := by
  induction names generalizing frame with
  | nil =>
      simp
  | cons name rest inductionHypothesis =>
      simp [add?, Wire.toText?_ofText, inductionHypothesis]

theorem writable_fields
    (names : ∀ name ∈ frame.instructions, Fits (Wire.ofText name))
    (look : ∀ visual, frame.visual = some visual → Fits (Wire.write visual.fields)) :
    ∀ field ∈ frame.fields, field.Writable := by
  intro field member
  simp only [fields, List.mem_append, List.mem_map, Option.mem_toList, Option.map_eq_some_iff] at member
  rcases member with ⟨name, isName, rfl⟩ | ⟨visual, isLook, rfl⟩
  · exact ⟨by simp, by simp, names name isName⟩
  · exact ⟨by simp, by simp, look visual isLook⟩

theorem fits_name
    {name : String}
    (fits : Fits frame.write)
    (member : name ∈ frame.instructions) :
    Fits (Wire.ofText name) := by
  have isField : ⟨1, .content (Wire.ofText name)⟩ ∈ frame.fields :=
    List.mem_append_left _ (List.mem_map_of_mem member)
  exact Nat.lt_of_le_of_lt (Wire.length_content_le isField) fits

theorem fits_look
    {visual : FrameVisual}
    (fits : Fits frame.write)
    (look : frame.visual = some visual) :
    Fits (Wire.write visual.fields) := by
  have isField : ⟨2, .content (Wire.write visual.fields)⟩ ∈ frame.fields := by simp [fields, look]
  exact Nat.lt_of_le_of_lt (Wire.length_content_le isField) fits

/-- How many bytes a frame takes at most: those of its names and of its style, and those of their keys, their lengths and
the channels. -/
def weight (frame : Frame) : Nat :=
  (frame.instructions.map fun name => (Wire.ofText name).length + 20).sum +
    frame.visual.elim 0 fun visual => (Wire.ofText visual.style).length + 100

theorem fits_write
    (inRange : frame.InRange)
    (light : frame.weight < 2 ^ 64) :
    Fits frame.write := by
  have names : ∀ name ∈ frame.instructions, Fits (Wire.ofText name) := by
    intro name member
    obtain ⟨before, after, split⟩ := List.append_of_mem member
    simp only [weight, split, List.map_append, List.map_cons, List.sum_append, List.sum_cons] at light
    exact Nat.lt_of_le_of_lt (by omega) light
  have look : ∀ visual, frame.visual = some visual →
      (Wire.write visual.fields).length + 20 ≤ (Wire.ofText visual.style).length + 100 := by
    intro visual isLook
    have fits : Fits (Wire.ofText visual.style) := by
      simp only [weight, isLook, Option.elim_some] at light
      exact Nat.lt_of_le_of_lt (by omega) light
    exact Nat.add_le_add_right (FrameVisual.length_write_fields_le (inRange visual isLook) fits) 20
  have lookFits : ∀ visual, frame.visual = some visual → Fits (Wire.write visual.fields) := by
    intro visual isLook
    have bounded := look visual isLook
    simp only [weight, isLook, Option.elim_some] at light
    exact Nat.lt_of_le_of_lt (by omega) light
  refine Nat.lt_of_le_of_lt (Nat.le_trans (Wire.length_write_le_sum (writable_fields names lookFits)) ?_) light
  rw [fields, List.map_append, List.sum_append, List.map_map, weight]
  refine Nat.add_le_add (Nat.le_refl _) ?_
  cases isLook : frame.visual with
  | none => exact Nat.le_refl 0
  | some visual => exact look visual isLook

/-- A frame is read back from its bytes. -/
theorem read?_write
    (inRange : frame.InRange)
    (fits : Fits frame.write) :
    read? frame.write = some frame := by
  have writable := writable_fields (fun _ => fits_name fits) fun _ => fits_look fits
  have fieldsRead : Wire.read? levels frame.write = some frame.fields := Wire.read?_write writable
  simp only [read?, fieldsRead, fields, List.foldlM_append, gather_instructions, Option.bind_eq_bind, Option.bind_some]
  obtain ⟨instructions, visual⟩ := frame
  cases visual with
  | none =>
      simp [empty]
  | some visual =>
      have inside : Fits (Wire.write visual.fields) := fits_look fits rfl
      simp [add?, empty, FrameVisual.merge?_fields (inRange visual rfl) inside]

end Frame

end Spellcast
