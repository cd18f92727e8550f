import Spellcast.Glyph
import Spellcast.Proofs.Codec

/-!
# Programs written and read again

A frame gives its program back as long as its style nests no more containers than the reader of JSON allows. The JSON form
of a program puts the style three objects deep, so there it may nest three containers fewer. Either way the binary
numbers of the style must be read back from their texts, which is not so for all of them.
-/

namespace Spellcast.Codec

open Json (depthLimit nestingOfFields rereadFields Regular Rereads)

variable {κ : Type} {codec : Codec κ} {program : Program κ} {style : Fields}

theorem compact_object_ne_empty (style : Fields) : (Json.object style).compact ≠ "" := by
  obtain ⟨first, others, chars, -⟩ := Json.exists_first .compact 0 (.object style)
  rw [Json.compact, chars]
  simp

/-- The text of a style is read as what becomes of its values. -/
theorem readStyle_writeStyle
    {read : Fields}
    (wellFormed : (Json.object style).WellFormed)
    (nested : (Json.object style).nesting ≤ depthLimit)
    (reread : rereadFields style = some read) :
    readStyle (writeStyle style) = .ok read := by
  rw [readStyle_eq_ok_iff, writeStyle]
  cases style with
  | nil =>
      exact .inl ⟨rfl, (Option.some.inj reread).symm⟩
  | cons field rest =>
      have parsed : Json.parse? (Json.object (field :: rest)).compact = some (.object read) := by
        rw [Json.parse?_compact wellFormed, if_pos nested, Json.reread, reread]
        rfl
      exact .inr ⟨compact_object_ne_empty _, parsed⟩

theorem rereadFields_eq_self_iff
    (wellFormed : (Json.object style).WellFormed) :
    rereadFields style = some style ↔ (Json.object style).Everywhere Rereads := by
  rw [Json.rereadFields_eq_self_iff _ wellFormed.2, Json.Everywhere]
  exact (and_iff_right trivial).symm

def glowing (number : Binary64) : Fields :=
  [("glow", .real number), ("path", .list [.text "\"", .object []])]

theorem wellFormed_glowing (number : Binary64) : (Json.object (glowing number)).WellFormed := by
  refine ⟨?_, trivial, ⟨trivial, trivial, ⟨List.Pairwise.nil, trivial⟩, trivial⟩, trivial⟩
  exact List.pairwise_pair.mpr (show "glow" < "path" by decide)

theorem rereadFields_glowing
    {number read : Binary64}
    (stands : (Json.realNumeral number).value? = some (.real read)) :
    rereadFields (glowing number) = some (glowing read) := by
  rw [glowing, rereadFields, Json.reread, stands]
  rfl

theorem rereadFields_glowing_defaultStrength :
    rereadFields (glowing Glyph.defaultStrength) = some (glowing Glyph.defaultStrength) :=
  rereadFields_glowing (Json.eq_real_iff.mpr (by decide +kernel))

theorem toFrame_inRange (program : Program κ) : (toFrame program).InRange := by
  rintro visual ⟨⟩
  have bounded : ∀ channel : UInt8, channel.toNat < 2 ^ 32 := fun channel => by
    have := channel.toNat_lt
    omega
  exact ⟨bounded _, bounded _, bounded _⟩

theorem shows_channels
    (color : Color)
    {text : String}
    (read : readStyle text = .ok style) :
    Shows ⟨color.red.toNat, color.green.toNat, color.blue.toNat, text⟩ ⟨color, style⟩ := by
  have bounded : ∀ channel : UInt8, channel.toNat = min channel.toNat 255 := fun channel => by
    have := channel.toNat_lt
    omega
  exact ⟨bounded _, bounded _, bounded _, readStyle_eq_ok_iff.mp read⟩

/-- A program is read back from its frame as far as its style is. -/
theorem Knows.decodeNetwork_encodeNetwork
    (knows : codec.Knows program)
    (wellFormed : (Json.object program.visual.style).WellFormed)
    (nested : (Json.object program.visual.style).nesting ≤ depthLimit)
    (fits : Wire.Fits (encodeNetwork program))
    (reread : rereadFields program.visual.style = some style) :
    codec.decodeNetwork (encodeNetwork program) = .ok ⟨program.instructions, program.visual.color, style⟩ := by
  have names : readNames (toFrame program).instructions = .ok program.ids :=
    readNames_eq_ok_iff.mpr (name_texts program.ids)
  have look : readVisual (toFrame program).visual = .ok ⟨program.visual.color, style⟩ :=
    readVisual_eq_ok_iff.mpr (shows_channels program.visual.color (readStyle_writeStyle wellFormed nested reread))
  rw [encodeNetwork, decodeNetwork_write (toFrame_inRange program) fits, names, look]
  exact knows.assemble _

section Decoded

variable {registered : List (Instruction κ)} {limit : Nat}

/-- What is found under some identifiers is found under its own. -/
theorem registered_of_found
    {ids : List Identifier} {instructions : List (Instruction κ)}
    (found : List.Forall₂ (fun id instruction => (Registry.ofList registered).find? id = some instruction) ids
      instructions) :
    ∀ instruction ∈ instructions, (Registry.ofList registered).find? instruction.id = some instruction := by
  induction found with
  | nil =>
      simp
  | cons first _ inductionHypothesis =>
      have own := (Registry.find?_ofList_eq_some_iff.mp first).id_eq
      exact List.forall_mem_cons.mpr ⟨own ▸ first, inductionHypothesis⟩

/-- A program that was put together is known to the codec, and looks like the record. -/
theorem knows_of_assemble
    {record : Record}
    (assembled : (⟨.ofList registered, limit⟩ : Codec κ).assemble record = .ok program) :
    (⟨.ofList registered, limit⟩ : Codec κ).Knows program ∧ program.visual = record.visual := by
  rw [assemble] at assembled
  split at assembled
  · cases assembled
  · next short =>
      cases resolved : (⟨.ofList registered, limit⟩ : Codec κ).resolve record.instructions with
      | error fault =>
          rw [resolved] at assembled
          cases assembled
      | ok instructions =>
          rw [resolved] at assembled
          obtain rfl := Except.ok.inj assembled
          have found := resolve_eq_ok_iff.mp resolved
          refine ⟨⟨registered_of_found found, ?_⟩, rfl⟩
          rw [Program.length, ← found.length_eq]
          exact Nat.not_lt.mp short

theorem wellFormed_of_readStyle
    {text : String}
    (read : readStyle text = .ok style) :
    (Json.object style).WellFormed ∧ (Json.object style).nesting ≤ depthLimit := by
  rcases readStyle_eq_ok_iff.mp read with ⟨-, rfl⟩ | ⟨-, parsed⟩
  · exact ⟨⟨List.Pairwise.nil, trivial⟩, by decide⟩
  · exact Json.wellFormed_of_parse? parsed

theorem wellFormed_of_gives
    {visual : Option FrameVisual} {look : Visual}
    (gives : Gives visual look) :
    (Json.object look.style).WellFormed ∧ (Json.object look.style).nesting ≤ depthLimit := by
  cases visual with
  | none =>
      obtain rfl : look = .default := gives
      exact wellFormed_of_readStyle (show readStyle "" = .ok [] from rfl)
  | some shown =>
      exact wellFormed_of_readStyle (shows_iff.mp gives).2

/-- A program from a frame is known to the codec, and its style nests no more containers than the reader allows. -/
theorem knows_of_decodeNetwork
    {bytes : Wire.Bytes}
    (decoded : (⟨.ofList registered, limit⟩ : Codec κ).decodeNetwork bytes = .ok program) :
    (⟨.ofList registered, limit⟩ : Codec κ).Knows program ∧ (Json.object program.visual.style).WellFormed ∧
      (Json.object program.visual.style).nesting ≤ depthLimit := by
  obtain ⟨frame, ids, look, -, gives, assembled⟩ := exists_frame_of_decodeNetwork decoded
  obtain ⟨knows, rfl⟩ := knows_of_assemble assembled
  exact ⟨knows, wellFormed_of_gives gives⟩

end Decoded

/-- A frame gives its program back, and every program that was decoded from bytes is written as bytes that decode to it
and are written again as they are. -/
theorem networkFormKeepsPrograms
    (registered : List (Instruction κ))
    (limit : Nat) :
    let codec : Codec κ := ⟨.ofList registered, limit⟩
    (∀ program : Program κ, codec.Knows program → (Json.object program.visual.style).WellFormed →
        (Json.object program.visual.style).nesting ≤ 127 → (Json.object program.visual.style).Everywhere Rereads →
        Wire.Fits (encodeNetwork program) →
        codec.decodeNetwork (encodeNetwork program) = .ok program) ∧
      ∀ bytes (program : Program κ), codec.decodeNetwork bytes = .ok program →
        (Json.object program.visual.style).Everywhere Rereads → Wire.Fits (encodeNetwork program) →
        codec.decodeNetwork (encodeNetwork program) = .ok program ∧
          (codec.decodeNetwork (encodeNetwork program)).map encodeNetwork = .ok (encodeNetwork program) := by
  intro codec
  constructor
  · intro program knows wellFormed nested rereads fits
    exact knows.decodeNetwork_encodeNetwork wellFormed nested fits ((rereadFields_eq_self_iff wellFormed).mpr rereads)
  · intro bytes program decoded rereads fits
    obtain ⟨knows, wellFormed, nested⟩ := knows_of_decodeNetwork decoded
    have again : codec.decodeNetwork (encodeNetwork program) = .ok program :=
      knows.decodeNetwork_encodeNetwork wellFormed nested fits ((rereadFields_eq_self_iff wellFormed).mpr rereads)
    exact ⟨again, by rw [again]; rfl⟩

/-- A program that is read from a frame with a name without a space and with a channel that is too large, and that is
written in another frame. -/
theorem networkFormKeepsPrograms_loose :
    let mark : Instruction Glyph := .plain Glyph.marksId ⟨0, .mark Glyph.marksId⟩
    let codec : Codec Glyph := ⟨.ofList [mark], 1⟩
    let style : Fields := glowing Glyph.defaultStrength
    let program : Program Glyph := ⟨[mark], ⟨255, 0, 7⟩, style⟩
    let loose : Frame := ⟨["marks"], some ⟨300, 0, 7, writeStyle style⟩⟩
    codec.Knows program ∧ (Json.object style).WellFormed ∧ (Json.object style).nesting ≤ 127 ∧
      (Json.object style).Everywhere Rereads ∧ Wire.Fits (encodeNetwork program) ∧
      loose ≠ toFrame program ∧ codec.decodeNetwork loose.write = .ok program ∧
      codec.decodeNetwork (encodeNetwork program) = .ok program ∧
      (codec.decodeNetwork (encodeNetwork program)).map encodeNetwork = .ok (encodeNetwork program) := by
  intro mark codec style program loose
  have knows : codec.Knows program := knows_singleton mark program.visual
  have wellFormed : (Json.object style).WellFormed := wellFormed_glowing _
  have nested : (Json.object style).nesting ≤ 127 := by decide
  have reread : rereadFields style = some style := rereadFields_glowing_defaultStrength
  have rereads : (Json.object style).Everywhere Rereads := (rereadFields_eq_self_iff wellFormed).mp reread
  have inRange : loose.InRange := by
    rintro _ ⟨⟩
    exact ⟨by decide, by decide, by decide⟩
  have fits : Wire.Fits (encodeNetwork program) := Frame.fits_write (toFrame_inRange program) (by decide +kernel)
  have looseFits : Wire.Fits loose.write := Frame.fits_write inRange (by decide +kernel)
  have names : readNames loose.instructions = .ok program.ids := by decide +kernel
  have styled : readStyle (writeStyle style) = .ok style := readStyle_writeStyle wellFormed nested reread
  have look : readVisual loose.visual = .ok program.visual :=
    readVisual_eq_ok_iff.mpr ⟨rfl, rfl, rfl, readStyle_eq_ok_iff.mp styled⟩
  have received : codec.decodeNetwork loose.write = .ok program := by
    rw [decodeNetwork_write inRange looseFits, names, look]
    exact knows.assemble program.visual
  have keeps := networkFormKeepsPrograms [mark] 1
  exact ⟨knows, wellFormed, nested, rereads, fits, by decide +kernel, received,
    keeps.1 program knows wellFormed nested rereads fits, (keeps.2 _ program received rereads fits).2⟩

/-- How deep the values of a style may be nested in the JSON form of a program: they stand inside of three objects. -/
def styleDepth : Nat := depthLimit - 3

/-- The JSON form of a program is read as its record, as far as its style can be read back. -/
theorem decodeJson_encodeJson
    (codec : Codec κ)
    (wellFormed : (Json.object program.visual.style).WellFormed) :
    codec.decodeJson (encodeJson program) =
      if nestingOfFields program.visual.style ≤ styleDepth then
        match rereadFields program.visual.style with
        | some style => codec.assemble ⟨program.ids, program.visual.color, style⟩
        | none => .error (.badJson .malformed)
      else .error (.badJson .malformed) := by
  have depth : nestingOfFields program.visual.style + 1 ≤ depthLimit - 2 ↔
      nestingOfFields program.visual.style ≤ styleDepth := by
    simp only [styleDepth, depthLimit]
    omega
  rw [decodeJson, encodeJson, Json.readText_pretty, Record.read_toTree]
  simp only [Record.ofProgram, Json.readMap_toTree 2 wellFormed, depth]
  by_cases nested : nestingOfFields program.visual.style ≤ styleDepth
  · rw [if_pos nested, if_pos nested]
    cases rereadFields program.visual.style <;> rfl
  · rw [if_neg nested, if_neg nested]
    rfl

/-- A known program is read back from its JSON form exactly if its style is. -/
theorem Knows.decodeJson_encodeJson_iff
    (knows : codec.Knows program)
    (wellFormed : (Json.object program.visual.style).WellFormed) :
    codec.decodeJson (encodeJson program) = .ok program ↔
      (∀ field ∈ program.visual.style, field.2.nesting ≤ 124) ∧
        (Json.object program.visual.style).Everywhere Rereads := by
  rw [decodeJson_encodeJson codec wellFormed, ← rereadFields_eq_self_iff wellFormed, ← Json.nestingOfFields_le_iff]
  by_cases nested : nestingOfFields program.visual.style ≤ styleDepth
  · rw [if_pos nested]
    cases read : rereadFields program.visual.style with
    | none =>
        simp
    | some style =>
        simp only [knows.assemble, Except.ok.injEq, Option.some.injEq]
        constructor
        · intro same
          exact ⟨nested, by rw [← same]⟩
        · rintro ⟨-, same⟩
          rw [same]
  · rw [if_neg nested]
    constructor
    · intro same
      cases same
    · intro ⟨shallow, _⟩
      exact absurd shallow nested

/-- The record of a program, and the JSON text of that record, give the program back if the values of its style nest at
most 124 containers. -/
theorem jsonFormKeepsPrograms
    (knows : codec.Knows program)
    (wellFormed : (Json.object program.visual.style).WellFormed)
    (nested : ∀ field ∈ program.visual.style, field.2.nesting ≤ 124)
    (rereads : (Json.object program.visual.style).Everywhere Rereads) :
    codec.assemble (.ofProgram program) = .ok program ∧ codec.decodeJson (encodeJson program) = .ok program :=
  ⟨knows.assemble program.visual, (knows.decodeJson_encodeJson_iff wellFormed).mpr ⟨nested, rereads⟩⟩

theorem jsonFormKeepsPrograms_glowing :
    let mark : Instruction Glyph := .plain Glyph.marksId ⟨0, .mark Glyph.marksId⟩
    let codec : Codec Glyph := ⟨.ofList [mark], 1⟩
    let style : Fields := glowing Glyph.defaultStrength
    let program : Program Glyph := ⟨[mark], ⟨255, 0, 7⟩, style⟩
    codec.Knows program ∧ (Json.object style).WellFormed ∧ (∀ field ∈ style, field.2.nesting ≤ 124) ∧
      (Json.object style).Everywhere Rereads ∧
      codec.assemble (.ofProgram program) = .ok program ∧ codec.decodeJson (encodeJson program) = .ok program := by
  intro mark codec style program
  have knows : codec.Knows program := knows_singleton mark program.visual
  have wellFormed : (Json.object style).WellFormed := wellFormed_glowing _
  have nested : ∀ field ∈ style, field.2.nesting ≤ 124 := by decide
  have reread : rereadFields style = some style := rereadFields_glowing_defaultStrength
  have rereads : (Json.object style).Everywhere Rereads := (rereadFields_eq_self_iff wellFormed).mp reread
  exact ⟨knows, wellFormed, nested, rereads, jsonFormKeepsPrograms knows wellFormed nested rereads⟩

/-- A program that was received in a frame is read back from its JSON form exactly if the values of its style nest at most
124 containers and all of its binary numbers are read back from their texts. A style that is nested deeper is refused. -/
theorem receivedProgramsAreSavedUnlessDeep
    {registered : List (Instruction κ)} {limit : Nat} {bytes : Wire.Bytes}
    (received : (⟨.ofList registered, limit⟩ : Codec κ).decodeNetwork bytes = .ok program) :
    let codec : Codec κ := ⟨.ofList registered, limit⟩
    (codec.decodeJson (encodeJson program) = .ok program ↔
        (∀ field ∈ program.visual.style, field.2.nesting ≤ 124) ∧
          (Json.object program.visual.style).Everywhere Rereads) ∧
      ((∃ field ∈ program.visual.style, 124 < field.2.nesting) →
        codec.decodeJson (encodeJson program) = .error (.badJson .malformed)) := by
  intro codec
  obtain ⟨knows, wellFormed, -⟩ := knows_of_decodeNetwork received
  refine ⟨knows.decodeJson_encodeJson_iff wellFormed, ?_⟩
  rintro ⟨field, member, deep⟩
  have exceeds : ¬ nestingOfFields program.visual.style ≤ styleDepth := by
    rw [Json.nestingOfFields_le_iff]
    intro nested
    have inside : field.2.nesting ≤ 124 := nested field member
    omega
  rw [decodeJson_encodeJson codec wellFormed, if_neg exceeds]

theorem receivedProgramsAreSavedUnlessDeep_glowing :
    let mark : Instruction Glyph := .plain Glyph.marksId ⟨0, .mark Glyph.marksId⟩
    let codec : Codec Glyph := ⟨.ofList [mark], 1⟩
    let program : Program Glyph := ⟨[mark], ⟨255, 0, 7⟩, glowing Glyph.defaultStrength⟩
    codec.decodeNetwork (encodeNetwork program) = .ok program ∧ codec.decodeJson (encodeJson program) = .ok program := by
  intro mark codec program
  have knows : codec.Knows program := knows_singleton mark program.visual
  have wellFormed : (Json.object program.visual.style).WellFormed := wellFormed_glowing _
  have reread : rereadFields program.visual.style = some program.visual.style := rereadFields_glowing_defaultStrength
  have fits : Wire.Fits (encodeNetwork program) := Frame.fits_write (toFrame_inRange program) (by decide +kernel)
  have received : codec.decodeNetwork (encodeNetwork program) = .ok program :=
    knows.decodeNetwork_encodeNetwork wellFormed (by decide) fits reread
  have nested : ∀ field ∈ program.visual.style, field.2.nesting ≤ 124 := by decide
  have rereads : (Json.object program.visual.style).Everywhere Rereads := (rereadFields_eq_self_iff wellFormed).mp reread
  exact ⟨received, (receivedProgramsAreSavedUnlessDeep received).1.mpr ⟨nested, rereads⟩⟩

/-- Lists in one another, so many around an empty one. -/
def boxes : Nat → Json
  | 0 => .list []
  | count + 1 => .list [boxes count]

theorem wellFormed_boxes (count : Nat) : (boxes count).WellFormed := by
  induction count with
  | zero => exact ⟨trivial, trivial⟩
  | succ count inductionHypothesis => exact ⟨trivial, inductionHypothesis, trivial⟩

theorem nesting_boxes (count : Nat) : (boxes count).nesting = count + 1 := by
  induction count with
  | zero =>
      rfl
  | succ count inductionHypothesis =>
      rw [boxes, Json.nesting, Json.nestingOfItems, inductionHypothesis, Json.nestingOfItems, Nat.max_zero]

theorem reread_boxes (count : Nat) : (boxes count).reread = some (boxes count) := by
  induction count with
  | zero =>
      rfl
  | succ count inductionHypothesis =>
      rw [boxes, Json.reread, Json.rereadItems, inductionHypothesis]
      rfl

/-- Two programs that are received in frames and not read back from their JSON forms. The style of one holds 125 lists in
one another, which the JSON form has no room for. The style of the other holds a binary number, received as the numeral
`1e-24`, that is written as `1.0000000000000001e-24`, and this stands for the number next to it. -/
theorem receivedProgramsAreLost :
    let mark : Instruction Glyph := .plain Glyph.marksId ⟨0, .mark Glyph.marksId⟩
    let codec : Codec Glyph := ⟨.ofList [mark], 1⟩
    let deep : Program Glyph := ⟨[mark], ⟨255, 0, 7⟩, [("deep", boxes 124)]⟩
    let bright (bits : UInt64) : Program Glyph := ⟨[mark], ⟨255, 0, 7⟩, glowing ⟨bits⟩⟩
    let sent : UInt64 := 0x3AF357C299A88EA7
    let received : UInt64 := 0x3AF357C299A88EA8
    codec.decodeNetwork (encodeNetwork deep) = .ok deep ∧
      codec.decodeJson (encodeJson deep) = .error (.badJson .malformed) ∧
      codec.decodeNetwork (encodeNetwork (bright sent)) = .ok (bright received) ∧
      codec.decodeJson (encodeJson (bright received)) = .ok (bright sent) ∧ bright sent ≠ bright received := by
  intro mark codec deep bright sent received
  have fits : ∀ program : Program Glyph, (toFrame program).weight < 2 ^ 64 → Wire.Fits (encodeNetwork program) :=
    fun program light => Frame.fits_write (toFrame_inRange program) light
  have knows : ∀ visual, codec.Knows ⟨[mark], visual⟩ := knows_singleton mark
  have wellFormed : (Json.object deep.visual.style).WellFormed :=
    ⟨List.pairwise_singleton _ _, wellFormed_boxes 124, trivial⟩
  have nested : nestingOfFields deep.visual.style = 125 := by
    simp [deep, nestingOfFields, nesting_boxes]
  have room : (Json.object deep.visual.style).nesting ≤ depthLimit := by
    rw [Json.nesting, nested]
    decide
  have reread : rereadFields deep.visual.style = some deep.visual.style := by
    rw [rereadFields, reread_boxes]
    rfl
  have noRoom : ¬ nestingOfFields deep.visual.style ≤ styleDepth := by
    rw [nested]
    decide
  have toReceived : rereadFields (bright sent).visual.style = some (bright received).visual.style :=
    rereadFields_glowing (Json.eq_real_iff.mpr (by decide +kernel))
  have toSent : rereadFields (bright received).visual.style = some (bright sent).visual.style :=
    rereadFields_glowing (Json.eq_real_iff.mpr (by decide +kernel))
  have shallow : nestingOfFields (bright received).visual.style ≤ styleDepth := by decide
  refine ⟨?_, ?_, ?_, ?_, ?_⟩
  · exact (knows _).decodeNetwork_encodeNetwork wellFormed room (fits deep (by decide +kernel)) reread
  · rw [decodeJson_encodeJson codec wellFormed, if_neg noRoom]
  · exact (knows _).decodeNetwork_encodeNetwork (wellFormed_glowing _) (by decide)
      (fits (bright sent) (by decide +kernel)) toReceived
  · rw [decodeJson_encodeJson codec (wellFormed_glowing _), if_pos shallow, toSent]
    exact (knows _).assemble _
  · intro same
    simp [bright, glowing, sent, received] at same

end Spellcast.Codec
