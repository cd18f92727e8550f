import Mathlib.Data.List.Forall2
import Spellcast.Codec
import Spellcast.Proofs.Frame
import Spellcast.Proofs.Record
import Spellcast.Proofs.Registry

/-!
# The steps of a codec

What each step of decoding accepts and what it reports. Names and instructions are gone through in order up to the
first fault; a style is what the JSON reader takes for an object; and a frame that was written is decoded like the frame
itself.
-/

namespace Spellcast

section FirstFault

variable {α β ε : Type} {read : α → Except ε β} {item : α} {items rest : List α} {fault : ε}

theorem mapM_cons_eq_ok_iff
    {results : List β} :
    (item :: rest).mapM read = .ok results ↔
      ∃ result others, read item = .ok result ∧ rest.mapM read = .ok others ∧ results = result :: others := by
  rw [List.mapM_cons]
  cases first : read item with
  | error fault =>
      constructor
      · intro same
        cases same
      · rintro ⟨_, _, same, -⟩
        cases same
  | ok result =>
      cases later : rest.mapM read with
      | error fault =>
          constructor
          · intro same
            cases same
          · rintro ⟨_, _, -, same, -⟩
            cases same
      | ok others =>
          constructor
          · intro same
            exact ⟨result, others, rfl, rfl, (Except.ok.inj same).symm⟩
          · rintro ⟨_, _, ⟨⟩, ⟨⟩, rfl⟩
            rfl

theorem mapM_cons_eq_error_iff :
    (item :: rest).mapM read = .error fault ↔
      read item = .error fault ∨ (∃ result, read item = .ok result) ∧ rest.mapM read = .error fault := by
  rw [List.mapM_cons]
  cases first : read item with
  | error other =>
      constructor
      · intro same
        exact .inl (congrArg Except.error (Except.error.inj same))
      · rintro (same | ⟨⟨_, same⟩, -⟩)
        · exact congrArg Except.error (Except.error.inj same)
        · cases same
  | ok result =>
      cases later : rest.mapM read with
      | error other =>
          constructor
          · intro same
            exact .inr ⟨⟨result, rfl⟩, congrArg Except.error (Except.error.inj same)⟩
          · rintro (same | ⟨-, same⟩)
            · cases same
            · exact congrArg Except.error (Except.error.inj same)
      | ok others =>
          constructor
          · intro same
            cases same
          · rintro (same | ⟨-, same⟩)
            · cases same
            · cases same

/-- Reading item by item gives what the items are read as, if all of them can be read. -/
theorem mapM_eq_ok_iff
    {results : List β} :
    items.mapM read = .ok results ↔ List.Forall₂ (fun item result => read item = .ok result) items results := by
  induction items generalizing results with
  | nil =>
      simp only [List.mapM_nil, List.forall₂_nil_left_iff]
      exact ⟨fun same => (Except.ok.inj same).symm, fun same => same ▸ rfl⟩
  | cons item rest inductionHypothesis =>
      simp only [mapM_cons_eq_ok_iff, inductionHypothesis, List.forall₂_cons_left_iff]

/-- Otherwise it fails with the fault of the first item that cannot be read. -/
theorem mapM_eq_error_iff :
    items.mapM read = .error fault ↔
      ∃ before item after, items = before ++ item :: after ∧
        (∀ other ∈ before, ∃ result, read other = .ok result) ∧ read item = .error fault := by
  induction items with
  | nil =>
      constructor
      · intro same
        cases same
      · rintro ⟨before, item, after, split, -⟩
        simp at split
  | cons item rest inductionHypothesis =>
      rw [mapM_cons_eq_error_iff, inductionHypothesis]
      constructor
      · rintro (isBad | ⟨isOk, before, bad, after, rfl, areOk, isBad⟩)
        · exact ⟨[], item, rest, rfl, by simp, isBad⟩
        · exact ⟨item :: before, bad, after, rfl, List.forall_mem_cons.mpr ⟨isOk, areOk⟩, isBad⟩
      · rintro ⟨before, bad, after, split, areOk, isBad⟩
        cases before with
        | nil =>
            obtain ⟨rfl, rfl⟩ := List.cons.inj split
            exact .inl isBad
        | cons head before =>
            obtain ⟨rfl, rfl⟩ := List.cons.inj split
            obtain ⟨isOk, others⟩ := List.forall_mem_cons.mp areOk
            exact .inr ⟨isOk, before, bad, after, rfl, others, isBad⟩

end FirstFault

namespace Codec

variable {κ : Type} {codec : Codec κ}

/-- The texts name the identifiers, one by one. -/
def Name (names : List String) (ids : List Identifier) : Prop :=
  List.Forall₂ (fun name id => Identifier.parse name = .ok id) names ids

theorem readNames_eq_mapM (names : List String) :
    readNames names = names.mapM fun name => (Identifier.parse name).mapError .badIdentifier := by
  induction names with
  | nil =>
      rfl
  | cons name rest inductionHypothesis =>
      rw [readNames, List.mapM_cons, inductionHypothesis]
      cases Identifier.parse name with
      | error fault => rfl
      | ok id => rfl

theorem mapError_eq_ok_iff
    {ε δ α : Type} {change : ε → δ} {result : Except ε α} {value : α} :
    result.mapError change = .ok value ↔ result = .ok value := by
  cases result <;> simp [Except.mapError]

theorem mapError_eq_error_iff
    {ε δ α : Type} {change : ε → δ} {result : Except ε α} {fault : δ} :
    result.mapError change = .error fault ↔ ∃ cause, result = .error cause ∧ change cause = fault := by
  cases result <;> simp [Except.mapError]

theorem readNames_eq_ok_iff
    {names : List String} {ids : List Identifier} :
    readNames names = .ok ids ↔ Name names ids := by
  rw [readNames_eq_mapM, mapM_eq_ok_iff]
  simp only [mapError_eq_ok_iff, Name]

theorem readNames_eq_error_iff
    {names : List String} {fault : Fault} :
    readNames names = .error fault ↔
      ∃ before name after cause, names = before ++ name :: after ∧
        (∀ other ∈ before, ∃ id, Identifier.parse other = .ok id) ∧ Identifier.parse name = .error cause ∧
        fault = .badIdentifier cause := by
  rw [readNames_eq_mapM, mapM_eq_error_iff]
  simp only [mapError_eq_ok_iff, mapError_eq_error_iff]
  constructor
  · rintro ⟨before, name, after, split, areNames, cause, bad, rfl⟩
    exact ⟨before, name, after, cause, split, areNames, bad, rfl⟩
  · rintro ⟨before, name, after, cause, split, areNames, bad, rfl⟩
    exact ⟨before, name, after, split, areNames, cause, bad, rfl⟩

/-- Identifiers are named by their joined forms. -/
theorem name_texts (ids : List Identifier) : Name (ids.map Identifier.text) ids := by
  induction ids with
  | nil => exact .nil
  | cons id rest inductionHypothesis => exact .cons id.parse_text inductionHypothesis

/-- The instruction of an identifier, or the fault that there is none. -/
def lookUp (codec : Codec κ) (id : Identifier) : Except Fault (Instruction κ) :=
  match codec.registry.find? id with
  | some instruction => .ok instruction
  | none => .error (.unknownInstruction id.text)

theorem lookUp_eq_ok_iff
    {id : Identifier} {instruction : Instruction κ} :
    codec.lookUp id = .ok instruction ↔ codec.registry.find? id = some instruction := by
  rw [lookUp]
  cases codec.registry.find? id <;> simp

theorem lookUp_eq_error_iff
    {id : Identifier} {fault : Fault} :
    codec.lookUp id = .error fault ↔ codec.registry.find? id = none ∧ fault = .unknownInstruction id.text := by
  rw [lookUp]
  cases codec.registry.find? id <;> simp [eq_comm]

theorem resolve_eq_mapM (ids : List Identifier) : codec.resolve ids = ids.mapM codec.lookUp := by
  induction ids with
  | nil =>
      rfl
  | cons id rest inductionHypothesis =>
      rw [resolve, List.mapM_cons, inductionHypothesis, lookUp]
      cases codec.registry.find? id with
      | none => rfl
      | some instruction => rfl

theorem resolve_eq_ok_iff
    {ids : List Identifier} {instructions : List (Instruction κ)} :
    codec.resolve ids = .ok instructions ↔
      List.Forall₂ (fun id instruction => codec.registry.find? id = some instruction) ids instructions := by
  rw [resolve_eq_mapM, mapM_eq_ok_iff]
  simp only [lookUp_eq_ok_iff]

theorem resolve_eq_error_iff
    {ids : List Identifier} {fault : Fault} :
    codec.resolve ids = .error fault ↔
      ∃ before id after, ids = before ++ id :: after ∧
        (∀ other ∈ before, ∃ instruction, codec.registry.find? other = some instruction) ∧
        codec.registry.find? id = none ∧ fault = .unknownInstruction id.text := by
  rw [resolve_eq_mapM, mapM_eq_error_iff]
  simp only [lookUp_eq_ok_iff, lookUp_eq_error_iff]

/-- The style of a text is what the reader takes for an object. -/
theorem readStyle_eq (text : String) :
    readStyle text =
      if text = "" then .ok []
      else
        match Json.parse? text with
        | some (.object style) => .ok style
        | _ => .error .badStyle := by
  by_cases blank : text = ""
  · rw [if_pos blank, readStyle, blank]
    rfl
  · have filled : text.isEmpty = false := by simpa using blank
    rw [if_neg blank, readStyle, filled]
    rcases read : Json.Tree.ofText text with ⟨tree, ended⟩
    simp only [Json.parse?, Json.readText, read, Json.readMap_eq, Bool.false_eq_true, if_false]
    cases stands : Json.Tree.toJson? 0 tree with
    | none => rfl
    | some value => cases ended <;> cases value <;> rfl

theorem readStyle_eq_ok_iff
    {text : String} {style : Fields} :
    readStyle text = .ok style ↔
      text = "" ∧ style = [] ∨ text ≠ "" ∧ Json.parse? text = some (.object style) := by
  rw [readStyle_eq]
  by_cases blank : text = ""
  · simp [blank, eq_comm]
  · rw [if_neg blank]
    cases Json.parse? text with
    | none => simp [blank]
    | some value => cases value <;> simp [blank]

theorem readStyle_eq_error_iff
    {text : String} {fault : Fault} :
    readStyle text = .error fault ↔
      text ≠ "" ∧ (∀ style, Json.parse? text ≠ some (.object style)) ∧ fault = .badStyle := by
  rw [readStyle_eq]
  by_cases blank : text = ""
  · simp [blank]
  · rw [if_neg blank]
    cases Json.parse? text with
    | none => simp [blank, eq_comm]
    | some value => cases value <;> simp [blank, eq_comm]

/-- What a look in a frame shows: no channel exceeds 255, and the style is that of the text. -/
structure Shows (visual : FrameVisual) (look : Visual) : Prop where
  red : look.color.red.toNat = min visual.red 255
  green : look.color.green.toNat = min visual.green 255
  blue : look.color.blue.toNat = min visual.blue 255
  style : visual.style = "" ∧ look.style = [] ∨
    visual.style ≠ "" ∧ Json.parse? visual.style = some (.object look.style)

/-- The look that a frame gives; a frame without one gives the default look. -/
def Gives : Option FrameVisual → Visual → Prop
  | none, look => look = .default
  | some visual, look => Shows visual look

theorem toNat_channel (value : Nat) : (channel value).toNat = min value 255 := by
  rw [channel, UInt8.toNat_ofNat']
  omega

theorem shows_iff
    {visual : FrameVisual} {look : Visual} :
    Shows visual look ↔
      look.color = ⟨channel visual.red, channel visual.green, channel visual.blue⟩ ∧
        readStyle visual.style = .ok look.style := by
  rw [readStyle_eq_ok_iff]
  obtain ⟨⟨red, green, blue⟩, style⟩ := look
  constructor
  · rintro ⟨isRed, isGreen, isBlue, isStyle⟩
    refine ⟨?_, isStyle⟩
    rw [Color.mk.injEq]
    simp only [← UInt8.toNat_inj, toNat_channel]
    exact ⟨isRed, isGreen, isBlue⟩
  · rintro ⟨⟨⟩, isStyle⟩
    exact ⟨toNat_channel _, toNat_channel _, toNat_channel _, isStyle⟩

theorem readVisual_eq_ok_iff
    {visual : Option FrameVisual} {look : Visual} :
    readVisual visual = .ok look ↔ Gives visual look := by
  cases visual with
  | none =>
      rw [readVisual, Gives, Except.ok.injEq, eq_comm]
  | some given =>
      rw [Gives, shows_iff, readVisual]
      obtain ⟨color, style⟩ := look
      cases readStyle given.style with
      | error fault => simp [Except.map]
      | ok read => simp [Except.map, eq_comm]

theorem readVisual_eq_error_iff
    {visual : Option FrameVisual} {fault : Fault} :
    readVisual visual = .error fault ↔
      ∃ given, visual = some given ∧ given.style ≠ "" ∧ (∀ style, Json.parse? given.style ≠ some (.object style)) ∧
        fault = .badStyle := by
  cases visual with
  | none =>
      simp [readVisual]
  | some given =>
      have failed : readVisual (some given) = .error fault ↔ readStyle given.style = .error fault := by
        rw [readVisual]
        cases readStyle given.style <;> simp [Except.map]
      simp [failed, readStyle_eq_error_iff]

theorem decodeNetwork_of_read
    {bytes : Wire.Bytes} {frame : Frame}
    (isFrame : Frame.read? bytes = some frame) :
    codec.decodeNetwork bytes =
      match readNames frame.instructions, readVisual frame.visual with
      | .error fault, _ => .error fault
      | .ok _, .error fault => .error fault
      | .ok ids, .ok look => codec.assemble ⟨ids, look⟩ := by
  rw [decodeNetwork, isFrame]
  simp only [ofFrame]
  cases readNames frame.instructions with
  | error fault => rfl
  | ok ids =>
      cases readVisual frame.visual with
      | error fault => rfl
      | ok look => rfl

/-- A frame that was written is decoded like the frame itself: first its names are read, then its look. -/
theorem decodeNetwork_write
    {frame : Frame}
    (inRange : frame.InRange)
    (fits : Wire.Fits frame.write) :
    codec.decodeNetwork frame.write =
      match readNames frame.instructions, readVisual frame.visual with
      | .error fault, _ => .error fault
      | .ok _, .error fault => .error fault
      | .ok ids, .ok look => codec.assemble ⟨ids, look⟩ :=
  decodeNetwork_of_read (Frame.read?_write inRange fits)

/-- Bytes that are decoded are those of a frame whose names and style can be read. -/
theorem exists_frame_of_decodeNetwork
    {bytes : Wire.Bytes} {program : Program κ}
    (decoded : codec.decodeNetwork bytes = .ok program) :
    ∃ (frame : Frame) (ids : List Identifier) (look : Visual),
      Name frame.instructions ids ∧ Gives frame.visual look ∧ codec.assemble ⟨ids, look⟩ = .ok program := by
  cases isFrame : Frame.read? bytes with
  | none =>
      rw [decodeNetwork, isFrame] at decoded
      cases decoded
  | some frame =>
      rw [decodeNetwork_of_read isFrame] at decoded
      split at decoded
      · cases decoded
      · cases decoded
      · next ids look names visual =>
          exact ⟨frame, ids, look, readNames_eq_ok_iff.mp names, readVisual_eq_ok_iff.mp visual, decoded⟩

/-- A program that the codec can decode: every instruction is the one registered under its identifier, and there are no
more than allowed. -/
structure Knows (codec : Codec κ) (program : Program κ) : Prop where
  registered : ∀ instruction ∈ program.instructions, codec.registry.find? instruction.id = some instruction
  short : program.length ≤ codec.maxLength

theorem knows_singleton
    (instruction : Instruction κ)
    (visual : Visual) :
    (⟨.ofList [instruction], 1⟩ : Codec κ).Knows ⟨[instruction], visual⟩ where
  registered other member := by
    obtain rfl := List.mem_singleton.mp member
    exact Registry.find?_ofList_eq_some_iff.mpr ⟨[], [], rfl, rfl, by simp⟩
  short := Nat.le_refl 1

/-- A known program is made from the names of its instructions and its look. -/
theorem Knows.assemble
    {program : Program κ}
    (knows : codec.Knows program)
    (visual : Visual) :
    codec.assemble ⟨program.ids, visual⟩ = .ok ⟨program.instructions, visual⟩ := by
  have short : ¬ codec.maxLength < program.ids.length := by
    rw [Program.ids, List.length_map]
    exact Nat.not_lt.mpr knows.short
  have resolved : codec.resolve program.ids = .ok program.instructions := by
    rw [resolve_eq_ok_iff, Program.ids, List.forall₂_map_left_iff, List.forall₂_same]
    exact knows.registered
  rw [Codec.assemble, if_neg short, resolved]
  rfl

end Codec

end Spellcast
