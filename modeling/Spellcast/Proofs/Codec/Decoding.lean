import Spellcast.Glyph
import Spellcast.Proofs.Codec

/-!
# What decoding accepts

`Codec.Decoding` says what is reported of a frame: the first of its faults in a fixed order, or a program. Decoding the
bytes of a frame ends in exactly this way, and a record with the same names and the same look fares no differently.
-/

namespace Spellcast.Codec

variable {κ : Type} {registered : List (Instruction κ)} {limit : Nat} {frame : Frame} {result : Except Fault (Program κ)}

/-- How the decoding of a frame ends, with a registry of these instructions and this limit. A name that cannot be read
comes before a style that cannot be read, that before too many names, and those before a name that nothing is registered
under. -/
inductive Decoding (registered : List (Instruction κ)) (limit : Nat) (frame : Frame) :
    Except Fault (Program κ) → Prop where
  | badIdentifier {before after : List String} {name : String} {cause : Identifier.Fault}
      (split : frame.instructions = before ++ name :: after)
      (named : ∀ other ∈ before, ∃ id, Identifier.parse other = .ok id)
      (nameless : Identifier.parse name = .error cause) :
      Decoding registered limit frame (.error (.badIdentifier cause))
  | badStyle {ids : List Identifier} {visual : FrameVisual}
      (named : Name frame.instructions ids)
      (given : frame.visual = some visual)
      (filled : visual.style ≠ "")
      (noObject : ∀ style, Json.parse? visual.style ≠ some (.object style)) :
      Decoding registered limit frame (.error .badStyle)
  | tooLong {ids : List Identifier} {look : Visual}
      (named : Name frame.instructions ids)
      (gives : Gives frame.visual look)
      (long : limit < frame.instructions.length) :
      Decoding registered limit frame (.error (.tooLong frame.instructions.length limit))
  | unknownInstruction {ids before after : List Identifier} {id : Identifier} {look : Visual}
      (named : Name frame.instructions ids)
      (gives : Gives frame.visual look)
      (short : frame.instructions.length ≤ limit)
      (split : ids = before ++ id :: after)
      (known : ∀ other ∈ before, ∃ instruction, Registry.Latest registered other instruction)
      (unknown : ∀ instruction ∈ registered, instruction.id ≠ id) :
      Decoding registered limit frame (.error (.unknownInstruction id.text))
  | program {ids : List Identifier} {look : Visual} {instructions : List (Instruction κ)}
      (named : Name frame.instructions ids)
      (gives : Gives frame.visual look)
      (short : frame.instructions.length ≤ limit)
      (latest : List.Forall₂ (Registry.Latest registered) ids instructions) :
      Decoding registered limit frame (.ok ⟨instructions, look⟩)

theorem assemble_of_long
    {codec : Codec κ} {record : Record}
    (long : codec.maxLength < record.instructions.length) :
    codec.assemble record = .error (.tooLong record.instructions.length codec.maxLength) :=
  if_pos long

theorem assemble_of_short
    {codec : Codec κ} {record : Record}
    (short : record.instructions.length ≤ codec.maxLength) :
    codec.assemble record = (codec.resolve record.instructions).map fun instructions => ⟨instructions, record.visual⟩ :=
  if_neg (Nat.not_lt.mpr short)

/-- Bytes of a frame are decoded as `Decoding` says. -/
theorem Decoding.eq
    (decoding : Decoding registered limit frame result)
    (inRange : frame.InRange)
    (fits : Wire.Fits frame.write) :
    (⟨.ofList registered, limit⟩ : Codec κ).decodeNetwork frame.write = result := by
  rw [decodeNetwork_write inRange fits]
  cases decoding with
  | badIdentifier split named nameless =>
      rw [readNames_eq_error_iff.mpr ⟨_, _, _, _, split, named, nameless, rfl⟩]
  | badStyle named given filled noObject =>
      rw [readNames_eq_ok_iff.mpr named, readVisual_eq_error_iff.mpr ⟨_, given, filled, noObject, rfl⟩]
  | tooLong named gives long =>
      rw [readNames_eq_ok_iff.mpr named, readVisual_eq_ok_iff.mpr gives]
      rw [List.Forall₂.length_eq named] at long ⊢
      exact assemble_of_long long
  | unknownInstruction named gives short split known unknown =>
      rw [readNames_eq_ok_iff.mpr named, readVisual_eq_ok_iff.mpr gives]
      rw [List.Forall₂.length_eq named] at short
      simp only
      rw [assemble_of_short short, resolve_eq_error_iff.mpr ⟨_, _, _, split, ?_, ?_, rfl⟩]
      · rfl
      · intro other member
        obtain ⟨instruction, latest⟩ := known other member
        exact ⟨instruction, Registry.find?_ofList_eq_some_iff.mpr latest⟩
      · exact Registry.find?_ofList_eq_none_iff.mpr unknown
  | program named gives short latest =>
      rw [readNames_eq_ok_iff.mpr named, readVisual_eq_ok_iff.mpr gives]
      rw [List.Forall₂.length_eq named] at short
      simp only
      rw [assemble_of_short short, resolve_eq_ok_iff.mpr]
      · rfl
      · exact latest.imp fun _ _ isLatest => Registry.find?_ofList_eq_some_iff.mpr isLatest

/-- Every frame has an ending. -/
theorem exists_decoding
    (registered : List (Instruction κ))
    (limit : Nat)
    (frame : Frame) :
    ∃ result, Decoding registered limit frame result := by
  cases names : readNames frame.instructions with
  | error fault =>
      obtain ⟨before, name, after, cause, split, named, nameless, rfl⟩ := readNames_eq_error_iff.mp names
      exact ⟨_, .badIdentifier split named nameless⟩
  | ok ids =>
      have named : Name frame.instructions ids := readNames_eq_ok_iff.mp names
      cases visual : readVisual frame.visual with
      | error fault =>
          obtain ⟨given, isGiven, filled, noObject, rfl⟩ := readVisual_eq_error_iff.mp visual
          exact ⟨_, .badStyle named isGiven filled noObject⟩
      | ok look =>
          have gives : Gives frame.visual look := readVisual_eq_ok_iff.mp visual
          rcases Nat.lt_or_ge limit frame.instructions.length with long | short
          · exact ⟨_, .tooLong named gives long⟩
          · cases resolved : (⟨.ofList registered, limit⟩ : Codec κ).resolve ids with
            | error fault =>
                obtain ⟨before, id, after, split, known, unknown, rfl⟩ := resolve_eq_error_iff.mp resolved
                refine ⟨_, .unknownInstruction named gives short split ?_ (Registry.find?_ofList_eq_none_iff.mp unknown)⟩
                intro other member
                obtain ⟨instruction, found⟩ := known other member
                exact ⟨instruction, Registry.find?_ofList_eq_some_iff.mp found⟩
            | ok instructions =>
                have latest := (resolve_eq_ok_iff.mp resolved).imp fun _ _ found =>
                  Registry.find?_ofList_eq_some_iff.mp found
                exact ⟨_, .program named gives short latest⟩

/-- Decoding the bytes of a frame reports the first of its faults, in a fixed order, or gives the program of the
instructions that were registered last; and as long as the names and the style can be read, a record with the same names
and the same look is decoded to the same result. -/
theorem firstFaultIsReported
    (registered : List (Instruction κ))
    (limit : Nat)
    (inRange : frame.InRange)
    (fits : Wire.Fits frame.write) :
    let codec : Codec κ := ⟨.ofList registered, limit⟩
    (∀ result, codec.decodeNetwork frame.write = result ↔ Decoding registered limit frame result) ∧
      ∀ ids look, Name frame.instructions ids → Gives frame.visual look →
        codec.assemble ⟨ids, look⟩ = codec.decodeNetwork frame.write := by
  intro codec
  constructor
  · intro result
    constructor
    · rintro rfl
      obtain ⟨result, decoding⟩ := exists_decoding registered limit frame
      rwa [decoding.eq inRange fits]
    · intro decoding
      exact decoding.eq inRange fits
  · intro ids look named gives
    rw [decodeNetwork_write inRange fits, readNames_eq_ok_iff.mpr named, readVisual_eq_ok_iff.mpr gives]

/-- A frame with two names, of which the second is unknown. Where only one is allowed, that is reported, and otherwise
the unknown name is. -/
theorem firstFaultIsReported_longAndUnknown :
    let mark : Instruction Glyph := .plain Glyph.marksId ⟨0, .mark Glyph.marksId⟩
    let codec (limit : Nat) : Codec Glyph := ⟨.ofList [mark], limit⟩
    let style : Fields := [("trail", .bool true)]
    let frame : Frame := ⟨["marks", "nowhere"], some ⟨300, 0, 7, (Json.object style).compact⟩⟩
    let nowhere : Identifier := ⟨Identifier.defaultSpace, "nowhere", Identifier.defaultSpace_isWord, by decide⟩
    let record : Record := ⟨[Glyph.marksId, nowhere], ⟨255, 0, 7⟩, style⟩
    frame.InRange ∧ Wire.Fits frame.write ∧
      (codec 1).decodeNetwork frame.write = .error (.tooLong 2 1) ∧
      (codec 1).assemble record = .error (.tooLong 2 1) ∧
      (codec 2).decodeNetwork frame.write = .error (.unknownInstruction "spellbook:nowhere") ∧
      (codec 2).assemble record = .error (.unknownInstruction "spellbook:nowhere") := by
  intro mark codec style frame nowhere record
  have inRange : frame.InRange := by
    rintro _ ⟨⟩
    exact ⟨by decide, by decide, by decide⟩
  have fits : Wire.Fits frame.write := Frame.fits_write inRange (by decide +kernel)
  have named : Name frame.instructions [Glyph.marksId, nowhere] := readNames_eq_ok_iff.mp (by decide +kernel)
  have wellFormed : (Json.object style).WellFormed := ⟨List.pairwise_singleton _ _, trivial, trivial⟩
  have parsed : Json.parse? (Json.object style).compact = some (.object style) := Json.parse?_compact wellFormed
  have gives : Gives frame.visual ⟨⟨255, 0, 7⟩, style⟩ := ⟨rfl, rfl, rfl, .inr ⟨by decide +kernel, parsed⟩⟩
  have known : ∀ other ∈ [Glyph.marksId], ∃ instruction, Registry.Latest [mark] other instruction := by
    intro other member
    obtain rfl := List.mem_singleton.mp member
    exact ⟨mark, Registry.find?_ofList_eq_some_iff.mp rfl⟩
  have unknown : ∀ instruction ∈ [mark], instruction.id ≠ nowhere := by
    intro instruction member
    obtain rfl := List.mem_singleton.mp member
    decide
  have settled := firstFaultIsReported [mark] 1 inRange fits
  have two := firstFaultIsReported [mark] 2 inRange fits
  have long : (codec 1).decodeNetwork frame.write = .error (.tooLong 2 1) :=
    (settled.1 _).mpr (.tooLong named gives (by decide))
  have nameless : (codec 2).decodeNetwork frame.write = .error (.unknownInstruction nowhere.text) :=
    (two.1 _).mpr (.unknownInstruction named gives (Nat.le_refl 2) rfl known unknown)
  refine ⟨inRange, fits, long, ?_, nameless, ?_⟩
  · exact (settled.2 _ _ named gives).trans long
  · exact (two.2 _ _ named gives).trans nameless

end Spellcast.Codec
