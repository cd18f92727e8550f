import Spellcast.Proofs.Active
import Spellcast.Proofs.Standard

/-!
# Standard contexts

A context is standard if its program holds standard instructions only. Whatever happens to such a context leaves its
caster and its site alone and never makes it hold anything but standard instructions. A cancellation is all that its
observers see, and a ward notes the reason in the tag.
-/

namespace Spellcast

variable {κ : Type} {behaviour : Behaviour κ} {embed : Glyph → κ}

namespace Fields

variable {key other : String} {value : Json}

@[simp]
theorem find?_insert_self (fields : Fields) : find? key (insert key value fields) = some value := by
  induction fields with
  | nil =>
      simp [insert, find?]
  | cons first rest inductionHypothesis =>
      obtain ⟨held, heldValue⟩ := first
      by_cases same : key = held
      · simp [insert, find?, same]
      · have apart : ¬ held = key := fun equal => same equal.symm
        by_cases less : key < held
        · simp [insert, find?, same, less]
        · simp [insert, find?, same, less, apart, inductionHypothesis]

theorem find?_insert_of_ne
    (different : other ≠ key)
    (fields : Fields) :
    find? other (insert key value fields) = find? other fields := by
  have apart : ¬ key = other := fun equal => different equal.symm
  induction fields with
  | nil =>
      simp [insert, find?, apart]
  | cons first rest inductionHypothesis =>
      obtain ⟨held, heldValue⟩ := first
      by_cases same : key = held
      · subst same
        simp [insert, find?, apart]
      · by_cases less : key < held
        · simp [insert, find?, same, less, apart]
        · simp [insert, find?, same, less, inductionHypothesis]

end Fields

namespace Instruction

def isJump (instruction : Instruction κ) : Bool := instruction.id.path == "glyph_jump"

def isMark (instruction : Instruction κ) : Bool := instruction.id.path == "glyph_mark"

end Instruction

namespace Glyph

variable {instruction : Instruction κ}

def jumpId : Identifier := ⟨Identifier.defaultSpace, "glyph_jump", Identifier.defaultSpace_isWord, by decide⟩

def markId : Identifier := ⟨Identifier.defaultSpace, "glyph_mark", Identifier.defaultSpace_isWord, by decide⟩

theorem isStandard_jump (serial : Nat) :
    IsStandard embed (Glyph.instruction embed serial jumpId (.jump defaultStrength)) :=
  isStandard_of_ofId? rfl (by decide) rfl serial

theorem isStandard_mark (serial : Nat) :
    IsStandard embed (Glyph.instruction embed serial markId (.mark marksId)) :=
  isStandard_of_ofId? rfl (by decide) rfl serial

/-- What a standard instruction does is said by its identifier. -/
theorem IsStandard.exists_glyph
    (standard : IsStandard embed instruction) :
    ∃ glyph, ofId? instruction.id = some glyph ∧ instruction.effect.code = embed glyph := by
  obtain ⟨serial, glyph, known, form⟩ := standard.form
  refine ⟨glyph, known, ?_⟩
  rw [form]
  rfl

/-- Only a ward observes. -/
theorem IsStandard.observer_eq
    {observer : κ}
    (standard : IsStandard embed instruction)
    (observes : instruction.observer = some observer) :
    observer = embed .ward := by
  obtain ⟨serial, glyph, -, form⟩ := standard.form
  rw [form] at observes
  cases glyph with
  | ward => exact (Option.some.inj observes).symm
  | jump _ | delay _ | mark _ | echo _ _ => contradiction

variable {context : Context κ} {realm : Realm}

theorem cast_program
    (glyph : Glyph)
    (context : Context κ)
    (realm : Realm) :
    (glyph.cast context realm).2.1.program = context.program := by
  cases glyph with
  | delay ticks =>
      simp only [cast, castDelay]
      split
      · rfl
      · rfl
  | jump _ | mark _ | ward | echo _ _ => rfl

theorem cast_caster
    (glyph : Glyph)
    (context : Context κ)
    (realm : Realm) :
    (glyph.cast context realm).2.1.caster = context.caster ∧ (glyph.cast context realm).2.1.site = context.site := by
  cases glyph with
  | delay ticks =>
      simp only [cast, castDelay]
      split
      · exact ⟨rfl, rfl⟩
      · exact ⟨rfl, rfl⟩
  | jump _ | mark _ | ward | echo _ _ => exact ⟨rfl, rfl⟩

end Glyph

namespace Context

variable {context : Context κ}

/-- The program of the context holds standard instructions only. -/
def Standard (embed : Glyph → κ) (context : Context κ) : Prop :=
  ∀ instruction ∈ context.program.instructions, Glyph.IsStandard embed instruction

theorem Standard.instruction
    {instruction : Instruction κ}
    (standard : context.Standard embed)
    (found : context.program.get? context.counter = some instruction) :
    Glyph.IsStandard embed instruction :=
  standard instruction (List.mem_of_getElem? found)

/-- A cancellation of a standard context is noted in the context, and in its tag if a ward has absorbed it. -/
theorem Standard.cancel
    (carries : behaviour.Carries embed)
    (standard : context.Standard embed)
    (reason : CancelReason)
    (realm : Realm) :
    ∃ tag, (context.cancel behaviour reason realm).1 =
        { context with canceled := true, cancelReason := some reason, tag } ∧
      (∀ key, key ≠ Glyph.wardedKey → Fields.find? key tag = Fields.find? key context.tag) ∧
      realm.SameWorld (context.cancel behaviour reason realm).2 := by
  let canceled : Context κ := { context with canceled := true, cancelReason := some reason }
  -- all that the walk can change is the entry of the wards
  let Noted (told : Context κ) (after : Realm) : Prop :=
    (∃ tag, told = { canceled with tag } ∧
      ∀ key, key ≠ Glyph.wardedKey → Fields.find? key tag = Fields.find? key context.tag) ∧
    realm.SameWorld after
  have kept : ∀ instruction ∈ canceled.remainder.instructions, ∀ observer, instruction.observer = some observer →
      ∀ told after, Noted told after →
        Noted (behaviour.notify observer told after).2.1 (behaviour.notify observer told after).2.2 := by
    rintro instruction member observer observes _ after ⟨⟨tag, rfl, others⟩, same⟩
    obtain rfl := (standard instruction (List.mem_of_mem_drop member)).observer_eq observes
    rw [carries.notify]
    simp only [Glyph.notify, Glyph.absorb, canceled]
    cases reason with
    | newContext =>
        exact ⟨⟨tag, rfl, others⟩, same⟩
    | terminated | custom _ =>
        refine ⟨⟨_, rfl, ?_⟩, same⟩
        intro key notWarded
        rw [Fields.find?_insert_of_ne notWarded]
        exact others key notWarded
  obtain ⟨⟨tag, told, others⟩, same⟩ :=
    walk_lasts kept { context := canceled, realm, told := 0, absorbed := false }
      ⟨⟨context.tag, rfl, fun _ _ => rfl⟩, .refl realm⟩
  exact ⟨tag, told, others, same.emit _⟩

/-- Standard contexts stay standard, and so does what depends on whoever acts for them. -/
theorem Standard.preserves_acting
    {property : Context κ → Prop}
    (carries : behaviour.Carries embed)
    (acting : ∀ first second : Context κ, second.caster = first.caster → second.site = first.site →
      property first → property second) :
    behaviour.Preserves fun context => context.Standard embed ∧ property context where
  registered context holds := ⟨holds.1, acting context _ rfl rfl holds.2⟩
  suspended context _ holds := ⟨holds.1, acting context _ rfl rfl holds.2⟩
  ran context instruction found realm holds := by
    obtain ⟨glyph, code⟩ := (holds.1.instruction found).exists_code
    rw [code, carries.cast]
    obtain ⟨caster, site⟩ := glyph.cast_caster context.stepped realm
    refine ⟨?_, acting context _ caster site holds.2⟩
    rw [Standard, glyph.cast_program]
    exact holds.1
  stopped context holds := ⟨holds.1, acting context _ rfl rfl holds.2⟩
  canceled context reason realm holds := by
    obtain ⟨tag, canceled, -⟩ := holds.1.cancel carries reason realm
    rw [canceled]
    exact ⟨holds.1, acting context _ rfl rfl holds.2⟩
  child context self realm holds := by
    rw [(makeChild_of_standard carries holds.1 self realm).1]
    refine ⟨?_, acting context _ rfl rfl holds.2⟩
    intro instruction member
    exact holds.1 instruction (List.mem_of_mem_drop (mem_of_mem_unrolled member))

theorem Standard.preserves
    (carries : behaviour.Carries embed) :
    behaviour.Preserves (Standard embed) := by
  have both := preserves_acting carries fun _ _ _ _ (holds : True) => holds
  simpa only [and_true] using both

end Context

namespace Turn

variable {turn : Turn κ} {context : Context κ}

/-- A move of a standard context into its child is only logged. -/
theorem movedOn_sameWorld
    (carries : behaviour.Carries embed)
    (standard : context.Standard embed) :
    turn.realm.SameWorld (turn.movedOn behaviour context).realm := by
  have made := (Context.makeChild_of_standard carries standard turn.cast.active turn.realm).2
  have canceled (noted : Realm) (same : turn.realm.SameWorld noted) :
      turn.realm.SameWorld (context.cancel behaviour .newContext noted).2.leave := by
    obtain ⟨_, -, -, further⟩ := standard.cancel carries .newContext noted
    exact (same.trans further).leave
  exact canceled _ (((made.emit _).enter _).emit _)

end Turn

end Spellcast
