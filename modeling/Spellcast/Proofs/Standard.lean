import Spellcast.Glyph
import Spellcast.Proofs.Identifier
import Spellcast.Proofs.Reference
import Spellcast.Proofs.Simulation

/-!
# Standard instructions

What the instructions of the standard set do to the state of a run, under any behaviour that gives glyphs their own
meaning. Only a delay with something behind it asks for a fork, and the child of a fork runs what the reference run
goes on with.
-/

namespace Spellcast

variable {κ : Type} {behaviour : Behaviour κ} {embed : Glyph → κ}

/-- The behaviour gives glyphs their own meaning; what other codes mean is open. -/
structure Behaviour.Carries (behaviour : Behaviour κ) (embed : Glyph → κ) : Prop where
  cast : ∀ glyph context realm, behaviour.cast (embed glyph) context realm = glyph.cast context realm
  notify : ∀ glyph context realm, behaviour.notify (embed glyph) context realm = glyph.notify context realm
  wantsPush : ∀ glyph context realm, behaviour.wantsPush (embed glyph) context realm = (glyph.wantsPush, realm)
  propose : ∀ glyph context realm, behaviour.propose (embed glyph) context realm = (glyph.propose context, realm)

theorem Glyph.behaviour_carries : Glyph.behaviour.Carries id :=
  ⟨fun _ _ _ => rfl, fun _ _ _ => rfl, fun _ _ _ => rfl, fun _ _ _ => rfl⟩

theorem Identifier.ofPath_path
    (id : Identifier)
    (space : id.space = Identifier.defaultSpace) :
    Identifier.ofPath id.path = .ok id := by
  rw [Identifier.ofPath, ← space]
  exact id.make_eq_ok

namespace Glyph

/-- An instruction of the standard set. -/
def IsStandard (embed : Glyph → κ) (instruction : Instruction κ) : Prop :=
  ∃ path ∈ paths, ∃ serial, create embed serial path = .ok (some instruction)

def delayId : Identifier := ⟨Identifier.defaultSpace, "glyph_delay", Identifier.defaultSpace_isWord, by decide⟩

def echoId : Identifier := ⟨Identifier.defaultSpace, "glyph_echo", Identifier.defaultSpace_isWord, by decide⟩

section IsStandard

variable {instruction : Instruction κ}

theorem isStandard_of_ofId?
    {id : Identifier}
    {glyph : Glyph}
    (space : id.space = Identifier.defaultSpace)
    (listed : id.path ∈ paths)
    (known : ofId? id = some glyph)
    (serial : Nat) :
    IsStandard embed (Glyph.instruction embed serial id glyph) := by
  refine ⟨id.path, listed, serial, ?_⟩
  rw [create, Identifier.ofPath_path id space]
  simp [Except.map, known]

theorem isStandard_delay (serial : Nat) :
    IsStandard embed (Glyph.instruction embed serial delayId (.delay defaultDelay)) :=
  isStandard_of_ofId? rfl (by decide) rfl serial

theorem isStandard_echo (serial : Nat) :
    IsStandard embed (Glyph.instruction embed serial echoId (.echo echoId defaultTimes)) :=
  isStandard_of_ofId? rfl (by decide) rfl serial

/-- A standard instruction does what its own path says. -/
theorem IsStandard.form
    (standard : IsStandard embed instruction) :
    ∃ serial glyph, ofId? instruction.id = some glyph ∧
      instruction = Glyph.instruction embed serial instruction.id glyph := by
  obtain ⟨path, -, serial, created⟩ := standard
  unfold create at created
  cases made : Identifier.ofPath path with
  | error fault =>
      simp [made, Except.map] at created
  | ok id =>
      simp only [made, Except.map, Except.ok.injEq, Option.map_eq_some_iff] at created
      obtain ⟨glyph, known, rfl⟩ := created
      exact ⟨serial, glyph, known, rfl⟩

theorem IsStandard.exists_code
    (standard : IsStandard embed instruction) :
    ∃ glyph, instruction.effect.code = embed glyph := by
  obtain ⟨serial, glyph, -, form⟩ := standard.form
  refine ⟨glyph, ?_⟩
  rw [form]
  rfl

theorem ofId?_eq_some
    {id : Identifier}
    {glyph : Glyph}
    (known : ofId? id = some glyph) :
    (id.path = "glyph_jump" ∧ glyph = .jump defaultStrength) ∨
      (id.path = "glyph_delay" ∧ glyph = .delay defaultDelay) ∨
      (id.path = "glyph_mark" ∧ glyph = .mark marksId) ∨
      (id.path = "glyph_ward" ∧ glyph = .ward) ∨
      (id.path = "glyph_echo" ∧ glyph = .echo id defaultTimes) := by
  unfold ofId? at known
  split at known <;> simp_all

theorem IsStandard.code_of_delay
    (standard : IsStandard embed instruction)
    (isDelay : instruction.isDelay = true) :
    instruction.effect.code = embed (.delay defaultDelay) := by
  obtain ⟨serial, glyph, known, form⟩ := standard.form
  have path : instruction.id.path = "glyph_delay" := by simpa [Instruction.isDelay] using isDelay
  have delay : glyph = .delay defaultDelay := by simpa [path] using ofId?_eq_some known
  rw [form, delay]
  rfl

theorem IsStandard.code_of_not_delay
    (standard : IsStandard embed instruction)
    (notDelay : instruction.isDelay = false) :
    ∃ glyph, instruction.effect.code = embed glyph ∧ ∀ ticks, glyph ≠ .delay ticks := by
  obtain ⟨serial, glyph, known, form⟩ := standard.form
  have path : instruction.id.path ≠ "glyph_delay" := by simpa [Instruction.isDelay] using notDelay
  refine ⟨glyph, by rw [form]; rfl, ?_⟩
  rintro ticks rfl
  have cases := ofId?_eq_some known
  simp [path] at cases

theorem IsStandard.manipulator_of_echo
    (standard : IsStandard embed instruction)
    (isEcho : instruction.isEcho = true) :
    instruction.manipulator = some (embed (.echo instruction.id defaultTimes)) := by
  obtain ⟨serial, glyph, known, form⟩ := standard.form
  have path : instruction.id.path = "glyph_echo" := by simpa [Instruction.isEcho] using isEcho
  have echo : glyph = .echo instruction.id defaultTimes := by simpa [path] using ofId?_eq_some known
  rw [form, echo]
  rfl

theorem IsStandard.manipulator_of_not_echo
    (standard : IsStandard embed instruction)
    (notEcho : instruction.isEcho = false) :
    instruction.manipulator = none := by
  obtain ⟨serial, glyph, known, form⟩ := standard.form
  have path : instruction.id.path ≠ "glyph_echo" := by simpa [Instruction.isEcho] using notEcho
  have cases := ofId?_eq_some known
  simp only [path, false_and, or_false] at cases
  rw [form]
  rcases cases with ⟨-, rfl⟩ | ⟨-, rfl⟩ | ⟨-, rfl⟩ | ⟨-, rfl⟩ <;> rfl

end IsStandard

end Glyph

/-- Two contexts stand at the same place of the same program, in the same state. -/
structure Context.SameRun (first second : Context κ) : Prop where
  program : second.program = first.program
  counter : second.counter = first.counter
  canceled : second.canceled = first.canceled
  cancelReason : second.cancelReason = first.cancelReason
  suspension : second.suspension = first.suspension

namespace Glyph

variable {context : Context κ} {realm : Realm} {glyph : Glyph}

/-- A glyph that is no delay goes on where it is. -/
theorem cast_of_not_delay
    (notDelay : ∀ ticks, glyph ≠ .delay ticks)
    (context : Context κ)
    (realm : Realm) :
    (glyph.cast context realm).1 = .proceed ∧ context.SameRun (glyph.cast context realm).2.1 := by
  cases glyph with
  | jump strength => exact ⟨rfl, rfl, rfl, rfl, rfl, rfl⟩
  | delay ticks => exact absurd rfl (notDelay ticks)
  | mark counter => exact ⟨rfl, rfl, rfl, rfl, rfl, rfl⟩
  | ward => exact ⟨rfl, rfl, rfl, rfl, rfl, rfl⟩
  | echo id times => exact ⟨rfl, rfl, rfl, rfl, rfl, rfl⟩

theorem cast_delay_of_end
    {ticks : Int}
    (atEnd : context.program.length ≤ context.counter) :
    (delay ticks).cast context realm = (.proceed, context, realm) := by
  simp [cast, castDelay, atEnd]

theorem cast_delay_of_rest
    {ticks : Int}
    (rest : context.counter < context.program.length) :
    (delay ticks).cast context realm = (.fork, context.delay ticks, realm) := by
  simp [cast, castDelay, Nat.not_le.mpr rest]

end Glyph

namespace Context

variable {context : Context κ} {before after : List (Instruction κ)}

/-- The instructions that a context has still to run. -/
def ahead (context : Context κ) : List (Instruction κ) := context.remainder.instructions

theorem consult_append
    (behaviour : Behaviour κ)
    (context : Context κ)
    (silent : ∀ instruction ∈ before, instruction.manipulator = none)
    (position : Nat)
    (realm : Realm) :
    consult behaviour context position (before ++ after) realm =
      consult behaviour context (position + before.length) after realm := by
  induction before generalizing position with
  | nil =>
      rfl
  | cons head tail inductionHypothesis =>
      have headSilent := silent head List.mem_cons_self
      have tailSilent := fun instruction member => silent instruction (List.mem_cons_of_mem head member)
      have shifted : position + 1 + tail.length = position + (head :: tail).length := by
        simp only [List.length_cons]
        omega
      rw [List.cons_append, consult, headSilent, inductionHypothesis tailSilent, shifted]

theorem unroll?_of_split
    {program : Program κ}
    {echo : Instruction κ}
    (split : program.instructions = before ++ echo :: after)
    (absent : ∀ instruction ∈ before, instruction.id ≠ echo.id)
    (times : Nat) :
    Glyph.unroll? echo.id times program =
      some { program with instructions := before ++ (List.replicate times after).flatten } := by
  have passed : ∀ instruction ∈ before, (instruction.id != echo.id) = true := by
    intro instruction member
    rw [bne_iff_ne]
    exact absent instruction member
  have stop : (echo.id != echo.id) = false := bne_self_eq_false echo.id
  rw [Glyph.unroll?, split, span_append_cons passed stop]

/-- The first manipulator is an echo that replays what is behind it: it supplies the child. -/
theorem makeChild_of_echo
    {echo : Instruction κ}
    {times : Nat}
    (carries : behaviour.Carries embed)
    (split : context.ahead = before ++ echo :: after)
    (silent : ∀ instruction ∈ before, instruction.manipulator = none)
    (absent : ∀ instruction ∈ before, instruction.id ≠ echo.id)
    (manipulates : echo.manipulator = some (embed (.echo echo.id times)))
    (replays : 0 < times)
    (self : ContextId)
    (realm : Realm) :
    context.makeChild behaviour self realm =
      (⟨{ context with
          program := { context.program with instructions := before ++ (List.replicate times after).flatten }
          counter := 0, parent := some self }, some before.length⟩,
        realm.emit (.manipulatorSelected echo.id.text before.length)) := by
  have wants : (Glyph.echo echo.id times).wantsPush = true := decide_eq_true replays
  have proposed :
      (Glyph.echo echo.id times).propose context =
        some { context with
          program := { context.remainder with instructions := before ++ (List.replicate times after).flatten }
          counter := 0 } := by
    rw [Glyph.propose, unroll?_of_split split absent]
    rfl
  have selected :
      consult behaviour context 0 context.remainder.instructions realm =
        (some (before.length, { context with
            program := { context.remainder with instructions := before ++ (List.replicate times after).flatten }
            counter := 0 }),
          realm.emit (.manipulatorSelected echo.id.text before.length)) := by
    change consult behaviour context 0 context.ahead realm = _
    rw [split, consult_append behaviour context silent, Nat.zero_add, consult, manipulates]
    simp only [carries.wantsPush, carries.propose, wants, proposed]
  simp only [makeChild, selected]
  rfl

/-- The child of a standard context is the context itself, but for the program: it runs what the reference run goes on
with. -/
theorem makeChild_of_standard
    (carries : behaviour.Carries embed)
    (standard : ∀ instruction ∈ context.program.instructions, Glyph.IsStandard embed instruction)
    (self : ContextId)
    (realm : Realm) :
    (context.makeChild behaviour self realm).1.context =
        { context with
          program := { context.program with instructions := unrolled context.ahead }
          counter := 0, parent := some self } ∧
      realm.SameWorld (context.makeChild behaviour self realm).2 := by
  have aheadStandard : ∀ instruction ∈ context.ahead, Glyph.IsStandard embed instruction :=
    fun instruction member => standard instruction (List.mem_of_mem_drop member)
  rcases no_echo_or_split context.ahead with noEcho | ⟨before, echo, after, split, noEcho, isEcho⟩
  · have silent : ∀ instruction ∈ context.ahead, instruction.manipulator = none :=
      fun instruction member =>
        (aheadStandard instruction member).manipulator_of_not_echo (noEcho instruction member)
    have nobody : consult behaviour context 0 context.remainder.instructions realm = (none, realm) := by
      have asked :
          consult behaviour context 0 (context.ahead ++ []) realm = (none, realm) :=
        consult_append behaviour context silent 0 realm
      rw [List.append_nil] at asked
      exact asked
    rw [unrolled_of_no_echo noEcho]
    simp only [makeChild, nobody]
    exact ⟨rfl, .refl realm⟩
  · have echoStandard := aheadStandard echo (split ▸ List.mem_append_right _ List.mem_cons_self)
    have silent : ∀ instruction ∈ before, instruction.manipulator = none :=
      fun instruction member =>
        (aheadStandard instruction (split ▸ List.mem_append_left _ member)).manipulator_of_not_echo
          (noEcho instruction member)
    have absent : ∀ instruction ∈ before, instruction.id ≠ echo.id := by
      intro instruction member same
      have echoToo : instruction.isEcho = echo.isEcho := congrArg (·.path == "glyph_echo") same
      rw [noEcho instruction member, isEcho] at echoToo
      exact Bool.false_ne_true echoToo
    have twice : (List.replicate Glyph.defaultTimes after).flatten = after ++ after := by
      simp [Glyph.defaultTimes, List.replicate]
    rw [makeChild_of_echo carries split silent absent (echoStandard.manipulator_of_echo isEcho) (by decide), twice,
      split, unrolled_append_cons noEcho isEcho, List.append_assoc]
    exact ⟨rfl, (Realm.SameWorld.refl realm).emit _⟩

end Context

end Spellcast
