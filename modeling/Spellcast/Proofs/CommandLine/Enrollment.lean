import Spellcast.CommandLine
import Spellcast.Proofs.Codec.RoundTrip
import Spellcast.Proofs.Standard.Contexts

/-!
# The spells of a command line are registered before any of them runs

Spells are decoded and registered one after the other, up to the first that cannot be had. Whether there is one or not,
all that happens on the stage is that something is logged and casts are added: nothing has run when the last spell has
been looked at (`Stage.Untouched`). If all can be had, the stage stands where a history of registrations stands.
-/

namespace Spellcast

variable {κ : Type} {embed : Glyph → κ}

theorem Glyph.isStandard_of_found
    {id : Identifier}
    {instruction : Instruction κ}
    (found : (Glyph.standard embed).find? id = some instruction) :
    IsStandard embed instruction := by
  obtain ⟨before, after, split, -, -⟩ := Registry.find?_ofList_eq_some_iff.mp found
  have member : instruction ∈ before ++ instruction :: after := List.mem_append_right _ List.mem_cons_self
  rw [← split] at member
  obtain ⟨⟨path, serial⟩, listed, made⟩ := List.mem_filterMap.mp member
  refine ⟨path, (List.mem_zipIdx' listed).2 ▸ List.getElem_mem _, serial, ?_⟩
  change ((create embed serial path).toOption).join = some instruction at made
  cases created : create embed serial path with
  | error fault =>
      rw [created] at made
      contradiction
  | ok answer =>
      rw [created] at made
      exact congrArg Except.ok made

/-- A program that a file holds is made of registered instructions. -/
theorem Codec.knows_of_decodeFile
    {registered : List (Instruction κ)}
    {limit : Nat}
    {read : String → Except Files.Fault String}
    {path : String}
    {program : Program κ}
    (decoded : (⟨.ofList registered, limit⟩ : Codec κ).decodeFile read path = .ok program) :
    (⟨.ofList registered, limit⟩ : Codec κ).Knows program := by
  unfold decodeFile at decoded
  split at decoded
  · cases decoded
  · split at decoded
    · unfold decodeJson at decoded
      split at decoded
      · exact (knows_of_assemble decoded).1
      · cases decoded
    · unfold decodeYaml at decoded
      split at decoded
      · exact (knows_of_assemble decoded).1
      · cases decoded

namespace CommandLine

variable {read : String → Except Files.Fault String} {stage : Stage} {path elapsed : String} {paths : List String}
  {program : Program Glyph} {programs : List (Program Glyph)} {history : History Glyph} {caster : EntityId}
  {world : World}

/-- The file holds a spell that can be cast. -/
def Decodes (codec : Codec Glyph) (read : String → Except Files.Fault String) (path : String)
    (program : Program Glyph) : Prop :=
  codec.decodeFile read path = .ok program ∧ program.isEmpty = false

theorem Decodes.standard
    {limit : Nat}
    (decodes : Decodes ⟨Glyph.standard id, limit⟩ read path program) :
    ∀ instruction ∈ program.instructions, Glyph.IsStandard id instruction := by
  intro instruction member
  exact Glyph.isStandard_of_found ((Codec.knows_of_decodeFile decodes.1).registered instruction member)

theorem enrollAll_of_decodes
    (rest : List String)
    (decodes : Decodes stage.codec read path program) :
    stage.enrollAll read (path :: rest) =
      ((stage.report (.ok program)).enroll path program).enrollAll read rest := by
  rw [Stage.enrollAll, decodes.1]
  simp only [decodes.2]
  rfl

theorem exists_failure
    (rest : List String)
    (undecoded : ∀ program, ¬ Decodes stage.codec read path program) :
    ∃ failure, stage.enrollAll read (path :: rest) =
      (stage.report (stage.codec.decodeFile read path), some failure) := by
  rw [Stage.enrollAll]
  cases decoded : stage.codec.decodeFile read path with
  | error fault =>
      exact ⟨_, rfl⟩
  | ok program =>
      have empty : program.isEmpty = true := by
        rw [← Bool.not_eq_false]
        exact fun nonempty => undecoded program ⟨decoded, nonempty⟩
      simp only [empty, if_true]
      exact ⟨_, rfl⟩

def heading (elapsed : String) : String := s!"📊 Results ({elapsed})"

theorem head?_append
    {first : String}
    {initial : Char}
    (starts : first.toList.head? = some initial)
    (rest : String) :
    (first ++ rest).toList.head? = some initial := by
  rw [String.toList_append, List.head?_append, starts]
  rfl

theorem head?_heading (elapsed : String) : (heading elapsed).toList.head? = some '📊' :=
  head?_append (head?_append rfl _) _

theorem heading_not_mem
    {lines : List String}
    (different : ∀ line ∈ lines, line.toList.head? ≠ some '📊')
    (elapsed : String) :
    heading elapsed ∉ lines :=
  fun member => different _ member (head?_heading elapsed)

theorem heading_not_mem_header (path elapsed : String) : heading elapsed ∉ header path := by
  refine heading_not_mem ?_ elapsed
  have config : ("Config: " ++ path).toList.head? = some 'C' := head?_append rfl _
  have known : ("Known instructions: [" ++ knownInstructions ++ "]").toList.head? = some 'K' :=
    head?_append (head?_append rfl _) _
  simp only [header, List.forall_mem_cons, config, known]
  exact ⟨by decide, by simp, by decide, by decide, by decide, by simp⟩

theorem heading_not_mem_enrolled
    (path elapsed : String)
    (program : Program Glyph)
    (id : CastId) :
    heading elapsed ∉ [s!"✨ {path}: {program.describe}", s!"   registered as {CastId.name id}"] := by
  refine heading_not_mem ?_ elapsed
  have spell : (s!"✨ {path}: {program.describe}").toList.head? = some '✨' :=
    head?_append (head?_append (head?_append rfl _) _) _
  have number : (s!"   registered as {CastId.name id}").toList.head? = some ' ' := head?_append rfl _
  simp only [List.forall_mem_cons, spell, number]
  exact ⟨by decide, by decide, by simp⟩

/-- No instruction has run on the stage, and nothing shown so far is a heading of results. -/
structure Stage.Untouched (world : World) (stage : Stage) : Prop where
  world : stage.realm.world = world
  ticks : stage.scheduler.ticks = 0
  steps : ∀ cast ∈ stage.scheduler.casts, cast.steps = 0
  log : ∀ entry ∈ stage.realm.log, ∀ instruction effect, entry.event ≠ .casting instruction effect
  shown : ∀ elapsed, heading elapsed ∉ stage.shown

theorem untouched_ofConfig
    (path : String)
    (config : Config) :
    (Stage.ofConfig path config).Untouched (World.empty.spawn casterName).2 where
  world := rfl
  ticks := rfl
  steps _ nothing := absurd nothing List.not_mem_nil
  log entry nothing := absurd nothing (by simp [Stage.ofConfig, Realm.empty])
  shown := heading_not_mem_header path

/-- What is logged is not that an instruction runs. -/
theorem Stage.Untouched.emit
    (untouched : stage.Untouched world)
    {event : Event}
    (quiet : ∀ instruction effect, event ≠ .casting instruction effect) :
    { stage with realm := stage.realm.emit event }.Untouched world := by
  refine ⟨untouched.world, untouched.ticks, untouched.steps, ?_, untouched.shown⟩
  intro entry member
  rcases Array.mem_push.mp member with old | new
  · exact untouched.log entry old
  · rw [new]
    exact quiet

theorem Stage.Untouched.report
    (untouched : stage.Untouched world)
    (result : Except Codec.Fault (Program Glyph)) :
    (stage.report result).Untouched world := by
  unfold Stage.report Codec.report?
  cases result with
  | ok program =>
      exact untouched.emit fun _ _ => Event.noConfusion
  | error fault =>
      cases fault with
      | unreadable cause => exact untouched
      | _ => exact untouched.emit fun _ _ => Event.noConfusion

theorem Stage.Untouched.enroll
    (untouched : stage.Untouched world)
    (path : String)
    (program : Program Glyph) :
    (stage.enroll path program).Untouched world := by
  refine ⟨untouched.world, untouched.ticks, ?_, ?_, ?_⟩
  · intro cast member
    rcases List.mem_append.mp member with old | new
    · exact untouched.steps cast old
    · rw [List.mem_singleton.mp new]
  · intro entry member
    rcases Array.mem_push.mp member with old | new
    · exact untouched.log entry old
    · rw [new]
      exact fun _ _ => Event.noConfusion
  · intro elapsed member
    rcases List.mem_append.mp member with old | new
    · exact untouched.shown elapsed old
    · exact heading_not_mem_enrolled path elapsed program _ new

/-- Whatever the files hold, nothing runs before all of them have been looked at. -/
theorem Stage.Untouched.enrollAll
    (untouched : stage.Untouched world)
    (read : String → Except Files.Fault String)
    (paths : List String) :
    (stage.enrollAll read paths).1.Untouched world := by
  induction paths generalizing stage with
  | nil =>
      exact untouched
  | cons path rest inductionHypothesis =>
      by_cases decodes : ∃ program, Decodes stage.codec read path program
      · obtain ⟨program, decodes⟩ := decodes
        rw [enrollAll_of_decodes rest decodes]
        exact inductionHypothesis ((untouched.report _).enroll path program)
      · obtain ⟨failure, failed⟩ := exists_failure rest (not_exists.mp decodes)
        rw [failed]
        exact untouched.report _

def enrolled (caster : EntityId) (history : History Glyph) (program : Program Glyph) : History Glyph :=
  let decoded := Event.programDecoded Codec.Form.persistent.name program.length
  History.cast { history with realm := history.realm.emit decoded } (.ofEntity program caster tool)

/-- The stage is where the history has come to. -/
structure Stage.Stands (history : History Glyph) (stage : Stage) : Prop where
  scheduler : stage.scheduler = history.scheduler
  realm : stage.realm = history.realm

theorem Stage.Stands.enroll
    (stands : stage.Stands history)
    (path : String)
    (program : Program Glyph) :
    ((stage.report (.ok program)).enroll path program).Stands (enrolled stage.caster history program) := by
  obtain ⟨scheduler, realm⟩ := stands
  constructor
  · simp only [Stage.enroll, Stage.report, Codec.report?, enrolled, History.cast, scheduler, realm]
  · simp only [Stage.enroll, Stage.report, Codec.report?, enrolled, History.cast, scheduler, realm]

/-- All spells are had exactly if every file holds one that can be cast. -/
theorem enrollAll_eq_none_iff :
    (stage.enrollAll read paths).2 = none ↔
      ∃ programs, List.Forall₂ (Decodes stage.codec read) paths programs := by
  induction paths generalizing stage with
  | nil =>
      exact ⟨fun _ => ⟨[], .nil⟩, fun _ => rfl⟩
  | cons path rest inductionHypothesis =>
      by_cases decodes : ∃ program, Decodes stage.codec read path program
      · obtain ⟨program, decodes⟩ := decodes
        rw [enrollAll_of_decodes rest decodes, inductionHypothesis]
        constructor
        · rintro ⟨programs, others⟩
          exact ⟨program :: programs, .cons decodes others⟩
        · rintro ⟨programs, decoded⟩
          cases decoded with
          | cons _ others => exact ⟨_, others⟩
      · obtain ⟨failure, failed⟩ := exists_failure rest (not_exists.mp decodes)
        rw [failed]
        constructor
        · exact fun finished => absurd finished (Option.some_ne_none failure)
        · rintro ⟨programs, decoded⟩
          cases decoded with
          | cons first _ => exact absurd ⟨_, first⟩ decodes

/-- If every file holds a spell, the stage comes to where the history of their registrations has come to. -/
theorem Stage.Stands.enrollAll
    (stands : stage.Stands history)
    (decodes : List.Forall₂ (Decodes stage.codec read) paths programs) :
    (stage.enrollAll read paths).1.Stands (programs.foldl (enrolled stage.caster) history) ∧
      (stage.enrollAll read paths).1.caster = stage.caster := by
  generalize isCodec : stage.codec = codec at decodes
  induction decodes generalizing stage history with
  | nil =>
      exact ⟨stands, rfl⟩
  | @cons path program rest programs first _ inductionHypothesis =>
      rw [← isCodec] at first
      rw [enrollAll_of_decodes rest first]
      exact inductionHypothesis (stands.enroll path program) isCodec

/-- Everything goes on between one caster and standard spells, which nobody interrupts, and nobody else touches the
world. -/
def solely (caster : EntityId) : Rules Glyph where
  calls
    | .cast context => context.Standard id ∧ context.caster = some caster
    | .tick => True
    | .runUntilIdle _ | .cancel _ _ | .terminate _ => False
  outside before after := after.world = before.world

theorem enrolled_reached
    (caster : EntityId)
    (history : History Glyph)
    (standard : ∀ instruction ∈ program.instructions, Glyph.IsStandard id instruction) :
    Reaches (solely caster) Glyph.behaviour history (enrolled caster history program) :=
  .call (.cast _) (.outside _ .origin rfl) ⟨standard, rfl⟩

theorem enrolled_all_reached
    (caster : EntityId)
    (history : History Glyph)
    (standard : ∀ program ∈ programs, ∀ instruction ∈ program.instructions, Glyph.IsStandard id instruction) :
    Reaches (solely caster) Glyph.behaviour history (programs.foldl (enrolled caster) history) := by
  induction programs generalizing history with
  | nil =>
      exact .origin
  | cons first programs inductionHypothesis =>
      have later := inductionHypothesis (enrolled caster history first) fun program member =>
        standard program (List.mem_cons_of_mem _ member)
      exact (enrolled_reached caster history (standard first List.mem_cons_self)).trans later

/-- Registrations give out the next numbers, one after the other, and do nothing else that a history records. -/
theorem enrolled_all
    (caster : EntityId)
    (history : History Glyph)
    (programs : List (Program Glyph)) :
    let later := programs.foldl (enrolled caster) history
    later.scheduler.nextCast = history.scheduler.nextCast + programs.length ∧
      later.registered = history.registered ++ List.range' history.scheduler.nextCast programs.length ∧
      later.reports = history.reports ∧ later.scheduler.ticks = history.scheduler.ticks := by
  induction programs generalizing history with
  | nil =>
      exact ⟨rfl, (List.append_nil _).symm, rfl, rfl⟩
  | cons first programs inductionHypothesis =>
      obtain ⟨next, registered, reports, ticks⟩ := inductionHypothesis (enrolled caster history first)
      refine ⟨?_, ?_, reports, ticks⟩
      · rw [List.length_cons, Nat.add_comm programs.length, ← Nat.add_assoc]
        exact next
      · rw [List.length_cons, List.range'_succ, List.append_cons]
        exact registered

end CommandLine

end Spellcast
