import Spellcast.Proofs.CommandLine.Enrollment
import Spellcast.Proofs.Driving
import Spellcast.Proofs.Motion
import Spellcast.Proofs.Reference.History

/-!
# What comes of registered spells

Each of the spells runs as it would run alone, and driving them comes to an end without any patience. All of them have
one caster, so it rises exactly if a jump is among what their reference runs execute. `spellLine` says in words what a
reference run comes to, and the results are these lines in the order in which the spells end.
-/

namespace Spellcast

variable {κ : Type} {embed : Glyph → κ}

/-- If nothing is in flight any more, a cast has been reported with the outcome of its account. -/
theorem History.Performs.exists_outcome_of_idle
    {history : History κ}
    {id : CastId}
    {total : Account κ}
    {start : Nat}
    (performs : history.Performs embed id total start)
    (idle : history.scheduler.isIdle = true) :
    history.executedBy id = total.executed ∧
      ∃ outcome ∈ history.completed, outcome.id = id ∧ outcome.Gives history.scheduler.maxSteps total := by
  cases performs with
  | inFlight member _ _ _ _ =>
      rw [List.isEmpty_iff.mp idle] at member
      exact absurd member List.not_mem_nil
  | completed member same whole gives =>
      exact ⟨whole, _, member, same, gives⟩

theorem Context.target_of_caster
    {context : Context κ}
    {world : World}
    {caster : EntityId}
    {entity : Entity}
    (acts : context.caster = some caster)
    (found : world.entity? caster = some entity) :
    context.target world = entity.id := by
  simp [target, caster?, acts, found]

namespace CommandLine

variable {config : Config} {before final history : History Glyph} {ready : Stage} {program : Program Glyph}
  {programs : List (Program Glyph)}

/-- A history in which nothing has been cast yet. -/
def fresh (config : Config) : History Glyph :=
  .start (.ofConfig config) { Realm.empty with world := (World.empty.spawn casterName).2 }

/-- The caster after some spells: where it was, and rising if they have jumped. -/
def apprentice (jumped : Bool) : Entity :=
  { Entity.spawned 1 casterName with
    velocity := ⟨.zero, if jumped then Glyph.defaultStrength else .zero, .zero⟩ }

theorem apprentice_or (earlier now : Bool) :
    apprentice (earlier || now) =
      { apprentice earlier with
        velocity :=
          { (apprentice earlier).velocity with
            y := if now then Glyph.defaultStrength else (apprentice earlier).velocity.y } } := by
  cases now with
  | false => simp
  | true => simp [apprentice]

/-- All active contexts act for the caster, which rises if a jump has run. -/
structure Attended (history : History Glyph) : Prop where
  owns : history.Owns
  accounts : history.Accounts
  active : history.Active fun context => context.Standard id ∧ context.caster = some 1
  proper : history.realm.world.Proper
  caster : history.realm.world.entity? 1 = some (apprentice (history.executed.any (·.2.isJump)))

theorem preserves_caster :
    Glyph.behaviour.Preserves fun context => context.Standard id ∧ context.caster = some 1 :=
  Context.Standard.preserves_acting Glyph.behaviour_carries fun _ _ caster _ holds => caster.trans holds

/-- A tick runs a jump exactly if there is a context for which somebody jumps. -/
theorem any_jumpers
    (scheduler : Scheduler Glyph)
    (realm : Realm)
    (test : Context Glyph → Bool)
    (passes : ∀ entry ∈ scheduler.acts Glyph.behaviour realm, test entry.2.context = true) :
    (scheduler.jumpers Glyph.behaviour realm).any test =
      (scheduler.executed Glyph.behaviour realm).any (·.2.isJump) := by
  rw [← Scheduler.map_acts, Scheduler.jumpers, List.any_map, List.any_map, List.any_filter, Bool.eq_iff_iff,
    List.any_eq_true, List.any_eq_true]
  constructor
  · rintro ⟨entry, member, jumps⟩
    exact ⟨entry, member, (Bool.and_eq_true_iff.mp jumps).1⟩
  · rintro ⟨entry, member, jumps⟩
    exact ⟨entry, member, Bool.and_eq_true_iff.mpr ⟨jumps, passes entry member⟩⟩

theorem Attended.tick
    (attended : Attended history) :
    Attended (history.tick Glyph.behaviour) := by
  obtain ⟨owns, accounts, active, proper, caster⟩ := attended
  have standard : history.Active (Context.Standard id) := fun cast member context live =>
    (active cast member context live).1
  have world : (history.tick Glyph.behaviour).realm.world =
      (history.scheduler.jumpers Glyph.behaviour history.realm).foldl (fun world context => context.thrown world)
        history.realm.world :=
    Scheduler.tick_world Glyph.behaviour_carries owns standard history.realm
  have thrown := World.thrown_foldl proper (history.scheduler.jumpers Glyph.behaviour history.realm)
  rw [← world] at thrown
  refine ⟨Scheduler.tick_owns owns history.realm, accounts.tick owns, active.tick preserves_caster owns accounts,
    thrown.proper proper, ?_⟩
  -- every jump is one of the caster
  have targets : ∀ entry ∈ history.scheduler.acts Glyph.behaviour history.realm,
      (entry.2.context.target history.realm.world == 1) = true := by
    intro entry member
    have acting := (active.acts preserves_caster owns accounts entry member).2
    rw [Context.target_of_caster acting caster]
    rfl
  have ran : (history.tick Glyph.behaviour).executed.any (·.2.isJump) =
      (history.executed.any (·.2.isJump) ||
        (history.scheduler.jumpers Glyph.behaviour history.realm).any (·.target history.realm.world == 1)) := by
    rw [any_jumpers _ _ _ targets]
    exact List.any_append
  rw [thrown.entity?, caster, Option.map_some, ran, apprentice_or]
  rfl

theorem attended_of_reached
    (reached : Reaches (solely 1) Glyph.behaviour (fresh config) history) :
    Attended history := by
  have start : Reaches (solely 1) Glyph.behaviour (fresh config) (fresh config) := .origin
  have made : (Scheduler.ofConfig config : Scheduler Glyph).Made := .ofConfig config
  have owns : (fresh config).Owns := start.owns made
  have accounts : (fresh config).Accounts := start.accounts made
  have stable := History.accounts_stable Glyph.behaviour (solely 1)
  refine reached.obeys Attended ?_ ?_ ?_ ?_ ?_ ?_
  · refine ⟨owns, accounts, fun _ nothing => absurd nothing List.not_mem_nil, World.proper_empty.spawn _, rfl⟩
  · rintro history context ⟨standard, acting⟩ attended
    obtain ⟨nextOwns, nextAccounts⟩ := stable.cast history context ⟨attended.owns, attended.accounts⟩
    exact ⟨nextOwns, nextAccounts, attended.active.cast preserves_caster attended.owns ⟨standard, acting⟩,
      attended.proper, attended.caster⟩
  · exact fun _ attended => attended.tick
  · exact fun _ _ _ never => never.elim
  · exact fun _ _ never => never.elim
  · rintro history realm same attended
    have world : realm.world = history.realm.world := same
    obtain ⟨nextOwns, nextAccounts⟩ := stable.outside history realm ⟨attended.owns, attended.accounts⟩
    exact ⟨nextOwns, nextAccounts, attended.active, world ▸ attended.proper, world ▸ attended.caster⟩

theorem limits_of_reached
    (reached : Reaches (solely 1) Glyph.behaviour (fresh config) history) :
    history.scheduler.maxSteps = max config.steps 1 ∧ history.scheduler.maxForks = config.forks :=
  (History.limits_stable Glyph.behaviour (solely 1) _ _).reaches ⟨rfl, rfl⟩ reached

/-- A history in which registered spells, and nothing else, have been run to their end. -/
structure PlayedOut (config : Config) (programs : List (Program Glyph)) (final : History Glyph) : Prop where
  standard : ∀ program ∈ programs, ∀ instruction ∈ program.instructions, Glyph.IsStandard id instruction
  further : Reaches (solely 1) Glyph.behaviour (programs.foldl (enrolled 1) (fresh config)) final
  registered : final.registered = List.range' 1 programs.length
  idle : final.scheduler.isIdle = true

/-- A performance ends, with nothing in flight any more. -/
theorem exists_playedOut
    (standard : ∀ program ∈ programs, ∀ instruction ∈ program.instructions, Glyph.IsStandard id instruction)
    (stands : ready.Stands (programs.foldl (enrolled 1) (fresh config))) :
    ∃ final, PlayedOut config programs final ∧ ready.perform = ⟨final.completed, final.realm, ready.caster⟩ := by
  have reached : Reaches (solely 1) Glyph.behaviour (fresh config) (programs.foldl (enrolled 1) (fresh config)) :=
    enrolled_all_reached 1 (fresh config) standard
  obtain ⟨-, registered, unreported, -⟩ := enrolled_all 1 (fresh config) programs
  obtain ⟨owns, accounts, active, -, -⟩ := attended_of_reached reached
  have positive : 0 < (programs.foldl (enrolled 1) (fresh config)).scheduler.maxSteps := by
    rw [(limits_of_reached reached).1]
    exact Nat.lt_of_lt_of_le Nat.one_pos (Nat.le_max_right _ _)
  obtain ⟨ticks, outcomes, driven, completed, idle⟩ := History.exists_driven Glyph.behaviour_carries positive owns
    accounts fun cast member context live => (active cast member context live).1
  have unstarted : (programs.foldl (enrolled 1) (fresh config)).completed = [] := by
    rw [History.completed, unreported]
    rfl
  rw [unstarted, List.nil_append] at completed
  refine ⟨_, ⟨standard, History.afterTicks_reached trivial _ ticks, ?_, idle⟩, ?_⟩
  · rw [History.afterTicks_registered, registered]
    rfl
  · rw [Stage.perform, stands.scheduler, stands.realm, driven, completed]

/-- In the end a spell has done what the reference run of its program does, whatever else was cast. -/
theorem exists_outcome
    (reached : Reaches (solely 1) Glyph.behaviour (fresh config) before)
    (standard : ∀ instruction ∈ program.instructions, Glyph.IsStandard id instruction)
    (further : Reaches (solely 1) Glyph.behaviour (before.cast (.ofEntity program 1 tool)) final)
    (idle : final.scheduler.isIdle = true) :
    final.executedBy before.scheduler.nextCast = (reference config.forks program.instructions).executed ∧
      ∃ outcome ∈ final.completed, outcome.id = before.scheduler.nextCast ∧
        outcome.Gives (max config.steps 1) (reference config.forks program.instructions) := by
  have spare : (solely 1).Spare before.scheduler.nextCast := by
    intro call allowed interrupts
    cases call with
    | cast _ | tick => exact interrupts
    | runUntilIdle _ | cancel _ _ | terminate _ => exact allowed
  obtain ⟨-, sameSteps, performs⟩ := Reaches.performs Glyph.behaviour_carries (.ofConfig config) reached
    ⟨rfl, rfl, rfl⟩ standard spare further
  obtain ⟨steps, forks⟩ := limits_of_reached reached
  rw [forks] at performs
  obtain ⟨executed, outcome, member, same, gives⟩ := performs.exists_outcome_of_idle idle
  rw [sameSteps, steps] at gives
  exact ⟨executed, outcome, member, same, gives⟩

/-- What the results say about the spell with a number, by what its reference run comes to. -/
def spellLine (number budget : Nat) (own : Account Glyph) : String :=
  let ending := if own.stopped then "canceled (terminated)" else "completed"
  s!"  cast-{number} {ending}: {own.executed.length} step(s), {own.forks} fork(s), {own.ticks budget} tick(s)"

theorem outcomeLine_of_gives
    {outcome : Outcome Glyph}
    {budget : Nat}
    {own : Account Glyph}
    (gives : outcome.Gives budget own) :
    outcomeLine outcome = spellLine outcome.id budget own := by
  have ending : status outcome = if own.stopped then "canceled (terminated)" else "completed" := by
    rw [status, gives.cancelReason, Account.reason]
    cases own.stopped with
    | false => rfl
    | true => decide +kernel
  delta outcomeLine spellLine CastId.name
  simp only [ending, gives.steps, gives.forks, gives.ticks]
  simp only [toString, String.append_assoc]
  rfl

theorem casterLines_apprentice (jumped : Bool) :
    casterLines (apprentice jumped) =
      [ "🧙 Apprentice after casting:", "   position: (0.00, 0.00, 0.00)",
        "   velocity: (0.00, " ++ (if jumped then "0.75" else "0.00") ++ ", 0.00)" ] := by
  cases jumped with
  | false => decide +kernel
  | true => decide +kernel

/-- The numbers of registered spells tell their places. -/
theorem exists_split_of_number
    {programs : List (Program Glyph)}
    {number : Nat}
    (member : number ∈ List.range' 1 programs.length) :
    ∃ earlier program later, programs = earlier ++ program :: later ∧ number = earlier.length + 1 := by
  obtain ⟨positive, bound⟩ := List.mem_range'_1.mp member
  have inside : number - 1 < programs.length := by omega
  refine ⟨programs.take (number - 1), programs[number - 1], programs.drop (number - 1 + 1), ?_, ?_⟩
  · rw [← List.drop_eq_getElem_cons inside, List.take_append_drop]
  · rw [List.length_take_of_le (Nat.le_of_lt inside)]
    omega

namespace PlayedOut

theorem reached
    (played : PlayedOut config programs final) :
    Reaches (solely 1) Glyph.behaviour (fresh config) final :=
  (enrolled_all_reached 1 (fresh config) played.standard).trans played.further

theorem attended
    (played : PlayedOut config programs final) :
    Attended final :=
  attended_of_reached played.reached

/-- The spell at a place has the next number after those in front of it, and does what its reference run does. -/
theorem exists_outcome
    {earlier later : List (Program Glyph)}
    (played : PlayedOut config (earlier ++ program :: later) final) :
    final.executedBy (earlier.length + 1) = (reference config.forks program.instructions).executed ∧
      ∃ outcome ∈ final.completed, outcome.id = earlier.length + 1 ∧
        outcome.Gives (max config.steps 1) (reference config.forks program.instructions) := by
  obtain ⟨standard, further, -, idle⟩ := played
  have own := standard program (List.mem_append_right _ List.mem_cons_self)
  -- the spells before it are registered by then, and the ones behind it later
  let before := earlier.foldl (enrolled 1) (fresh config)
  have reachedBefore : Reaches (solely 1) Glyph.behaviour (fresh config) before :=
    enrolled_all_reached 1 (fresh config) fun other member => standard other (List.mem_append_left _ member)
  have laterReached : Reaches (solely 1) Glyph.behaviour (enrolled 1 before program)
      (later.foldl (enrolled 1) (enrolled 1 before program)) :=
    enrolled_all_reached 1 _ fun other member =>
      standard other (List.mem_append_right _ (List.mem_cons_of_mem _ member))
  rw [List.foldl_append, List.foldl_cons] at further
  have number : before.scheduler.nextCast = earlier.length + 1 := by
    rw [Nat.add_comm]
    exact (enrolled_all 1 (fresh config) earlier).1
  have decoded : Reaches (solely 1) Glyph.behaviour (fresh config)
      { before with realm := before.realm.emit (.programDecoded Codec.Form.persistent.name program.length) } :=
    reachedBefore.outside _ rfl
  have performed := CommandLine.exists_outcome decoded own (laterReached.trans further) idle
  rw [← number]
  exact performed

/-- Every spell has been reported once. -/
theorem ids_perm
    (played : PlayedOut config programs final) :
    (final.completed.map (·.id)).Perm (List.range' 1 programs.length) := by
  have divided := played.attended.accounts.divided
  rw [Scheduler.castIds, List.isEmpty_iff.mp played.idle, List.map_nil, List.nil_append, History.completedIds_eq,
    played.registered] at divided
  exact divided

/-- A jump has run exactly if the reference run of a spell has one. -/
theorem any_isJump
    (played : PlayedOut config programs final) :
    final.executed.any (·.2.isJump) =
      programs.any fun program => (reference config.forks program.instructions).executed.any (·.isJump) := by
  rw [Bool.eq_iff_iff]
  simp only [List.any_eq_true]
  constructor
  · rintro ⟨entry, member, jumps⟩
    have number : entry.1 ∈ List.range' 1 programs.length := by
      rw [← played.registered]
      exact played.reached.executed_registered (.ofConfig config) entry member
    obtain ⟨earlier, program, later, rfl, place⟩ := exists_split_of_number number
    refine ⟨program, List.mem_append_right _ List.mem_cons_self, entry.2, ?_, jumps⟩
    rw [← played.exists_outcome.1, ← place]
    exact List.mem_map_of_mem (List.mem_filter.mpr ⟨member, beq_self_eq_true _⟩)
  · rintro ⟨program, member, instruction, runs, jumps⟩
    obtain ⟨earlier, later, rfl⟩ := List.append_of_mem member
    rw [← played.exists_outcome.1] at runs
    obtain ⟨entry, executed, rfl⟩ := List.mem_map.mp runs
    exact ⟨entry, (List.mem_filter.mp executed).1, jumps⟩

/-- The results have one line for each spell, in the order in which the spells have ended. -/
theorem lines_perm
    (played : PlayedOut config programs final) :
    (final.completed.map outcomeLine).Perm ((programs.zipIdx 1).map fun (program, number) =>
      spellLine number (max config.steps 1) (reference config.forks program.instructions)) := by
  have distinct : (final.completed.map (·.id)).Nodup := played.ids_perm.nodup_iff.mpr List.nodup_range'
  -- both lists of lines can be told from numbers alone
  let line (number : Nat) : String := (programs[number - 1]?.map fun program =>
    spellLine number (max config.steps 1) (reference config.forks program.instructions)).getD ""
  have shown : final.completed.map outcomeLine = (final.completed.map (·.id)).map line := by
    rw [List.map_map]
    apply List.map_congr_left
    intro outcome member
    obtain ⟨earlier, program, later, rfl, place⟩ :=
      exists_split_of_number (played.ids_perm.mem_iff.mp (List.mem_map_of_mem member))
    obtain ⟨-, same, sameMember, sameId, gives⟩ := played.exists_outcome
    obtain rfl : same = outcome := List.inj_on_of_nodup_map distinct sameMember member (sameId.trans place.symm)
    rw [outcomeLine_of_gives gives]
    simp [line, place]
  have wanted : ((programs.zipIdx 1).map fun (program, number) =>
      spellLine number (max config.steps 1) (reference config.forks program.instructions)) =
        ((programs.zipIdx 1).map (·.2)).map line := by
    rw [List.map_map]
    apply List.map_congr_left
    rintro ⟨program, number⟩ member
    obtain ⟨-, found⟩ := List.mk_mem_zipIdx_iff_le_and_getElem?_sub.mp member
    simp [line, found]
  rw [shown, wanted, List.zipIdx_map_snd]
  exact played.ids_perm.map line

end PlayedOut

/-- A spell that is the only one gives one outcome, that of the reference run of its program. -/
theorem exists_alone
    {read : String → Except Files.Fault String}
    {file : String}
    (path : String)
    (decodes : Decodes ⟨Glyph.standard id, config.length⟩ read file program) :
    ∃ alone, ((Stage.ofConfig path config).enrollAll read [file]).1.perform.outcomes = [alone] ∧
      alone.Gives (max config.steps 1) (reference config.forks program.instructions) := by
  have begins : (Stage.ofConfig path config).Stands (fresh config) := ⟨rfl, rfl⟩
  have stands := (begins.enrollAll (.cons decodes .nil)).1
  have standard : ∀ other ∈ [program], ∀ instruction ∈ other.instructions, Glyph.IsStandard id instruction := by
    intro other member
    obtain rfl := List.mem_singleton.mp member
    exact decodes.standard
  obtain ⟨final, played, performed⟩ := exists_playedOut standard stands
  obtain ⟨alone, single⟩ : ∃ alone, final.completed = [alone] := by
    rw [← List.length_eq_one_iff, ← List.length_map (·.id), played.ids_perm.length_eq]
    rfl
  have split : PlayedOut config ([] ++ program :: []) final := played
  obtain ⟨-, outcome, member, -, gives⟩ := split.exists_outcome
  rw [single] at member
  exact ⟨alone, by rw [performed]; exact single, List.mem_singleton.mp member ▸ gives⟩

end CommandLine

end Spellcast
