import Spellcast.Proofs.Budget.Lockstep
import Spellcast.Proofs.Observers
import Spellcast.Proofs.Outcome

/-!
# Runs without external interrupts

Two casts that differ in their observers go through the same ticks, each of them alone: `History.InStep` holds as long
as they are in flight, and when one of them is reported the other one is reported with it.
-/

namespace Spellcast

variable {κ : Type} {view : κ → κ} {known : CellId → Prop} {behaviour : Behaviour κ}

def Outcome.bare (view : κ → κ) (outcome : Outcome κ) : Outcome κ :=
  { outcome with finalContext := outcome.finalContext.map (·.bare view) }

def InFlight.counts (cast : InFlight) : CastId × Nat × Nat × Nat := (cast.id, cast.steps, cast.forks, cast.ticks)

/-- What has been reported of a cast: its outcomes without observers, each with the attachments of the last context. -/
def History.bareReports (view : κ → κ) (history : History κ) (id : CastId) :
    List (Outcome κ × Option (List (Identifier × Option CellValue × List Identifier))) :=
  (history.completed.filter (·.id == id)).map fun outcome =>
    (outcome.bare view, outcome.finalContext.map (·.contents history.realm.cells))

/-- Two casts have the same number and have done as much. -/
structure InFlight.SameCounts (cast cast' : InFlight) : Prop where
  id : cast'.id = cast.id
  active : cast'.active = cast.active
  steps : cast'.steps = cast.steps
  forks : cast'.forks = cast.forks
  ticks : cast'.ticks = cast.ticks

theorem InFlight.SameCounts.counts
    {cast cast' : InFlight}
    (counts : cast.SameCounts cast') :
    cast'.counts = cast.counts := by
  rw [InFlight.counts, counts.id, counts.steps, counts.forks, counts.ticks, InFlight.counts]

theorem InFlight.SameCounts.outcome
    {cast cast' : InFlight}
    {final final' : Context κ}
    (counts : cast.SameCounts cast')
    (same : final'.bare view = final.bare view) :
    (Scheduler.outcome cast' (some final')).bare view = (Scheduler.outcome cast (some final)).bare view := by
  have reason : (Scheduler.outcome cast' (some final')).cancelReason =
      (Scheduler.outcome cast (some final)).cancelReason := by
    have canceled : final'.canceled = final.canceled := congrArg (·.canceled) same
    have held : final'.cancelReason = final.cancelReason := congrArg (·.cancelReason) same
    rw [Scheduler.outcome_cancelReason, Scheduler.outcome_cancelReason, canceled, held]
  rw [Outcome.bare, Outcome.bare, reason]
  simp only [Scheduler.outcome, counts.id, counts.steps, counts.forks, counts.ticks, Option.map_some, same]

namespace History

variable {first second : History κ} {cast cast' : InFlight} {id : CastId}

/-- Two histories under the same limits have run the same in as many ticks, observers aside. -/
structure Together (view : κ → κ) (first second : History κ) (id : CastId) : Prop where
  owns : first.Owns
  owns' : second.Owns
  ticks : second.scheduler.ticks = first.scheduler.ticks
  maxSteps : second.scheduler.maxSteps = first.scheduler.maxSteps
  maxForks : second.scheduler.maxForks = first.scheduler.maxForks
  executed : (second.executedBy id).map (·.bare view) = (first.executedBy id).map (·.bare view)

/-- One cast is in flight in both histories, at contexts that are the same without their observers. -/
structure Abeam (view : κ → κ) (known : CellId → Prop) (first second : History κ) (id : CastId)
    (cast cast' : InFlight) : Prop where
  alone : first.scheduler.casts = [cast]
  alone' : second.scheduler.casts = [cast']
  sameId : cast.id = id
  unreported : first.completed.filter (·.id == id) = []
  unreported' : second.completed.filter (·.id == id) = []
  counts : cast.SameCounts cast'
  twin : Turn.Twin (· = ·) (Context.SameBare view known) (first.loneTurn cast) (second.loneTurn cast')

/-- One cast is in flight in both histories, or has been reported in both with the same outcome. -/
inductive InStep (view : κ → κ) (known : CellId → Prop) (first second : History κ) (id : CastId) : Prop
  | flying {cast cast' : InFlight} : Together view first second id → Abeam view known first second id cast cast' →
      InStep view known first second id
  | ended : Together view first second id → first.scheduler.isIdle = true → second.scheduler.isIdle = true →
      second.bareReports view id = first.bareReports view id → InStep view known first second id

theorem Abeam.take
    (ignores : behaviour.IgnoresObservers view known)
    (together : Together view first second id)
    (abeam : Abeam view known first second id cast cast') :
    ∃ (after after' : Turn κ) (verdict : Turn.Verdict),
      (first.loneTurn cast).take behaviour first.scheduler.maxSteps first.scheduler.maxForks = (after, verdict) ∧
      (second.loneTurn cast').take behaviour second.scheduler.maxSteps second.scheduler.maxForks = (after', verdict) ∧
      ((second.loneTurn cast').taken behaviour second.scheduler.maxSteps second.scheduler.maxForks).map (·.bare view) =
        ((first.loneTurn cast).taken behaviour first.scheduler.maxSteps first.scheduler.maxForks).map (·.bare view) ∧
      after.cast.id = id ∧ after.cast.SameCounts after'.cast ∧
      Turn.Twin (· = ·) (Context.SameBare view known) after after' := by
  obtain ⟨alone, alone', sameId, -, -, counts, twin⟩ := abeam
  rw [together.maxSteps, together.maxForks]
  have owns := loneTurn_owns alone together.owns
  have owns' := loneTurn_owns alone' together.owns'
  obtain ⟨sameVerdict, sameTaken, twinAfter⟩ :=
    twin.take ignores.simulates first.scheduler.maxSteps first.scheduler.maxForks owns owns'
  have keeps := Turn.keeps_take behaviour first.scheduler.maxSteps first.scheduler.maxForks owns
  have keeps' := Turn.keeps_take behaviour first.scheduler.maxSteps first.scheduler.maxForks owns'
  have steps := Turn.take_steps behaviour first.scheduler.maxSteps first.scheduler.maxForks owns rfl
  have steps' := Turn.take_steps behaviour first.scheduler.maxSteps first.scheduler.maxForks owns' rfl
  have sameId : ((first.loneTurn cast).take behaviour first.scheduler.maxSteps first.scheduler.maxForks).1.cast.id =
      id := keeps.sameId.trans sameId
  rcases taken : (first.loneTurn cast).take behaviour first.scheduler.maxSteps first.scheduler.maxForks with
    ⟨after, verdict⟩
  rcases taken' : (second.loneTurn cast').take behaviour first.scheduler.maxSteps first.scheduler.maxForks with
    ⟨after', verdict'⟩
  rw [taken] at sameVerdict twinAfter keeps steps sameId
  rw [taken'] at sameVerdict twinAfter keeps' steps'
  have same : verdict' = verdict := sameVerdict
  subst same
  refine ⟨after, after', verdict', rfl, rfl, sameTaken, sameId, ⟨?_, twinAfter.active.symm, ?_, twinAfter.forks, ?_⟩,
    twinAfter⟩
  · exact keeps'.sameId.trans (counts.id.trans keeps.sameId.symm)
  · -- as many instructions have been run, whatever their observers
    have lengths := congrArg List.length sameTaken
    rw [List.length_map, List.length_map] at lengths
    have earlier : (second.loneTurn cast').cast.steps = (first.loneTurn cast).cast.steps := counts.steps
    rw [steps, steps', lengths, earlier]
  · have earlier : (second.loneTurn cast').cast.ticks = (first.loneTurn cast).cast.ticks :=
      congrArg (· + 1) counts.ticks
    exact keeps'.sameTicks.trans (earlier.trans keeps.sameTicks.symm)

theorem bareReports_of_finished
    {after : Turn κ}
    {context : Context κ}
    (alone : first.scheduler.casts = [cast])
    (taken : (first.loneTurn cast).take behaviour first.scheduler.maxSteps first.scheduler.maxForks =
      (after, .finished))
    (unreported : first.completed.filter (·.id == id) = [])
    (sameId : after.cast.id = id)
    (live : after.arena.get? after.cast.active = some context) :
    (first.tick behaviour).bareReports view id =
      [((Scheduler.outcome after.cast (some context)).bare view, some (context.contents after.realm.cells))] := by
  have own : [Scheduler.outcome after.cast (some context)].filter (·.id == id) =
      [Scheduler.outcome after.cast (some context)] := by
    simp [Scheduler.outcome, sameId]
  have cells : (first.tick behaviour).realm.cells = after.realm.cells := by
    obtain ⟨_, _, _, -, ticked⟩ := tick_of_finished alone taken
    rw [ticked]
    rfl
  rw [bareReports, completed_of_finished alone taken, live, List.filter_append, unreported, List.nil_append, own,
    List.map_singleton, cells]
  rfl

/-- After a tick both are in flight, or both have been reported with the same outcome. -/
theorem InStep.tick
    (ignores : behaviour.IgnoresObservers view known)
    (together : Together view first second id)
    (abeam : Abeam view known first second id cast cast') :
    InStep view known (first.tick behaviour) (second.tick behaviour) id := by
  obtain ⟨after, after', verdict, taken, taken', sameTaken, sameId, counts, twin⟩ := abeam.take ignores together
  have executed : ((second.tick behaviour).executedBy id).map (·.bare view) =
      ((first.tick behaviour).executedBy id).map (·.bare view) := by
    rw [executedBy_tick_of_alone abeam.alone abeam.sameId,
      executedBy_tick_of_alone abeam.alone' (abeam.counts.id.trans abeam.sameId), List.map_append, List.map_append,
      together.executed, sameTaken]
  have ticks : (second.tick behaviour).scheduler.ticks = (first.tick behaviour).scheduler.ticks :=
    congrArg (· + 1) together.ticks
  have next : Together view (first.tick behaviour) (second.tick behaviour) id :=
    ⟨Scheduler.tick_owns together.owns first.realm, Scheduler.tick_owns together.owns' second.realm, ticks,
      together.maxSteps, together.maxForks, executed⟩
  obtain ⟨context, context', live, live', same⟩ := twin.contexts
  cases verdict with
  | running =>
      have unreported := (completed_of_running abeam.alone taken).symm ▸ abeam.unreported
      have unreported' := (completed_of_running abeam.alone' taken').symm ▸ abeam.unreported'
      have abreast : Abeam view known (first.tick behaviour) (second.tick behaviour) id after.cast after'.cast := by
        obtain ⟨_, event, -, ticked⟩ := tick_of_running abeam.alone taken
        obtain ⟨_, event', -, ticked'⟩ := tick_of_running abeam.alone' taken'
        rw [ticked] at unreported
        rw [ticked'] at unreported'
        rw [ticked, ticked']
        refine ⟨rfl, rfl, sameId, unreported, unreported', counts, ⟨context, context', live, live', ?_⟩, twin.forks,
          twin.active, twin.nextId⟩
        exact ignores.simulates.logged same ((Realm.SameWorld.refl _).emit _) ((Realm.SameWorld.refl _).emit _)
      exact .flying next abreast
  | finished =>
      have reports : (first.tick behaviour).bareReports view id =
          [((Scheduler.outcome after.cast (some context)).bare view, some (context.contents after.realm.cells))] :=
        bareReports_of_finished abeam.alone taken abeam.unreported sameId live
      have reports' : (second.tick behaviour).bareReports view id =
          [((Scheduler.outcome after'.cast (some context')).bare view, some (context'.contents after'.realm.cells))] :=
        bareReports_of_finished abeam.alone' taken' abeam.unreported' (counts.id.trans sameId) live'
      have sameReports : (second.tick behaviour).bareReports view id = (first.tick behaviour).bareReports view id := by
        rw [reports, reports', counts.outcome same.bare, same.contents]
      obtain ⟨_, _, _, -, ticked⟩ := tick_of_finished abeam.alone taken
      obtain ⟨_, _, _, -, ticked'⟩ := tick_of_finished abeam.alone' taken'
      refine .ended next ?_ ?_ sameReports
      · rw [ticked]
        rfl
      · rw [ticked']
        rfl

theorem InStep.of_cast
    {rules : Rules κ}
    {scheduler : Scheduler κ}
    {realm : Realm}
    {before : History κ}
    {first second : Context κ}
    (made : scheduler.Made)
    (reached : Reaches rules behaviour (.start scheduler realm) before)
    (idle : before.scheduler.isIdle = true)
    (sameBare : second.bare view = first.bare view)
    (attachments : second.attachments = first.attachments)
    (held : ∀ cell ∈ first.cells, before.realm.cells.Has cell) :
    InStep view before.realm.cells.Has (before.cast first) (before.cast second) before.scheduler.nextCast := by
  have owns := reached.owns made
  have accounts := reached.accounts made
  have registered := reached.executed_registered made
  obtain ⟨live, resting⟩ := Resting.of_cast owns accounts registered idle first
  obtain ⟨live', resting'⟩ := Resting.of_cast owns accounts registered idle second
  have related : Context.SameBare view before.realm.cells.Has { first with parent := none } before.realm
      { second with parent := none } before.realm :=
    .of_bare (congrArg (fun bare : Context κ => { bare with parent := none }) sameBare) attachments held
  have noted (context : Context κ) : before.realm.Keeps (before.cast context).realm :=
    (((Realm.SameWorld.refl _).enter _).emit _).leave.keeps
  have together : Together view (before.cast first) (before.cast second) before.scheduler.nextCast :=
    ⟨resting.owns, resting'.owns, rfl, rfl, rfl, by rw [resting.executed, resting'.executed]⟩
  have silent {history : History κ} (unreported : ∀ outcome ∈ history.completed,
      outcome.id ≠ before.scheduler.nextCast) :
      history.completed.filter (·.id == before.scheduler.nextCast) = [] :=
    List.filter_eq_nil_iff.mpr fun outcome member => by simpa using unreported outcome member
  exact .flying together ⟨resting.alone, resting'.alone, rfl, silent resting.unreported, silent resting'.unreported,
    ⟨rfl, rfl, rfl, rfl, rfl⟩, ⟨_, _, live, live', related.keeps (noted first) (noted second)⟩, rfl, rfl, rfl⟩

theorem InStep.runUntilIdle
    (ignores : behaviour.IgnoresObservers view known)
    (inStep : InStep view known first second id)
    (limit : Nat) :
    InStep view known (first.runUntilIdle behaviour limit) (second.runUntilIdle behaviour limit) id := by
  induction limit generalizing first second with
  | zero =>
      exact inStep
  | succ limit inductionHypothesis =>
      cases inStep with
      | flying together abeam =>
          rw [runUntilIdle_succ abeam.alone, runUntilIdle_succ abeam.alone']
          exact inductionHypothesis (InStep.tick ignores together abeam)
      | ended together idle idle' sameReports =>
          rw [runUntilIdle_of_idle idle, runUntilIdle_of_idle idle']
          exact .ended together idle idle' sameReports

end History

/-- If a step moves the cast on into a child, it leaves the parent as the observers of the remaining instructions leave
it when they are told so. -/
def Turn.TellsOfFork (behaviour : Behaviour κ) (maxForks : Nat) (turn : Turn κ) : Prop :=
  (turn.step behaviour maxForks).1.cast.forks ≠ turn.cast.forks →
    ∃ context instruction parent realm noted, turn.Runs behaviour context instruction .fork parent realm ∧
      (turn.step behaviour maxForks).1.arena.get? turn.cast.active =
        some (Context.walk behaviour parent.remainder.instructions
          { context := { parent with canceled := true, cancelReason := some .newContext }
            realm := noted, told := 0, absorbed := false }).context

theorem Turn.tellsOfFork
    {turn : Turn κ}
    {others : List InFlight}
    (behaviour : Behaviour κ)
    (maxForks : Nat)
    (owns : Owns turn.arena (turn.cast :: others)) :
    turn.TellsOfFork behaviour maxForks := by
  obtain ⟨context, live⟩ := active_live owns
  have cases := step_cases behaviour maxForks live (known owns)
  intro forked
  generalize (turn.step behaviour maxForks).1 = after at cases forked ⊢
  generalize (turn.step behaviour maxForks).2 = goesOn at cases
  cases cases with
  | exhausted _ _ =>
      exact absurd rfl forked
  | proceed _ =>
      exact absurd rfl forked
  | limit _ _ =>
      exact absurd rfl forked
  | @fork _ parent instruction realm runs _ =>
      have stored : (turn.ran parent realm).arena.get? turn.cast.active = some parent := ran_live runs.live
      have apart : turn.cast.active ≠ (turn.ran parent realm).arena.nextId := known owns
      exact ⟨_, instruction, parent, realm, _, runs, Arena.get?_set_self ((Arena.get?_insert_of_ne apart).trans stored)⟩

/-- Observers cannot influence a cast that nobody cancels. Two contexts are the same but for the observers of their
programs, effects and manipulators do not look at observers, and observers change nothing but the context that they are
handed. Then both casts, each alone, run the same instructions in the same ticks, with as many steps and forks, and end
for the same reason in the same context, although every fork tells the observers that the run has moved on. -/
theorem observersCannotInfluence
    {rules : Rules κ}
    {scheduler : Scheduler κ}
    {realm : Realm}
    {before : History κ}
    {first second : Context κ}
    (made : scheduler.Made)
    (reached : Reaches rules behaviour (.start scheduler realm) before)
    (idle : before.scheduler.isIdle = true)
    (ignores : behaviour.IgnoresObservers view before.realm.cells.Has)
    (sameBare : second.bare view = first.bare view)
    (attachments : second.attachments = first.attachments)
    (held : ∀ cell ∈ first.cells, before.realm.cells.Has cell)
    (ticks : Nat) :
    let id := before.scheduler.nextCast
    let run := (before.cast first).runUntilIdle behaviour ticks
    let run' := (before.cast second).runUntilIdle behaviour ticks
    run'.scheduler.ticks = run.scheduler.ticks ∧
      (run'.executedBy id).map (·.bare view) = (run.executedBy id).map (·.bare view) ∧
      run'.scheduler.casts.map (·.counts) = run.scheduler.casts.map (·.counts) ∧
      run'.bareReports view id = run.bareReports view id ∧
      ∀ (turn : Turn κ) (others : List InFlight), Owns turn.arena (turn.cast :: others) →
        turn.TellsOfFork behaviour before.scheduler.maxForks := by
  intro id run run'
  have inStep : History.InStep view before.realm.cells.Has run run' id :=
    (History.InStep.of_cast made reached idle sameBare attachments held).runUntilIdle ignores ticks
  have tells : ∀ (turn : Turn κ) (others : List InFlight), Owns turn.arena (turn.cast :: others) →
      turn.TellsOfFork behaviour before.scheduler.maxForks :=
    fun _ _ owns => Turn.tellsOfFork behaviour before.scheduler.maxForks owns
  cases inStep with
  | flying together abeam =>
      refine ⟨together.ticks, together.executed, ?_, ?_, tells⟩
      · rw [abeam.alone, abeam.alone', List.map_singleton, List.map_singleton, abeam.counts.counts]
      · rw [History.bareReports, History.bareReports, abeam.unreported, abeam.unreported']
        rfl
  | ended together idle idle' sameReports =>
      refine ⟨together.ticks, together.executed, ?_, sameReports, tells⟩
      rw [List.isEmpty_iff.mp idle, List.isEmpty_iff.mp idle']

/-- An observer that sets the context back, suspends it and attaches something to it is told when the delay in front of
it forks. The mark then counts in another cell than without the observer, and everything else is as it was. -/
theorem observersCannotInfluence_meddling :
    let meddle (_ : Glyph) (context : Context Glyph) (realm : Realm) : Bool × Context Glyph × Realm :=
      let (_, attachments, cells) := context.attachments.insert realm.cells Glyph.marksId (.flag true)
      (true, { context.reset with attachments, suspension := some ⟨9⟩ }, { realm with cells })
    let behaviour : Behaviour Glyph := { Glyph.behaviour with notify := meddle }
    let delay : Instruction Glyph := .plain Glyph.delayId ⟨0, .delay 1⟩
    let mark : Instruction Glyph := .plain Glyph.marksId ⟨1, .mark Glyph.marksId⟩
    let observed : Instruction Glyph := { mark with observer := some .ward }
    let context : Context Glyph := .ofProgram (.ofInstructions [delay, mark])
    let context' : Context Glyph := .ofProgram (.ofInstructions [delay, observed])
    let fresh : History Glyph := .start .empty .empty
    fresh.scheduler.Made ∧ fresh.scheduler.isIdle = true ∧ behaviour.IgnoresObservers id fresh.realm.cells.Has ∧
      context'.bare id = context.bare id ∧ context'.attachments = context.attachments ∧
      (∀ cell ∈ context.cells, fresh.realm.cells.Has cell) ∧
      ((fresh.cast context').runUntilIdle behaviour 2).bareReports id 1 =
        ((fresh.cast context).runUntilIdle behaviour 2).bareReports id 1 ∧
      (((fresh.cast context').runUntilIdle behaviour 2).executedBy 1).map (·.observer.isSome) = [false, true] ∧
      ((fresh.cast context).runUntilIdle behaviour 2).realm.cells = ⟨#[.tally 1]⟩ ∧
      ((fresh.cast context').runUntilIdle behaviour 2).realm.cells = ⟨#[.flag true, .tally 1]⟩ := by
  intro meddle behaviour delay mark observed context context' fresh
  have keeps : ∀ glyph context (realm : Realm), realm.Keeps (meddle glyph context realm).2.2 :=
    fun _ _ _ => ⟨rfl, rfl, fun _ has => ⟨Cells.has_allocate_of_has has, Cells.read?_allocate_of_has has⟩⟩
  have ignores : behaviour.IgnoresObservers id fresh.realm.cells.Has :=
    Glyph.ignoresObservers fresh.realm.cells.Has meddle keeps
  have reached : Reaches ⟨fun _ => True, fun _ _ => True⟩ behaviour fresh fresh := .origin
  have sameBare : context'.bare id = context.bare id := rfl
  have attachments : context'.attachments = context.attachments := rfl
  have held : ∀ cell ∈ context.cells, fresh.realm.cells.Has cell := fun _ member => absurd member List.not_mem_nil
  have same := observersCannotInfluence .empty reached rfl ignores sameBare attachments held 2
  refine ⟨.empty, rfl, ignores, sameBare, attachments, held, same.2.2.2.1, ?_, ?_, ?_⟩
  · decide +kernel
  · decide +kernel
  · decide +kernel

end Spellcast
