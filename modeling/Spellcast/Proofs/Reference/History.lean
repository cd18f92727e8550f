import Mathlib.Data.List.Nodup
import Spellcast.Proofs.Reference.Cast

/-!
# Standard casts among others

A standard cast that is registered in any history, and that nobody interrupts from then on, performs the account of
the reference run: after every call it is in flight, so far along as there were ticks, or it has been reported with
the outcome of the whole account. What the other casts are and what happens to them does not matter.
-/

namespace Spellcast

variable {κ : Type} {behaviour : Behaviour κ} {embed : Glyph → κ} {rules : Rules κ}

namespace History

variable {history : History κ} {id : CastId} {total : Account κ} {start : Nat}

/-- The cast with this number, registered after so many ticks, performs an account. -/
inductive Performs (embed : Glyph → κ) (id : CastId) (total : Account κ) (start : Nat) (history : History κ) : Prop
  /-- It has done a part of the account and is in flight. -/
  | inFlight {cast : InFlight} {context : Context κ} {left : Account κ} :
      cast ∈ history.scheduler.casts →
      cast.id = id →
      history.scheduler.arena.get? cast.active = some context →
      Follows embed history.scheduler.maxSteps history.scheduler.maxForks total (history.executedBy id) cast context
        left →
      history.scheduler.ticks = start + cast.ticks →
      Performs embed id total start history
  /-- It has been reported with the outcome of the account. -/
  | completed {outcome : Outcome κ} :
      outcome ∈ history.completed →
      outcome.id = id →
      history.executedBy id = total.executed →
      outcome.Gives history.scheduler.maxSteps total →
      Performs embed id total start history

section Performs

variable {maxSteps maxForks : Nat} {context : Context κ}

/-- What leaves a cast and its active context alone leaves the cast where it stands. -/
theorem Performs.of_same
    {later : History κ}
    (performs : history.Performs embed id total start)
    (casts : ∀ cast ∈ history.scheduler.casts, cast ∈ later.scheduler.casts)
    (contexts : ∀ cast ∈ history.scheduler.casts, cast.id = id →
      later.scheduler.arena.get? cast.active = history.scheduler.arena.get? cast.active)
    (maxSteps : later.scheduler.maxSteps = history.scheduler.maxSteps)
    (maxForks : later.scheduler.maxForks = history.scheduler.maxForks)
    (ticks : later.scheduler.ticks = history.scheduler.ticks)
    (reports : later.reports = history.reports)
    (executed : later.executed = history.executed) :
    later.Performs embed id total start := by
  have executedBy : later.executedBy id = history.executedBy id := by
    rw [History.executedBy, executed, History.executedBy]
  cases performs with
  | inFlight member same live follows counted =>
      rw [← maxSteps, ← maxForks, ← executedBy] at follows
      exact .inFlight (casts _ member) same ((contexts _ member same).trans live) follows (ticks.trans counted)
  | completed member same whole gives =>
      refine .completed ?_ same (executedBy.trans whole) (maxSteps ▸ gives)
      rw [History.completed, reports]
      exact member

theorem Performs.tick
    (performs : history.Performs embed id total start)
    (carries : behaviour.Carries embed)
    (positive : 0 < history.scheduler.maxSteps)
    (owns : history.Owns)
    (accounts : history.Accounts) :
    (history.tick behaviour).Performs embed id total start := by
  cases performs with
  | completed member same whole gives =>
      have reported : id ∈ history.completedIds := by
        rw [completedIds_eq]
        exact same ▸ List.mem_map_of_mem member
      have absent := accounts.not_mem_castIds reported
      refine .completed ?_ same ((executedBy_tick_of_absent absent).trans whole) gives
      rw [History.completed, History.tick, List.flatMap_append]
      exact List.mem_append_left _ member
  | @inFlight cast context left member same live follows counted =>
      have distinct := accounts.castIds_nodup
      obtain ⟨turn, turned⟩ := Scheduler.exists_turned behaviour owns distinct member history.realm
      obtain ⟨others, turnOwns⟩ := turned.owns
      have turnLive := turned_live turned owns member live
      have followed := Turn.take_follows carries positive turnOwns turnLive turned.started turned.uncounted follows
      have keeps := Turn.keeps_take behaviour history.scheduler.maxSteps history.scheduler.maxForks turnOwns
      have executed := executedBy_tick_of_turned turned
      rw [same] at executed
      rw [← executed] at followed
      rcases taken : turn.take behaviour history.scheduler.maxSteps history.scheduler.maxForks with ⟨after, verdict⟩
      rw [taken] at followed keeps
      have sameId : after.cast.id = id := by
        rw [keeps.sameId, turned.started]
        exact same
      have oneMore : after.cast.ticks = cast.ticks + 1 := by
        rw [keeps.sameTicks, turned.started]
      cases followed with
      | @further contextAfter leftAfter liveAfter followsAfter =>
          obtain ⟨staysInFlight, sameContexts⟩ := turned.running after taken
          have activeAfter := (keeps.owns.coherent _ List.mem_cons_self).active_mem
          refine .inFlight staysInFlight sameId ((sameContexts _ activeAfter).trans liveAfter) followsAfter ?_
          change history.scheduler.ticks + 1 = _
          rw [counted, oneMore, Nat.add_assoc]
      | ended whole gives =>
          refine .completed ?_ sameId whole gives
          rw [History.completed, History.tick, List.flatMap_append]
          exact List.mem_append_right _ (by simpa using turned.finished after taken)

theorem Performs.interrupted
    {scheduler : Scheduler κ}
    (performs : history.Performs embed id total start)
    (realm : Realm)
    (unchanged : ∃ arena, scheduler = { history.scheduler with arena })
    (contexts : ∀ cast ∈ history.scheduler.casts, cast.id = id →
      scheduler.arena.get? cast.active = history.scheduler.arena.get? cast.active) :
    ({ history with scheduler, realm } : History κ).Performs embed id total start := by
  obtain ⟨arena, rfl⟩ := unchanged
  exact performs.of_same (fun _ member => member) contexts rfl rfl rfl rfl rfl

/-- No call ends what a cast performs, as long as nobody interrupts it. -/
theorem performs_stable
    (carries : behaviour.Carries embed)
    (spare : rules.Spare id)
    (positive : 0 < maxSteps) :
    Stable rules behaviour fun history =>
      (history.Owns ∧ history.Accounts) ∧
        (history.scheduler.maxSteps = maxSteps ∧ history.scheduler.maxForks = maxForks) ∧
          history.Performs embed id total start where
  cast history context holds := by
    obtain ⟨both, limits, performs⟩ := holds
    refine ⟨(accounts_stable behaviour rules).cast history context both, limits, ?_⟩
    refine performs.of_same (fun _ => List.mem_append_left _) ?_ rfl rfl rfl rfl rfl
    intro cast member _
    exact Scheduler.cast_apart both.1 member context history.realm _ (both.1.coherent _ member).active_mem
  tick history holds := by
    obtain ⟨both, limits, performs⟩ := holds
    exact ⟨(accounts_stable behaviour rules).tick history both, limits,
      performs.tick carries (limits.1 ▸ positive) both.1 both.2⟩
  cancel history other reason allowed holds := by
    obtain ⟨both, limits, performs⟩ := holds
    have notThis : other ≠ id := spare _ allowed
    refine ⟨(accounts_stable behaviour rules).cancel history other reason allowed both,
      (limits_stable behaviour rules _ _).cancel history other reason allowed limits,
      performs.interrupted _ (Scheduler.cancelCast_arena behaviour history.scheduler other reason history.realm) ?_⟩
    intro cast member same
    exact Scheduler.cancelCast_apart both.1 member (same ▸ notThis.symm) reason history.realm _
      (both.1.coherent _ member).active_mem
  terminate history other allowed holds := by
    obtain ⟨both, limits, performs⟩ := holds
    have notThis : other ≠ id := spare _ allowed
    refine ⟨(accounts_stable behaviour rules).terminate history other allowed both,
      (limits_stable behaviour rules _ _).terminate history other allowed limits,
      performs.interrupted _ (Scheduler.terminateCast_arena history.scheduler other history.realm) ?_⟩
    intro cast member same
    exact Scheduler.terminateCast_apart both.1 member (same ▸ notThis.symm) history.realm _
      (both.1.coherent _ member).active_mem
  outside history realm holds := by
    obtain ⟨both, limits, performs⟩ := holds
    exact ⟨(accounts_stable behaviour rules).outside history realm both, limits,
      performs.interrupted realm ⟨history.scheduler.arena, rfl⟩ fun _ _ _ => rfl⟩

/-- A standard cast starts out with its whole account before it. -/
theorem performs_cast
    (accounts : history.Accounts)
    (registered : ∀ entry ∈ history.executed, entry.1 ∈ history.registered)
    (fresh : context.Fresh)
    (standard : ∀ instruction ∈ context.program.instructions, Glyph.IsStandard embed instruction) :
    (history.cast context).Performs embed history.scheduler.nextCast
      (reference history.scheduler.maxForks context.program.instructions) history.scheduler.ticks := by
  have nothing : (history.cast context).executedBy history.scheduler.nextCast = [] := by
    refine executedBy_eq_nil fun entry member same => ?_
    exact accounts.nextCast_unknown (same ▸ registered entry member)
  let root : Context κ := { context with parent := none }
  let cast : InFlight :=
    { id := history.scheduler.nextCast, active := history.scheduler.arena.nextId
      contexts := [history.scheduler.arena.nextId], steps := 0, forks := 0, ticks := 0 }
  let total := reference history.scheduler.maxForks context.program.instructions
  have ahead : root.ahead = context.program.instructions := by
    change context.program.instructions.drop context.counter = _
    rw [fresh.counter, List.drop_zero]
  have noWait : root.wait = 0 := by
    change context.wait = 0
    rw [Context.wait, fresh.awake]
  have follows : Follows embed history.scheduler.maxSteps history.scheduler.maxForks total [] cast root total := by
    refine ⟨⟨fresh.running, standard, Nat.zero_le _, ?_⟩, rfl, rfl, (Nat.zero_add _).symm, ?_, rfl⟩
    · rw [ahead]
      rfl
    · rw [noWait]
      exact (Nat.zero_add _).symm
  exact .inFlight (List.mem_append_right _ List.mem_cons_self) rfl Arena.get?_insert_self (nothing ▸ follows) rfl

/-- A cast that performs an account is completed when the ticks of the account are over. -/
theorem Performs.exists_outcome
    (performs : history.Performs embed id total start)
    (elapsed : start + total.ticks history.scheduler.maxSteps ≤ history.scheduler.ticks) :
    ∃ outcome ∈ history.completed, outcome.id = id ∧ outcome.Gives history.scheduler.maxSteps total := by
  cases performs with
  | completed member same _ gives =>
      exact ⟨_, member, same, gives⟩
  | @inFlight cast context left _ _ _ follows counted =>
      have unfinished := left.ticks_pos history.scheduler.maxSteps
      have ticks := follows.ticks
      omega

/-- The outcome of a cast that performs an account is the one that the account gives. -/
theorem Performs.gives
    {outcome : Outcome κ}
    (performs : history.Performs embed id total start)
    (accounts : history.Accounts)
    (member : outcome ∈ history.completed)
    (same : outcome.id = id) :
    history.executedBy id = total.executed ∧ outcome.Gives history.scheduler.maxSteps total := by
  have reported : id ∈ history.completed.map (·.id) := same ▸ List.mem_map_of_mem member
  rw [← completedIds_eq] at reported
  cases performs with
  | @inFlight cast context left inFlight sameCast _ _ _ =>
      exact absurd (sameCast ▸ List.mem_map_of_mem inFlight) (accounts.not_mem_castIds reported)
  | @completed other otherMember otherSame whole gives =>
      have once := (List.nodup_append.mp accounts.nodup).2.1
      rw [completedIds_eq] at once
      have equal : outcome = other :=
        List.inj_on_of_nodup_map once member otherMember (same.trans otherSame.symm)
      exact ⟨whole, equal ▸ gives⟩

end Performs

end History

section Reaches

variable {sparing : Rules κ} {scheduler : Scheduler κ} {realm : Realm} {before after : History κ}
  {context : Context κ}

/-- A standard cast performs the account of the reference run, from any history on. -/
theorem Reaches.performs
    (carries : behaviour.Carries embed)
    (made : scheduler.Made)
    (reached : Reaches rules behaviour (.start scheduler realm) before)
    (fresh : context.Fresh)
    (standard : ∀ instruction ∈ context.program.instructions, Glyph.IsStandard embed instruction)
    (spare : sparing.Spare before.scheduler.nextCast)
    (further : Reaches sparing behaviour (before.cast context) after) :
    after.Accounts ∧ after.scheduler.maxSteps = before.scheduler.maxSteps ∧
      after.Performs embed before.scheduler.nextCast
        (reference before.scheduler.maxForks context.program.instructions) before.scheduler.ticks := by
  have accounts := reached.accounts made
  have initially : (before.cast context).Owns ∧ (before.cast context).Accounts :=
    (History.accounts_stable behaviour rules).cast before context ⟨reached.owns made, accounts⟩
  have starts := History.performs_cast accounts (reached.executed_registered made) fresh standard
  have positive := reached.maxSteps_pos made
  obtain ⟨both, limits, performs⟩ :=
    (History.performs_stable carries spare positive).reaches ⟨initially, ⟨rfl, rfl⟩, starts⟩ further
  exact ⟨both.2, limits.1, performs⟩

end Reaches

/-- A standard program, cast from a context that has not run yet and then left alone, does exactly what the reference
run does: it runs the same instructions, is reported with the same steps, forks and reason, and takes the ticks in
which its contexts run and nineteen more for each fork. When these are over it has been reported. -/
theorem standardCastsFollowTheReference
    {sparing : Rules κ}
    {scheduler : Scheduler κ}
    {realm : Realm}
    {before after : History κ}
    {context : Context κ}
    (carries : behaviour.Carries embed)
    (made : scheduler.Made)
    (reached : Reaches rules behaviour (.start scheduler realm) before)
    (fresh : context.Fresh)
    (standard : ∀ instruction ∈ context.program.instructions, Glyph.IsStandard embed instruction)
    (spare : sparing.Spare before.scheduler.nextCast)
    (further : Reaches sparing behaviour (before.cast context) after) :
    let id := before.scheduler.nextCast
    let budget := before.scheduler.maxSteps
    let total := reference before.scheduler.maxForks context.program.instructions
    (∀ outcome ∈ after.completed, outcome.id = id →
      after.executedBy id = total.executed ∧ outcome.steps = total.executed.length ∧
        outcome.forks = total.forks ∧ outcome.cancelReason = total.reason ∧
          outcome.ticks =
            (total.contexts.map fun ran => max 1 ((ran.length + budget - 1) / budget)).sum + 19 * total.forks) ∧
    (before.scheduler.ticks + total.ticks budget ≤ after.scheduler.ticks →
      ∃ outcome ∈ after.completed, outcome.id = id) := by
  intro id budget total
  obtain ⟨accounts, sameBudget, performs⟩ := reached.performs carries made fresh standard spare further
  constructor
  · intro outcome member same
    obtain ⟨executed, gives⟩ := performs.gives accounts member same
    rw [sameBudget] at gives
    exact ⟨executed, gives.steps, gives.forks, gives.cancelReason, gives.ticks⟩
  · intro elapsed
    obtain ⟨outcome, member, same, -⟩ := performs.exists_outcome (sameBudget ▸ elapsed)
    exact ⟨outcome, member, same⟩

/-- A delay, an echo and a ward, one instruction a tick: the ward runs twice in the child, and all is over after the
tick of the delay, the nineteen of the wait and one for each ward. -/
theorem standardCastsFollowTheReference_echoedWard :
    let wardId : Identifier := ⟨Identifier.defaultSpace, "glyph_ward", Identifier.defaultSpace_isWord, by decide⟩
    let delay : Instruction Glyph := Glyph.instruction id 0 Glyph.delayId (.delay Glyph.defaultDelay)
    let echo : Instruction Glyph := Glyph.instruction id 1 Glyph.echoId (.echo Glyph.echoId Glyph.defaultTimes)
    let ward : Instruction Glyph := Glyph.instruction id 2 wardId .ward
    let context : Context Glyph := .ofProgram (.ofInstructions [delay, echo, ward])
    let rules : Rules Glyph := ⟨fun call => ¬ call.Interrupts 1, fun _ _ => True⟩
    let fresh : History Glyph := .start (Scheduler.empty.withMaxSteps 1) .empty
    let after := (fresh.cast context).runUntilIdle Glyph.behaviour 22
    Scheduler.Made fresh.scheduler ∧ Reaches rules Glyph.behaviour fresh fresh ∧ context.Fresh ∧
      (∀ instruction ∈ context.program.instructions, Glyph.IsStandard id instruction) ∧ rules.Spare 1 ∧
      Reaches rules Glyph.behaviour (fresh.cast context) after ∧
      after.executedBy 1 = [delay, ward, ward] ∧
      ∃ outcome ∈ after.completed, outcome.id = 1 ∧ outcome.steps = 3 ∧ outcome.forks = 1 ∧
        outcome.cancelReason = none ∧ outcome.ticks = 22 := by
  intro wardId delay echo ward context rules fresh after
  have made : Scheduler.Made fresh.scheduler := .withMaxSteps 1 .empty
  have standard : ∀ instruction ∈ context.program.instructions, Glyph.IsStandard id instruction := by
    refine List.forall_mem_cons.mpr ⟨Glyph.isStandard_delay 0, ?_⟩
    refine List.forall_mem_cons.mpr ⟨Glyph.isStandard_echo 1, ?_⟩
    exact List.forall_mem_singleton.mpr (Glyph.isStandard_of_ofId? rfl (by decide) rfl 2)
  have spare : rules.Spare 1 := fun _ allowed => allowed
  have further : Reaches rules Glyph.behaviour (fresh.cast context) after :=
    .call (.runUntilIdle 22) .origin id
  have reached : Reaches rules Glyph.behaviour fresh fresh := .origin
  have account :
      reference fresh.scheduler.maxForks context.program.instructions = ⟨[delay], [[ward, ward]], false⟩ := rfl
  obtain ⟨gives, completes⟩ :=
    standardCastsFollowTheReference Glyph.behaviour_carries made reached ⟨rfl, rfl, rfl⟩ standard spare further
  rw [account] at gives completes
  obtain ⟨outcome, member, same⟩ := completes (by decide)
  obtain ⟨executed, steps, forks, reason, ticks⟩ := gives outcome member same
  exact ⟨made, reached, ⟨rfl, rfl, rfl⟩, standard, spare, further, executed, outcome, member, same, steps, forks,
    reason, ticks.trans (by decide)⟩

end Spellcast
