import Spellcast.Proofs.Log.Tick
import Spellcast.Proofs.Outcome
import Spellcast.Proofs.Suspension.Delay
import Spellcast.Session.Part

/-!
# The limit of forks

A cast may fork so many times and no more. As long as it has forks left every wish for one is granted. The first wish
beyond that ends the cast in the same tick: no child is made and nobody is asked or told, whatever the instruction has
done to the context before.
-/

namespace Spellcast

variable {κ : Type} {behaviour : Behaviour κ} {maxSteps maxForks : Nat} {others : List InFlight}

namespace Turn

variable {steps : Nat} {turn next middle : Turn κ} {context after : Context κ} {instruction : Instruction κ}
  {realm : Realm}

/-- What lasts for a turn holds in the middle of it. -/
theorem Comes.lasts
    {property : Turn κ → Prop}
    (lasting : Lasting behaviour maxForks others property)
    (owns : Owns turn.arena (turn.cast :: others))
    (comes : Comes behaviour maxForks steps turn middle)
    (holds : property turn) :
    property middle := by
  induction comes with
  | here =>
      exact holds
  | further stepped _ inductionHypothesis =>
      have first := keeps_step behaviour maxForks owns
      have still := lasting.step _ owns holds
      rw [stepped] at first still
      exact inductionHypothesis first.owns still

theorem Comes.stepped
    (comes : Comes behaviour maxForks steps turn middle)
    (stepped : middle.step behaviour maxForks = (next, true)) :
    Comes behaviour maxForks (steps + 1) turn next := by
  induction comes with
  | here =>
      exact .further stepped .here
  | further earlier _ inductionHypothesis =>
      exact .further earlier (inductionHypothesis stepped)

/-- The cast has not forked more often than it may. -/
def WithinForks (maxForks : Nat) (turn : Turn κ) : Prop := turn.cast.forks ≤ maxForks

theorem withinForks_lasting
    (behaviour : Behaviour κ)
    (maxForks : Nat)
    (others : List InFlight) :
    Lasting behaviour maxForks others (WithinForks maxForks) where
  announced _ within := within
  wake turn context _ _ within := by
    have cases := wake_cases turn context
    generalize (turn.wake context).1 = woken at cases ⊢
    generalize (turn.wake context).2 = waits at cases
    cases cases with
    | awake _ => exact within
    | waits _ _ _ => exact within
    | resumes _ _ _ => exact within
  step turn owns within := by
    obtain ⟨context, live⟩ := active_live owns
    have cases := step_cases behaviour maxForks live (known owns)
    generalize (turn.step behaviour maxForks).1 = next at cases ⊢
    generalize (turn.step behaviour maxForks).2 = goesOn at cases
    cases cases with
    | exhausted _ _ => exact within
    | proceed _ => exact within
    | limit _ _ => exact within
    | fork _ below => exact Nat.succ_le_of_lt below
  counted _ within := within
  left _ within := within

/-- The end of a turn in which an instruction has left the active context and the realm like this, and has asked for a
fork too many. -/
def refused (maxForks : Nat) (turn : Turn κ) (after : Context κ) (realm : Realm) : Turn κ :=
  ((turn.ran after realm).stoppedAtLimit maxForks after).counted.left

theorem Runs.of_same_cast
    {other : Behaviour κ}
    {resolution : Resolution}
    (runs : turn.Runs behaviour context instruction resolution after realm)
    (sameCast : other.cast = behaviour.cast)
    (sameName : other.effectName = behaviour.effectName) :
    turn.Runs other context instruction resolution after realm where
  live := runs.live
  next := runs.next
  found := runs.found
  cast := by
    rw [castingRealm, sameName, sameCast]
    exact runs.cast

/-- A turn that comes to a fork too many ends there. -/
theorem Comes.refused
    (owns : Owns turn.arena (turn.cast :: others))
    (comes : Comes behaviour maxForks steps turn middle)
    (runs : middle.Runs behaviour context instruction .fork after realm)
    (limit : maxForks ≤ middle.cast.forks)
    (more : Nat) :
    turn.run behaviour maxForks (steps + (more + 1)) = (middle.ran after realm).stoppedAtLimit maxForks after ∧
      ∃ before : List (ContextId × Instruction κ), before.length = steps ∧
        turn.executedIn behaviour maxForks (steps + (more + 1)) = before ++ [(middle.cast.active, instruction)] := by
  have stepped := step_of_fork_at_limit runs limit
  obtain ⟨before, length, split⟩ := comes.executedIn owns
  refine ⟨?_, before, length, ?_⟩
  · rw [comes.run, run_of_stop stepped]
  · rw [split, executedIn_of_stop stepped, next?_eq runs.live runs.next runs.found]
    rfl

end Turn

namespace History

variable {history : History κ} {cast : InFlight} {steps : Nat} {middle : Turn κ} {context after : Context κ}
  {instruction : Instruction κ} {realm : Realm}

/-- No cast has forked more often than it may. -/
structure WithinForks (history : History κ) : Prop where
  inFlight : ∀ cast ∈ history.scheduler.casts, cast.forks ≤ history.scheduler.maxForks
  reported : ∀ outcome ∈ history.completed, outcome.forks ≤ history.scheduler.maxForks

/-- What a tick reports is what the turn of a cast in flight has left. -/
theorem exists_turned_of_reported
    {outcome : Outcome κ}
    (owns : history.Owns)
    (accounts : history.Accounts)
    (reported : outcome ∈ (history.scheduler.tick behaviour history.realm).1.completed) :
    ∃ cast ∈ history.scheduler.casts, ∃ turn,
      Scheduler.Turned behaviour history.scheduler history.realm cast turn ∧
      let after := (turn.take behaviour history.scheduler.maxSteps history.scheduler.maxForks).1
      outcome = Scheduler.outcome after.cast (after.arena.get? after.cast.active) := by
  obtain ⟨-, completed, -⟩ := Scheduler.tick_ids behaviour owns history.realm
  have listed : outcome.id ∈ history.scheduler.castIds := completed.subset (List.mem_map_of_mem reported)
  obtain ⟨cast, member, sameId⟩ := List.mem_map.mp listed
  obtain ⟨turn, turned⟩ := Scheduler.exists_turned behaviour owns accounts.castIds_nodup member history.realm
  obtain ⟨-, outcomes⟩ := reported_iff_finished owns accounts turned
  exact ⟨cast, member, turn, turned, outcomes outcome reported sameId.symm⟩

theorem WithinForks.tick
    (within : history.WithinForks)
    (owns : history.Owns)
    (accounts : history.Accounts) :
    (history.tick behaviour).WithinForks := by
  have took {cast : InFlight} {turn : Turn κ}
      (member : cast ∈ history.scheduler.casts)
      (turned : Scheduler.Turned behaviour history.scheduler history.realm cast turn) :
      (turn.take behaviour history.scheduler.maxSteps history.scheduler.maxForks).1.cast.forks ≤
        history.scheduler.maxForks := by
    obtain ⟨others, turnOwns⟩ := turned.owns
    have started : turn.WithinForks history.scheduler.maxForks := by
      rw [Turn.WithinForks, turned.started]
      exact within.inFlight cast member
    exact (Turn.withinForks_lasting behaviour history.scheduler.maxForks others).take history.scheduler.maxSteps turnOwns
      started
  constructor
  · intro stays inFlight
    obtain ⟨cast, member, -, turn, after, turned, taken, rfl⟩ :=
      Scheduler.exists_turned_of_mem owns accounts.castIds_nodup inFlight
    have bounded := took member turned
    rw [taken] at bounded
    exact bounded
  · intro outcome reported
    rw [completed_tick] at reported
    rcases List.mem_append.mp reported with old | new
    · exact within.reported outcome old
    · obtain ⟨cast, member, turn, turned, rfl⟩ := exists_turned_of_reported owns accounts new
      exact took member turned

theorem WithinForks.interrupted
    {scheduler : Scheduler κ}
    (within : history.WithinForks)
    (realm : Realm)
    (unchanged : ∃ arena, scheduler = { history.scheduler with arena }) :
    ({ history with scheduler, realm } : History κ).WithinForks := by
  obtain ⟨arena, rfl⟩ := unchanged
  exact ⟨within.inFlight, within.reported⟩

theorem withinForks_stable (behaviour : Behaviour κ) (rules : Rules κ) :
    Stable rules behaviour fun history => (history.Owns ∧ history.Accounts) ∧ history.WithinForks where
  cast history context holds := by
    refine ⟨(accounts_stable behaviour rules).cast history context holds.1, ?_, holds.2.reported⟩
    intro cast member
    rcases List.mem_append.mp member with old | new
    · exact holds.2.inFlight cast old
    · rw [List.mem_singleton.mp new]
      exact Nat.zero_le _
  tick history holds :=
    ⟨(accounts_stable behaviour rules).tick history holds.1, holds.2.tick holds.1.1 holds.1.2⟩
  cancel history id reason allowed holds :=
    ⟨(accounts_stable behaviour rules).cancel history id reason allowed holds.1,
      holds.2.interrupted _ (Scheduler.cancelCast_arena behaviour history.scheduler id reason history.realm)⟩
  terminate history id allowed holds :=
    ⟨(accounts_stable behaviour rules).terminate history id allowed holds.1,
      holds.2.interrupted _ (Scheduler.terminateCast_arena history.scheduler id history.realm)⟩
  outside history realm holds :=
    ⟨(accounts_stable behaviour rules).outside history realm holds.1,
      holds.2.interrupted realm ⟨history.scheduler.arena, rfl⟩⟩

/-- The cast goes on in a new context, one step further in its turn. -/
structure Grants (behaviour : Behaviour κ) (history : History κ) (cast : InFlight) (steps : Nat) (middle : Turn κ)
    (after : Context κ) (realm : Realm) : Prop where
  goesOn : history.Amid behaviour cast (steps + 1) ((middle.ran after realm).movedOn behaviour after)
  moved : ((middle.ran after realm).movedOn behaviour after).cast = middle.cast.moved middle.arena.nextId
  unused : middle.arena.contains middle.arena.nextId = false
  child : ((middle.ran after realm).movedOn behaviour after).arena.get? middle.arena.nextId =
    some (after.makeChild behaviour middle.cast.active realm).1.context

/-- The turn of the cast ends with the instruction that has asked for a fork. No context is made, and the log says no
more than that there are no forks left and that the context is stopped. Nobody is asked or told: what manipulators and
observers would do makes no difference. The instruction is the last one of the cast and counts as a step of it, and the
cast is reported as terminated. -/
structure Refuses (behaviour : Behaviour κ) (history : History κ) (cast : InFlight) (steps : Nat) (middle : Turn κ)
    (instruction : Instruction κ) (after : Context κ) (realm : Realm) : Prop where
  ends : ∃ turn, Scheduler.Turned behaviour history.scheduler history.realm cast turn ∧
    turn.take behaviour history.scheduler.maxSteps history.scheduler.maxForks =
      (middle.refused history.scheduler.maxForks after realm, .finished)
  childless : (middle.refused history.scheduler.maxForks after realm).arena.ids = middle.arena.ids ∧
    (middle.refused history.scheduler.maxForks after realm).cast.contexts = middle.cast.contexts
  logged : (middle.refused history.scheduler.maxForks after realm).realm =
    ((realm.emit (.forkLimitExceeded middle.cast.id history.scheduler.maxForks)).emit
      (.terminated after.counter after.program.length)).leave
  unasked : ∀ other : Behaviour κ, other.cast = behaviour.cast → other.effectName = behaviour.effectName →
    middle.step other history.scheduler.maxForks = middle.step behaviour history.scheduler.maxForks
  runs : ∃ before : List (ContextId × Instruction κ), before.length = steps ∧
    history.RunsNext behaviour cast.id (before ++ [(middle.cast.active, instruction)])
  reported : (history.scheduler.tick behaviour history.realm).1.completed.filter (·.id == cast.id) =
    [{ id := cast.id, steps := cast.steps + (steps + 1), forks := middle.cast.forks, ticks := cast.ticks + 1
       cancelReason := some .terminated, finalContext := some after.stopped }]
  gone : cast.id ∉ (history.tick behaviour).scheduler.castIds

theorem Amid.withinForks
    (owns : history.Owns)
    (accounts : history.Accounts)
    (within : history.WithinForks)
    (amid : history.Amid behaviour cast steps middle) :
    middle.cast.forks ≤ history.scheduler.maxForks ∧
      middle.cast.contexts.length ≤ history.scheduler.maxForks + 1 := by
  obtain ⟨turn, others, held, woken, turned, turnOwns, live, woke, awake, comes, -⟩ := amid.exists_turn owns accounts
  have lasting := Turn.withinForks_lasting behaviour history.scheduler.maxForks others
  have started : turn.WithinForks history.scheduler.maxForks := by
    rw [Turn.WithinForks, turned.started]
    exact within.inFlight cast amid.mem
  have wakes := lasting.wake turn.announced held (Turn.keeps_announced turnOwns).owns live started
  rw [woke] at wakes
  have bounded : middle.cast.forks ≤ history.scheduler.maxForks := comes.lasts lasting awake.owns wakes
  have coherent := (comes.keeps awake.owns).owns.coherent _ List.mem_cons_self
  refine ⟨bounded, ?_⟩
  rw [coherent.length]
  omega

theorem Amid.grants
    (owns : history.Owns)
    (accounts : history.Accounts)
    (amid : history.Amid behaviour cast steps middle)
    (runs : middle.Runs behaviour context instruction .fork after realm)
    (below : middle.cast.forks < history.scheduler.maxForks) :
    history.Grants behaviour cast steps middle after realm := by
  obtain ⟨turn, others, -, woken, -, -, -, -, awake, comes, -⟩ := amid.exists_turn owns accounts
  have middleOwns := (comes.keeps awake.owns).owns
  have known := Turn.known middleOwns
  have stepped := Turn.step_of_fork_below_limit runs known below
  obtain ⟨earlier, later, held, woken, split, live, woke, comes⟩ := amid
  refine ⟨⟨earlier, later, held, woken, split, live, woke, comes.stepped stepped⟩, rfl, ?_, ?_⟩
  · exact middleOwns.numbered.contains_nextId
  · have ranKnown : (middle.ran after realm).cast.active ≠ (middle.ran after realm).arena.nextId := known
    exact Turn.movedOn_live ranKnown after

theorem Amid.refuses
    (owns : history.Owns)
    (accounts : history.Accounts)
    (amid : history.Amid behaviour cast steps middle)
    (allowed : steps < history.scheduler.maxSteps)
    (runs : middle.Runs behaviour context instruction .fork after realm)
    (limit : history.scheduler.maxForks ≤ middle.cast.forks) :
    history.Refuses behaviour cast steps middle instruction after realm := by
  obtain ⟨turn, others, held, woken, turned, turnOwns, live, woke, awake, comes, runsNext⟩ :=
    amid.exists_turn owns accounts
  have keeps := awake.trans (comes.keeps awake.owns)
  obtain ⟨more, sum⟩ : ∃ more, history.scheduler.maxSteps = steps + (more + 1) :=
    ⟨history.scheduler.maxSteps - steps - 1, by omega⟩
  obtain ⟨ran, before, length, executed⟩ := comes.refused awake.owns runs limit more
  -- the context is stopped after the effect, so that nothing the effect has done to it counts any more
  let stopped := (middle.ran after realm).stoppedAtLimit history.scheduler.maxForks after
  let final := middle.refused history.scheduler.maxForks after realm
  have stoppedLive : stopped.arena.get? stopped.cast.active = some after.stopped :=
    Arena.get?_set_self (Turn.ran_live runs.live)
  have finished : stopped.verdict = .finished := Turn.verdict_of_canceled stoppedLive rfl
  have taken :
      turn.take behaviour history.scheduler.maxSteps history.scheduler.maxForks = (final, .finished) := by
    rw [Turn.take_of_wakes live woke, sum, ran, finished]
    rfl
  have entries : turn.takenIn behaviour history.scheduler.maxSteps history.scheduler.maxForks =
      before ++ [(middle.cast.active, instruction)] := by
    rw [Turn.takenIn_of_wakes live woke, sum, executed]
  have counted : final.cast.steps = cast.steps + (steps + 1) := by
    have total := Turn.take_steps behaviour history.scheduler.maxSteps history.scheduler.maxForks turnOwns
      turned.uncounted
    rw [taken, ← Turn.takenIn_map, entries, turned.started] at total
    simpa [length] using total
  have sameId : final.cast.id = cast.id := by
    refine keeps.sameId.trans ?_
    rw [turned.started]
  have sameTicks : final.cast.ticks = cast.ticks + 1 := by
    refine keeps.sameTicks.trans ?_
    rw [turned.started]
  obtain ⟨once, gone⟩ :=
    Scheduler.reported_alone owns accounts.castIds_nodup (reported_of_finished turned taken stoppedLive)
  have outcome : Scheduler.outcome final.cast (some after.stopped) =
      { id := cast.id, steps := cast.steps + (steps + 1), forks := middle.cast.forks, ticks := cast.ticks + 1
        cancelReason := some .terminated, finalContext := some after.stopped } := by
    rw [Scheduler.outcome, counted, sameId, sameTicks]
    rfl
  rw [outcome] at once gone
  refine ⟨⟨turn, turned, taken⟩, ⟨?_, rfl⟩, rfl, ?_, ⟨before, length, runsNext _ entries⟩, once, gone⟩
  · exact Arena.ids_set.trans Arena.ids_set
  · intro other sameCast sameName
    rw [Turn.step_of_fork_at_limit runs limit,
      Turn.step_of_fork_at_limit (runs.of_same_cast sameCast sameName) limit]

end History

/-- A cast never makes more forks than the limit allows and has at most one context more. An instruction that asks for a
fork is granted one below the limit. At the limit it ends its cast, whatever it has done to the context before. -/
theorem forksAreLimitedExactly
    {rules : Rules κ}
    {scheduler : Scheduler κ}
    {realm : Realm}
    {history : History κ}
    (made : scheduler.Made)
    (reached : Reaches rules behaviour (.start scheduler realm) history) :
    let limit := history.scheduler.maxForks
    limit = scheduler.maxForks ∧
      (∀ cast ∈ history.scheduler.casts, cast.forks ≤ limit ∧ cast.contexts.length ≤ limit + 1) ∧
      (∀ outcome ∈ history.completed, outcome.forks ≤ limit) ∧
      ∀ (cast : InFlight) (steps : Nat) (middle : Turn κ), history.Amid behaviour cast steps middle →
        middle.cast.forks ≤ limit ∧ middle.cast.contexts.length ≤ limit + 1 ∧
        ∀ (context after : Context κ) (instruction : Instruction κ) (left : Realm),
          steps < history.scheduler.maxSteps →
          middle.Runs behaviour context instruction .fork after left →
          (middle.cast.forks < limit → history.Grants behaviour cast steps middle after left) ∧
          (middle.cast.forks = limit → history.Refuses behaviour cast steps middle instruction after left) := by
  intro limit
  have idle : (History.start scheduler realm).scheduler.casts = [] := made.owns.2
  have fresh : (History.start scheduler realm).WithinForks := by
    constructor
    · intro cast member
      rw [idle] at member
      exact absurd member List.not_mem_nil
    · intro outcome reported
      exact absurd reported List.not_mem_nil
  have start : Reaches rules behaviour (.start scheduler realm) (.start scheduler realm) := .origin
  obtain ⟨⟨owns, accounts⟩, within⟩ := (History.withinForks_stable behaviour rules).reaches
    ⟨⟨start.owns made, start.accounts made⟩, fresh⟩ reached
  have limits := (History.limits_stable behaviour rules scheduler.maxSteps scheduler.maxForks).reaches ⟨rfl, rfl⟩
    reached
  refine ⟨limits.2, ?_, within.reported, ?_⟩
  · intro cast member
    have bounded := within.inFlight cast member
    rw [(owns.coherent cast member).length]
    exact ⟨bounded, Nat.succ_le_succ bounded⟩
  · intro cast steps middle amid
    obtain ⟨forks, contexts⟩ := amid.withinForks owns accounts within
    refine ⟨forks, contexts, ?_⟩
    intro context after instruction left allowed runs
    constructor
    · intro below
      exact amid.grants owns accounts runs below
    · intro spent
      exact amid.refuses owns accounts allowed runs (Nat.le_of_eq spent.symm)

/-- With one fork allowed, a first instruction gets it, and in the child a script that cancels and delays its context and
then asks for another one ends the cast as terminated. -/
theorem forksAreLimitedExactly_selfCanceled :
    let behaviour := Session.Part.behaviour
    let forking : Instruction Session.Part := .plain Glyph.marksId ⟨0, .forking⟩
    let script : Instruction Session.Part :=
      .plain Glyph.marksId ⟨1, .scriptEffect "again" [.cancel .newContext, .delay 5] true⟩
    let context : Context Session.Part := .ofProgram (.ofInstructions [forking, script, forking])
    let fresh : History Session.Part := .start (Scheduler.empty.withMaxForks 1) .empty
    let history := fresh.cast context
    let cast : InFlight := { id := 1, active := 0, contexts := [0], steps := 0, forks := 0, ticks := 0 }
    let first := ((history.scheduler.roundAfter behaviour history.realm []).turn cast).announced
    let granted := first.castingRealm behaviour forking
    let second := (first.ran context.stepped granted).movedOn behaviour context.stepped
    let child := { context with program := .ofInstructions [script, forking], parent := some 0 }
    let (_, after, left) := behaviour.cast script.effect.code child.stepped (second.castingRealm behaviour script)
    fresh.scheduler.Made ∧ Reaches ⟨fun _ => True, fun _ _ => True⟩ behaviour fresh history ∧
      history.Grants behaviour cast 0 first context.stepped granted ∧
      history.Refuses behaviour cast 1 second script after left ∧
      after.canceled = true ∧ after.cancelReason = some .newContext ∧ after.suspension = some ⟨5⟩ := by
  intro behaviour forking script context fresh history cast first granted second child
  have made : fresh.scheduler.Made := .withMaxForks 1 .empty
  have reached : Reaches ⟨fun _ => True, fun _ _ => True⟩ behaviour fresh history :=
    .call (.cast context) .origin trivial
  obtain ⟨-, -, -, limited⟩ := forksAreLimitedExactly made reached
  have starts : history.Amid behaviour cast 0 first := ⟨[], [], context, first, rfl, rfl, rfl, .here⟩
  have asks : first.Runs behaviour context forking .fork context.stepped granted := ⟨rfl, rfl, rfl, rfl⟩
  have grants : history.Grants behaviour cast 0 first context.stepped granted :=
    ((limited cast 0 first starts).2.2 _ _ _ _ (by decide) asks).1 (by decide)
  have asksAgain : second.Runs behaviour child script .fork _ _ := ⟨rfl, rfl, rfl, rfl⟩
  have refuses := ((limited cast 1 second grants.goesOn).2.2 _ _ _ _ (by decide) asksAgain).2 rfl
  exact ⟨made, reached, grants, refuses, rfl, rfl, rfl⟩

end Spellcast
