import Spellcast.Proofs.Idle
import Spellcast.Proofs.Log.Tick
import Spellcast.Proofs.Suspension.Delay

/-!
# Every tick makes progress

A turn runs no more instructions than its budget allows, and it runs fewer only where nothing may run any more. So in
every tick each cast in flight is completed, runs an instruction or counts down the suspension that holds it back, and a
cast that could have gone on has used its budget up.
-/

namespace Spellcast

variable {κ : Type} {behaviour : Behaviour κ} {maxSteps maxForks : Nat} {others : List InFlight}

namespace Turn

variable {turn next : Turn κ} {context : Context κ}

/-- A step that ends the turn leaves an active context in which nothing may run. -/
theorem exhausted_of_stop
    (owns : Owns turn.arena (turn.cast :: others))
    (stepped : turn.step behaviour maxForks = (next, false)) :
    ∃ final, next.arena.get? next.cast.active = some final ∧ final.hasNext = false := by
  obtain ⟨context, live⟩ := active_live owns
  have cases := step_cases behaviour maxForks live (known owns)
  rw [stepped] at cases
  cases cases with
  | exhausted found exhausted =>
      exact ⟨_, found, exhausted⟩
  | @limit _ after _ _ runs _ =>
      refine ⟨after.stopped, Arena.get?_set_self (ran_live runs.live), ?_⟩
      simp [Context.hasNext, Context.stopped]

theorem run_spends
    (behaviour : Behaviour κ)
    (maxForks budget : Nat)
    (owns : Owns turn.arena (turn.cast :: others)) :
    let ran := turn.run behaviour maxForks budget
    let entries := turn.executed behaviour maxForks budget
    entries.length ≤ budget ∧
      (entries.length = budget ∨ ∃ final, ran.arena.get? ran.cast.active = some final ∧ final.hasNext = false) := by
  -- on the budget: a step that goes on has run an instruction, in this context or on the way into a child
  induction budget generalizing turn with
  | zero =>
      exact ⟨Nat.le_refl 0, .inl rfl⟩
  | succ budget inductionHypothesis =>
      have keeps := keeps_step behaviour maxForks owns
      rcases stepped : turn.step behaviour maxForks with ⟨next, goesOn⟩
      rw [stepped] at keeps
      cases goesOn with
      | false =>
          have atMostOne : turn.next?.toList.length ≤ 1 := by
            cases turn.next? with
            | none => exact Nat.zero_le 1
            | some instruction => exact Nat.le_refl 1
          rw [run_of_stop stepped, executed_of_stop stepped]
          exact ⟨by omega, .inr (exhausted_of_stop owns stepped)⟩
      | true =>
          obtain ⟨instruction, runs⟩ := next?_of_go owns stepped
          have nextOwns : Owns next.arena (next.cast :: others) := keeps.owns
          obtain ⟨bounded, spent⟩ := inductionHypothesis nextOwns
          rw [run_of_go stepped, executed_of_go stepped, runs]
          simp only [Option.toList_some, List.length_append, List.length_singleton]
          refine ⟨by omega, ?_⟩
          rcases spent with whole | exhausted
          · left
            omega
          · exact .inr exhausted

/-- A cast that need not wait runs an instruction in its turn or is finished, and one that goes on without waiting has
used its whole budget. -/
theorem take_productive
    {woken : Turn κ}
    (behaviour : Behaviour κ)
    (maxForks : Nat)
    (positive : 0 < maxSteps)
    (owns : Owns turn.arena (turn.cast :: others))
    (live : turn.arena.get? turn.cast.active = some context)
    (woke : turn.announced.wake context = (woken, false)) :
    let after := turn.take behaviour maxSteps maxForks
    let entries := turn.taken behaviour maxSteps maxForks
    entries.length ≤ maxSteps ∧ (entries = [] → after.2 = .finished) ∧
      (after.2 = .running →
        (∀ final, after.1.arena.get? after.1.cast.active = some final → final.isSuspended = false) →
        entries.length = maxSteps) := by
  have announced := keeps_announced owns
  have awake := announced.trans (keeps_wake announced.owns context)
  rw [woke] at awake
  obtain ⟨-, held, heldLive, -, -, settled⟩ := exists_woken live woke
  obtain ⟨bounded, spent⟩ := run_spends behaviour maxForks maxSteps awake.owns
  rw [take_of_wakes live woke, taken_of_wakes live woke]
  refine ⟨bounded, ?_, ?_⟩
  · intro nothing
    have exhausted : held.hasNext = false := by
      rw [Bool.eq_false_iff]
      intro next
      obtain ⟨instruction, found⟩ := Context.exists_get?_of_hasNext next
      obtain ⟨rest, first⟩ := executedIn_of_next behaviour maxForks positive (next?_eq heldLive next found)
      rw [← executedIn_map, first] at nothing
      exact absurd nothing (List.cons_ne_nil _ _)
    rw [(run_of_exhausted behaviour maxForks heldLive exhausted maxSteps).1]
    rcases settled with canceled | unsuspended
    · exact verdict_of_canceled heldLive canceled
    · exact verdict_of_exhausted heldLive exhausted (Context.isSuspended_of_none unsuspended)
  · intro running free
    rcases spent with whole | ⟨final, finalLive, exhausted⟩
    · exact whole
    · have finished := verdict_of_exhausted finalLive exhausted (free final finalLive)
      change (woken.run behaviour maxForks maxSteps).verdict = .running at running
      rw [finished] at running
      contradiction

end Turn

/-- A cast in flight after a tick is what its own turn has left. -/
theorem Scheduler.Turned.eq_of_mem
    {scheduler : Scheduler κ}
    {realm : Realm}
    {cast stays : InFlight}
    {turn after : Turn κ}
    {verdict : Turn.Verdict}
    (turned : Turned behaviour scheduler realm cast turn)
    (owns : Owns scheduler.arena scheduler.casts)
    (distinct : scheduler.castIds.Nodup)
    (taken : turn.take behaviour scheduler.maxSteps scheduler.maxForks = (after, verdict))
    (member : stays ∈ (scheduler.tick behaviour realm).2.1.casts)
    (sameId : stays.id = cast.id) :
    verdict = .running ∧ stays = after.cast := by
  obtain ⟨others, turnOwns⟩ := turned.owns
  have keeps := Turn.keeps_take behaviour scheduler.maxSteps scheduler.maxForks turnOwns
  rw [taken] at keeps
  have ownId : stays.id = after.cast.id := by
    rw [sameId, keeps.sameId, turned.started]
  cases verdict with
  | running =>
      exact ⟨rfl, (turned.alone_of_running owns distinct taken).1 stays member ownId⟩
  | finished =>
      have gone := (turned.alone_of_finished owns distinct taken).1
      rw [← ownId] at gone
      exact absurd (List.mem_map_of_mem member) gone

namespace History

variable {history : History κ} {cast : InFlight} {context : Context κ} {entries : List (ContextId × Instruction κ)}

/-- The next tick takes exactly one off the ticks that the cast has to wait, and changes nothing else of it. -/
def CountsDown (behaviour : Behaviour κ) (history : History κ) (cast : InFlight) : Prop :=
  ∃ context n, history.scheduler.arena.get? cast.active = some context ∧ context.suspension = some ⟨n⟩ ∧ 0 < n ∧
    history.Waited cast context n 1 (history.tick behaviour)

/-- What the next tick does for a cast in flight, of which it runs some instructions, whatever context they are in. A
cast that stays in flight is not left as it was, and if it does not wait, then it has used its whole budget. -/
structure Progresses (behaviour : Behaviour κ) (history : History κ) (cast : InFlight)
    (entries : List (ContextId × Instruction κ)) : Prop where
  runs : history.RunsNext behaviour cast.id entries
  executed : (history.tick behaviour).executedBy cast.id = history.executedBy cast.id ++ entries.map (·.2)
  bounded : entries.length ≤ history.scheduler.maxSteps
  productive : cast.id ∈ (history.scheduler.tick behaviour history.realm).1.completedIds ∨ entries ≠ [] ∨
    history.CountsDown behaviour cast
  counted : ∀ stays ∈ (history.tick behaviour).scheduler.casts, stays.id = cast.id →
    stays.steps = cast.steps + entries.length
  changed : ∀ stays ∈ (history.tick behaviour).scheduler.casts, stays.id = cast.id →
    stays.steps ≠ cast.steps ∨
      (history.tick behaviour).scheduler.arena.get? stays.active ≠ history.scheduler.arena.get? cast.active
  spent : ∀ stays ∈ (history.tick behaviour).scheduler.casts, stays.id = cast.id → ∀ final,
    (history.tick behaviour).scheduler.arena.get? stays.active = some final → final.isSuspended = false →
      entries.length = history.scheduler.maxSteps

theorem progresses_of_waiting
    {n : Int}
    (owns : history.Owns)
    (accounts : history.Accounts)
    (member : cast ∈ history.scheduler.casts)
    (live : history.scheduler.arena.get? cast.active = some context)
    (running : context.canceled = false)
    (suspended : context.suspension = some ⟨n⟩)
    (long : 1 < n) :
    history.Progresses behaviour cast [] := by
  have ticked : history.RunsNext behaviour cast.id [] ∧ history.Waited cast context n 1 (history.tick behaviour) :=
    tick_of_waiting owns accounts member live running suspended long
  obtain ⟨runs, waited⟩ := ticked
  have only : ∀ stays ∈ (history.tick behaviour).scheduler.casts, stays.id = cast.id →
      stays = { cast with ticks := cast.ticks + 1 } :=
    fun stays listed same => List.inj_on_of_nodup_map (accounts.tick owns).castIds_nodup listed waited.member same
  refine ⟨runs, ?_, Nat.zero_le _, .inr (.inr ⟨context, n, live, suspended, by omega, waited⟩), ?_, ?_, ?_⟩
  · rw [waited.executed, List.map_nil, List.append_nil]
  · intro stays listed same
    rw [only stays listed same]
    rfl
  · intro stays listed same
    right
    rw [only stays listed same, waited.active, live]
    intro unchanged
    have shorter := congrArg Context.suspension (Option.some.inj unchanged)
    rw [suspended] at shorter
    have equal : n - (1 : Nat) = n := congrArg Suspension.remaining (Option.some.inj shorter)
    omega
  · intro stays listed same final finalLive free
    rw [only stays listed same, waited.active] at finalLive
    rw [← Option.some.inj finalLive] at free
    have pending : decide (0 < n - (1 : Nat)) = false := free
    rw [decide_eq_false_iff_not] at pending
    omega

theorem progresses_of_awake
    {earlier later : List InFlight}
    {woken : Turn κ}
    (owns : history.Owns)
    (accounts : history.Accounts)
    (positive : 0 < history.scheduler.maxSteps)
    (split : history.scheduler.casts = earlier ++ cast :: later)
    (live : history.scheduler.arena.get? cast.active = some context)
    (woke : ((history.scheduler.roundAfter behaviour history.realm earlier).turn cast).announced.wake context =
      (woken, false)) :
    ∃ entries, history.Progresses behaviour cast entries := by
  have member : cast ∈ history.scheduler.casts := by
    rw [split]
    exact List.mem_append_right _ List.mem_cons_self
  have turned := Scheduler.turned_of_split behaviour owns accounts.castIds_nodup split history.realm
  have turnLive := turned_live turned owns member live
  generalize isTurn : (history.scheduler.roundAfter behaviour history.realm earlier).turn cast = turn
    at turned turnLive woke
  obtain ⟨others, turnOwns⟩ := turned.owns
  have keeps := Turn.keeps_take behaviour history.scheduler.maxSteps history.scheduler.maxForks turnOwns
  have steps := Turn.take_steps behaviour history.scheduler.maxSteps history.scheduler.maxForks turnOwns
    turned.uncounted
  obtain ⟨bounded, finished, spent⟩ :=
    Turn.take_productive behaviour history.scheduler.maxForks positive turnOwns turnLive woke
  rcases taken : turn.take behaviour history.scheduler.maxSteps history.scheduler.maxForks with ⟨after, verdict⟩
  rw [taken] at keeps steps finished spent
  have started : turn.cast.steps = cast.steps ∧ turn.cast.id = cast.id := by
    rw [turned.started]
    exact ⟨rfl, rfl⟩
  have ownId : after.cast.id = cast.id := keeps.sameId.trans started.2
  have only : ∀ stays ∈ (history.tick behaviour).scheduler.casts, stays.id = cast.id →
      verdict = .running ∧ stays = after.cast :=
    fun stays inFlight same => turned.eq_of_mem owns accounts.castIds_nodup taken inFlight same
  have listed := Turn.takenIn_map behaviour history.scheduler.maxSteps history.scheduler.maxForks turn
  rw [← listed, List.length_map] at bounded spent steps
  rw [← listed, List.map_eq_nil_iff] at finished
  have counted : after.cast.steps = cast.steps +
      (turn.takenIn behaviour history.scheduler.maxSteps history.scheduler.maxForks).length := by
    rw [← started.1]
    exact steps
  have runsSome : verdict = .running →
      turn.takenIn behaviour history.scheduler.maxSteps history.scheduler.maxForks ≠ [] := by
    intro running nothing
    have isFinished : verdict = .finished := finished nothing
    rw [running] at isFinished
    contradiction
  refine ⟨_, ⟨earlier, cast, later, split, rfl, isTurn ▸ rfl⟩, ?_, bounded, ?_, ?_, ?_, ?_⟩
  · rw [executedBy_tick_of_turned turned, listed]
  · cases verdict with
    | running =>
        exact .inr (.inl (runsSome rfl))
    | finished =>
        left
        rw [← ownId]
        exact List.mem_map_of_mem (turned.finished after taken)
  · intro stays inFlight same
    rw [(only stays inFlight same).2, counted]
  · intro stays inFlight same
    obtain ⟨running, rfl⟩ := only stays inFlight same
    left
    have longer := List.length_pos_iff.mpr (runsSome running)
    omega
  · intro stays inFlight same final finalLive free
    obtain ⟨running, rfl⟩ := only stays inFlight same
    rw [running] at taken
    have active := (keeps.owns.coherent _ List.mem_cons_self).active_mem
    have sameFinal := (turned.running after taken).2 _ active
    apply spent running
    intro held heldLive
    have finalSame : final = held := Option.some.inj (finalLive.symm.trans (sameFinal.trans heldLive))
    rw [← finalSame]
    exact free

end History

/-- In every tick a cast in flight runs no more instructions than the budget allows, in all its contexts together, and
it is completed, runs one or comes one tick closer to the end of its wait. -/
theorem ticksMakeProgress
    {rules : Rules κ}
    {scheduler : Scheduler κ}
    {realm : Realm}
    {history : History κ}
    {cast : InFlight}
    (made : scheduler.Made)
    (reached : Reaches rules behaviour (.start scheduler realm) history)
    (member : cast ∈ history.scheduler.casts) :
    ∃ entries, history.Progresses behaviour cast entries := by
  have owns : history.Owns := reached.owns made
  have accounts : history.Accounts := reached.accounts made
  have positive := reached.maxSteps_pos made
  obtain ⟨context, live⟩ := owns.active_live member
  obtain ⟨earlier, later, split⟩ := List.append_of_mem member
  let turn := (history.scheduler.roundAfter behaviour history.realm earlier).turn cast
  have cases := Turn.wake_cases turn.announced context
  rcases woke : turn.announced.wake context with ⟨woken, waits⟩
  rw [woke] at cases
  cases waits with
  | true =>
      cases cases with
      | waits running suspended long =>
          exact ⟨[], History.progresses_of_waiting owns accounts member live running suspended long⟩
  | false =>
      exact History.progresses_of_awake owns accounts positive split live woke

/-- A budget of zero is raised to one: the delay runs in the first tick, and in the second one its child comes one tick
closer to the end of its wait. -/
theorem ticksMakeProgress_zeroBudget :
    let delay : Instruction Glyph := .plain Glyph.marksId ⟨0, .delay 3⟩
    let mark : Instruction Glyph := .plain Glyph.marksId ⟨1, .mark Glyph.marksId⟩
    let fresh : History Glyph := .start (Scheduler.empty.withMaxSteps 0) .empty
    let registered := fresh.cast (.ofProgram (.ofInstructions [delay, mark]))
    let ticked := registered.tick Glyph.behaviour
    let cast : InFlight := { id := 1, active := 0, contexts := [0], steps := 0, forks := 0, ticks := 0 }
    let waiting : InFlight := { id := 1, active := 1, contexts := [0, 1], steps := 1, forks := 1, ticks := 1 }
    fresh.scheduler.Made ∧
      Reaches ⟨fun _ => True, fun _ _ => True⟩ Glyph.behaviour fresh registered ∧
      Reaches ⟨fun _ => True, fun _ _ => True⟩ Glyph.behaviour fresh ticked ∧
      cast ∈ registered.scheduler.casts ∧ waiting ∈ ticked.scheduler.casts ∧
      (∃ entries, registered.Progresses Glyph.behaviour cast entries ∧ entries.length = 1) ∧
      ∃ entries, ticked.Progresses Glyph.behaviour waiting entries ∧ entries = [] ∧
        ticked.CountsDown Glyph.behaviour waiting := by
  intro delay mark fresh registered ticked cast waiting
  have made : fresh.scheduler.Made := .withMaxSteps 0 .empty
  have toRegistered : Reaches ⟨fun _ => True, fun _ _ => True⟩ Glyph.behaviour fresh registered :=
    .call (.cast _) .origin trivial
  have toTicked : Reaches ⟨fun _ => True, fun _ _ => True⟩ Glyph.behaviour fresh ticked :=
    toRegistered.call .tick trivial
  have castIn : cast ∈ registered.scheduler.casts := List.mem_singleton_self _
  have waitingIn : waiting ∈ ticked.scheduler.casts := List.mem_singleton_self _
  have stillIn : { waiting with ticks := 2 } ∈ (ticked.tick Glyph.behaviour).scheduler.casts :=
    List.mem_singleton_self _
  obtain ⟨first, firstProgress⟩ := ticksMakeProgress made toRegistered castIn
  obtain ⟨second, secondProgress⟩ := ticksMakeProgress made toTicked waitingIn
  have firstSteps : 1 = 0 + first.length := firstProgress.counted waiting waitingIn rfl
  have secondSteps : 1 = 1 + second.length := secondProgress.counted _ stillIn rfl
  have nothing : second = [] := by
    apply List.length_eq_zero_iff.mp
    omega
  refine ⟨made, toRegistered, toTicked, castIn, waitingIn, ⟨first, firstProgress, ?_⟩, second, secondProgress, nothing,
    ?_⟩
  · omega
  · rcases secondProgress.productive with completed | something | countsDown
    · exact absurd completed (by decide)
    · exact absurd nothing something
    · exact countsDown

end Spellcast
