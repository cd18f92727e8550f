import Spellcast.Proofs.Budget.Lone
import Spellcast.Proofs.Standard

/-!
# The budget changes timing only

The same cast, alone under two budgets, is compared instruction by instruction. One of the two may come to the end of a
tick where the other one runs on, and then only loses a suspension that has expired; when the context has to wait, both
wait for as long. So both run the same instructions, and if one of them ends, the other one ends as well and in the
same state.
-/

namespace Spellcast

variable {κ : Type} {behaviour : Behaviour κ}

theorem Suspension.Alike.symm
    {first second : Option Suspension}
    (alike : Suspension.Alike first second) :
    Suspension.Alike second first := by
  cases alike with
  | same _ => exact .same _
  | left expired => exact .right expired
  | right expired => exact .left expired

namespace Context

variable {first second : Context κ}

theorem Alike.symm
    (alike : first.Alike second) :
    second.Alike first where
  suspension := alike.suspension.symm
  rest := by rw [alike.rest]

/-- A context that need not wait may lose its suspension before the other one does. -/
theorem Alike.awake_left
    (alike : first.Alike second)
    (awake : first.isSuspended = false) :
    first.awake.Alike second := by
  cases stopped : first.canceled with
  | true =>
      rw [awake_of_canceled stopped]
      exact alike
  | false =>
      rw [awake_of_running stopped]
      have rest : second = { first with suspension := second.suspension } := alike.rest
      refine ⟨?_, rest⟩
      change Suspension.Alike none second.suspension
      have awake' : second.isSuspended = false := alike.isSuspended.trans awake
      cases held : second.suspension with
      | none => exact .same none
      | some suspension =>
          apply Suspension.Alike.left
          simp only [Context.isSuspended, held, Suspension.isPending, decide_eq_false_iff_not] at awake'
          omega

end Context

/-- Two turns are at alike contexts with the same numbers, in realms with the same world. -/
def Turn.Alike (turn turn' : Turn κ) : Prop :=
  Turn.Twin (· = ·) (fun first realm second realm' => first.Alike second ∧ realm.SameWorld realm') turn turn'

namespace Turn

variable {turn turn' after after' : Turn κ}

theorem Alike.symm
    (alike : turn.Alike turn') :
    turn'.Alike turn := by
  obtain ⟨context, context', live, live', same⟩ := alike.contexts
  exact ⟨⟨context', context, live', live, same.1.symm, same.2.symm⟩, alike.forks.symm, alike.active.symm,
    alike.nextId.symm⟩

theorem Alike.resembles
    (alike : turn.Alike turn')
    (same : History.Resembles turn after)
    (same' : History.Resembles turn' after') :
    after.Alike after' := by
  obtain ⟨context, context', live, live', related⟩ := alike.contexts
  refine ⟨⟨context, context', ?_, ?_, related.1, (same.realm.symm.trans related.2).trans same'.realm⟩, ?_, ?_, ?_⟩
  · rw [same.arena, same.active]
    exact live
  · rw [same'.arena, same'.active]
    exact live'
  · rw [same.forks, same'.forks]
    exact alike.forks
  · rw [same.active, same'.active]
    exact alike.active
  · rw [same.arena, same'.arena]
    exact alike.nextId

/-- One of two turns may wake up before the other one, as long as it has not to wait. -/
theorem Alike.wake_left
    {context : Context κ}
    (alike : turn.Alike turn')
    (live : turn.arena.get? turn.cast.active = some context)
    (awake : context.isSuspended = false) :
    (turn.announced.wake context).2 = false ∧ (turn.announced.wake context).1.Alike turn' := by
  have announcedLive : turn.announced.arena.get? turn.announced.cast.active = some context := live
  have announced : turn.realm.SameWorld turn.announced.realm := ((Realm.SameWorld.refl _).enter _).emit _
  obtain ⟨flag, sameCast, -, sameNext, sameWorld, rousedLive⟩ := wake_roused announcedLive
  obtain ⟨first, second, firstLive, secondLive, related⟩ := alike.contexts
  obtain rfl : first = context := Option.some.inj (firstLive.symm.trans live)
  rw [Context.roused_of_not_suspended awake] at flag rousedLive
  refine ⟨flag, ⟨_, _, rousedLive, secondLive, related.1.awake_left awake,
    (announced.trans sameWorld).symm.trans related.2⟩, ?_, ?_, ?_⟩
  · rw [sameCast]
    exact alike.forks
  · rw [sameCast]
    exact alike.active
  · rw [sameNext]
    exact alike.nextId

end Turn

namespace History

variable {first second : History κ} {id : CastId} {done : List (Instruction κ)} {left left' ticks : Nat}
  {turn turn' : Turn κ} {cast cast' : InFlight} {context : Context κ} {instruction : Instruction κ}

/-- Two schedulers have the same limit of forks, and both let a cast run something in every tick. -/
structure Comparable (first second : History κ) : Prop where
  forks : second.scheduler.maxForks = first.scheduler.maxForks
  budget : 0 < first.scheduler.maxSteps
  budget' : 0 < second.scheduler.maxSteps

/-- Two casts, each alone and between two ticks, that have run the same and are at alike contexts. -/
structure RestAlike (first second : History κ) (id : CastId) (done : List (Instruction κ)) (cast cast' : InFlight) :
    Prop where
  limits : Comparable first second
  resting : first.Resting id done cast
  resting' : second.Resting id done cast'
  alike : (first.loneTurn cast).Alike (second.loneTurn cast')

/-- Two casts, each alone and in the middle of a tick, that have run the same and are at alike contexts. -/
structure RunAlike (behaviour : Behaviour κ) (first second : History κ) (id : CastId) (done : List (Instruction κ))
    (left left' : Nat) (turn turn' : Turn κ) : Prop where
  limits : Comparable first second
  running : first.Running behaviour id done left turn
  running' : second.Running behaviour id done left' turn'
  alike : turn.Alike turn'

/-- Two casts, each alone, that have been reported after they had run the same, with alike contexts. -/
structure EndAlike (first second : History κ) (id : CastId) (outcome outcome' : Outcome κ) : Prop where
  only : ∀ other ∈ first.completed, other.id = id → other = outcome
  idle : second.scheduler.isIdle = true
  reported : outcome' ∈ second.completed
  sameId : outcome'.id = id
  executed : second.executedBy id = first.executedBy id
  steps : outcome'.steps = outcome.steps
  forks : outcome'.forks = outcome.forks
  cancelReason : outcome'.cancelReason = outcome.cancelReason
  realm : first.realm.SameWorld second.realm
  final : ∃ context context', outcome.finalContext = some context ∧ outcome'.finalContext = some context' ∧
    context.Alike context'

theorem Comparable.symm
    (limits : Comparable first second) :
    Comparable second first :=
  ⟨limits.forks.symm, limits.budget', limits.budget⟩

theorem RunAlike.symm
    (runAlike : RunAlike behaviour first second id done left left' turn turn') :
    RunAlike behaviour second first id done left' left turn' turn :=
  ⟨runAlike.limits.symm, runAlike.running', runAlike.running, runAlike.alike.symm⟩

/-- Both run the next instruction. -/
theorem RunAlike.stepped
    (ignores : behaviour.IgnoresExpired)
    (runAlike : RunAlike behaviour first second id done (left + 1) (left' + 1) turn turn')
    (next : turn.next? = some instruction) :
    ∃ fewer fewer' after after', fewer ≤ left ∧
      RunAlike behaviour first second id (done ++ [instruction]) fewer fewer' after after' := by
  obtain ⟨limits, running, running', alike⟩ := runAlike
  have owns : Spellcast.Owns turn.arena [turn.cast] := running.owns
  have owns' : Spellcast.Owns turn'.arena [turn'.cast] := running'.owns
  obtain ⟨sameAnswer, sameNext, twin⟩ :
      (turn'.step behaviour first.scheduler.maxForks).2 = (turn.step behaviour first.scheduler.maxForks).2 ∧ _ :=
    Turn.Twin.step ignores.simulates alike owns owns'
  rw [Option.map_id, id_eq, id_eq] at sameNext
  rcases stepped : turn.step behaviour first.scheduler.maxForks with ⟨after, goesOn⟩
  rcases stepped' : turn'.step behaviour first.scheduler.maxForks with ⟨after', goesOn'⟩
  rw [stepped, stepped'] at sameAnswer twin
  have same : goesOn' = goesOn := sameAnswer
  subst same
  rw [← limits.forks] at stepped'
  refine ⟨_, _, after, after', ?_, limits, running.ran next stepped, running'.ran (sameNext.trans next) stepped', twin⟩
  split
  · exact Nat.le_refl _
  · exact Nat.zero_le _

/-- When the budget of one is used up, its next tick goes on where it was. -/
theorem RunAlike.restarted
    (runAlike : RunAlike behaviour first second id done 0 left' turn turn')
    (live : turn.arena.get? turn.cast.active = some context)
    (next : context.hasNext = true) :
    ∃ woken, RunAlike behaviour (first.tick behaviour) second id done first.scheduler.maxSteps left' woken turn' := by
  obtain ⟨limits, running, running', alike⟩ := runAlike
  obtain ⟨notCanceled, awake, -⟩ := Context.hasNext_iff.mp next
  have goesOn : turn.verdict = .running := Turn.verdict_of_more live notCanceled (.inl next)
  obtain ⟨resting, resembles⟩ := running.pauses ⟨rfl, rfl⟩ goesOn
  have restLive : ((first.tick behaviour).loneTurn turn.counted.cast).arena.get?
      ((first.tick behaviour).loneTurn turn.counted.cast).cast.active = some context := by
    rw [resembles.arena, resembles.active]
    exact live
  have restAlike : ((first.tick behaviour).loneTurn turn.counted.cast).Alike turn' :=
    alike.resembles resembles ⟨rfl, rfl, rfl, .refl _⟩
  obtain ⟨flag, wokenAlike⟩ := restAlike.wake_left restLive awake
  rcases woke : ((first.tick behaviour).loneTurn turn.counted.cast).announced.wake context with ⟨woken, waits⟩
  rw [woke] at flag wokenAlike
  have begins : waits = false := flag
  subst begins
  exact ⟨woken, ⟨limits.forks, limits.budget, limits.budget'⟩, resting.begins restLive woke, running', wokenAlike⟩

/-- When neither can run on, but both have to wait, both rest after the tick. -/
theorem RunAlike.paused
    (runAlike : RunAlike behaviour first second id done left left' turn turn')
    (live : turn.arena.get? turn.cast.active = some context)
    (running : context.canceled = false)
    (suspended : context.isSuspended = true) :
    ∃ cast cast', RestAlike (first.tick behaviour) (second.tick behaviour) id done cast cast' := by
  obtain ⟨held, context', heldLive, live', related⟩ := runAlike.alike.contexts
  obtain rfl : held = context := Option.some.inj (heldLive.symm.trans live)
  have place := related.1.samePlace
  have running' : context'.canceled = false := place.canceled.trans running
  have suspended' : context'.isSuspended = true := place.suspended.trans suspended
  have exhausted : held.hasNext = false := by
    simp [Context.hasNext, suspended]
  have exhausted' : context'.hasNext = false := place.hasNext.trans exhausted
  obtain ⟨resting, resembles⟩ := runAlike.running.pauses
    (Turn.run_of_exhausted behaviour _ live exhausted left) (Turn.verdict_of_more live running (.inr suspended))
  obtain ⟨resting', resembles'⟩ := runAlike.running'.pauses
    (Turn.run_of_exhausted behaviour _ live' exhausted' left') (Turn.verdict_of_more live' running' (.inr suspended'))
  exact ⟨_, _, ⟨runAlike.limits.forks, runAlike.limits.budget, runAlike.limits.budget'⟩, resting, resting',
    runAlike.alike.resembles resembles resembles'⟩

/-- When neither can run on nor has to wait, both are reported by the tick. -/
theorem RunAlike.finished
    (runAlike : RunAlike behaviour first second id done left left' turn turn')
    (live : turn.arena.get? turn.cast.active = some context)
    (exhausted : context.hasNext = false)
    (stops : context.canceled = true ∨ context.isSuspended = false) :
    ∃ outcome outcome', (first.tick behaviour).scheduler.isIdle = true ∧
      EndAlike (first.tick behaviour) (second.tick behaviour) id outcome outcome' := by
  obtain ⟨held, context', heldLive, live', related⟩ := runAlike.alike.contexts
  obtain rfl : held = context := Option.some.inj (heldLive.symm.trans live)
  have place := related.1.samePlace
  have exhausted' : context'.hasNext = false := place.hasNext.trans exhausted
  have finished : turn.verdict = .finished ∧ turn'.verdict = .finished := by
    rcases stops with canceled | awake
    · exact ⟨Turn.verdict_of_canceled live canceled,
        Turn.verdict_of_canceled live' (place.canceled.trans canceled)⟩
    · exact ⟨Turn.verdict_of_exhausted live exhausted awake,
        Turn.verdict_of_exhausted live' exhausted' (place.suspended.trans awake)⟩
  obtain ⟨outcome, ended⟩ := runAlike.running.finishes
    (Turn.run_of_exhausted behaviour _ live exhausted left) finished.1
  obtain ⟨outcome', ended'⟩ := runAlike.running'.finishes
    (Turn.run_of_exhausted behaviour _ live' exhausted' left') finished.2
  have reason : context'.cancelReason = held.cancelReason := by rw [related.1.rest]
  refine ⟨outcome, outcome', ended.idle, ended.only, ended'.idle, ended'.reported, ?_, ?_, ?_, ?_, ?_, ?_, ?_⟩
  · rw [ended'.outcome]
    exact runAlike.running'.sameId
  · rw [ended.executed, ended'.executed]
  · rw [ended.outcome, ended'.outcome]
    exact runAlike.running'.steps.trans runAlike.running.steps.symm
  · rw [ended.outcome, ended'.outcome]
    exact runAlike.alike.forks
  · rw [ended.outcome, ended'.outcome, live, live']
    simp only [Scheduler.outcome, Option.filter, place.canceled]
    split
    · exact reason
    · rfl
  · exact (ended.realm.symm.trans related.2).trans ended'.realm
  · refine ⟨held, context', ?_, ?_, related.1⟩
    · rw [ended.outcome]
      exact live
    · rw [ended'.outcome]
      exact live'

/-- Both go on waiting, or both begin to run. -/
theorem RestAlike.after_tick
    (ignores : behaviour.IgnoresExpired)
    (restAlike : RestAlike first second id done cast cast') :
    (∃ cast cast', RestAlike (first.tick behaviour) (second.tick behaviour) id done cast cast') ∨
      ∃ turn turn', RunAlike behaviour first second id done first.scheduler.maxSteps second.scheduler.maxSteps
        turn turn' := by
  obtain ⟨limits, resting, resting', alike⟩ := restAlike
  obtain ⟨context, context', live, live', -⟩ := alike.contexts
  obtain ⟨sameAnswer, wokenAlike⟩ := Turn.Twin.wake ignores.simulates alike live live'
  rcases woke : (first.loneTurn cast).announced.wake context with ⟨woken, waits⟩
  rcases woke' : (second.loneTurn cast').announced.wake context' with ⟨woken', waits'⟩
  rw [woke, woke'] at sameAnswer wokenAlike
  have same : waits' = waits := sameAnswer
  subst same
  cases waits' with
  | true =>
      obtain ⟨rests, resembles⟩ := resting.waits live woke
      obtain ⟨rests', resembles'⟩ := resting'.waits live' woke'
      exact .inl ⟨_, _, ⟨limits.forks, limits.budget, limits.budget'⟩, rests, rests',
        Turn.Alike.resembles wokenAlike resembles resembles'⟩
  | false =>
      exact .inr ⟨woken, woken', limits, resting.begins live woke, resting'.begins live' woke', wokenAlike⟩

/-- The cast has been reported after so many ticks. -/
def Completes (behaviour : Behaviour κ) (history : History κ) (id : CastId) (ticks : Nat) : Prop :=
  ∃ outcome ∈ (history.runUntilIdle behaviour ticks).completed, outcome.id = id

/-- As the first cast is reported after so many ticks, the second one is reported some time, and they end alike. -/
def EndsAlike (behaviour : Behaviour κ) (first second : History κ) (id : CastId) (ticks : Nat) : Prop :=
  ∃ ticks' outcome outcome',
    EndAlike (first.runUntilIdle behaviour ticks) (second.runUntilIdle behaviour ticks') id outcome outcome'

theorem runUntilIdle_succ
    {history : History κ}
    (alone : history.scheduler.casts = [cast])
    (ticks : Nat) :
    history.runUntilIdle behaviour (ticks + 1) = (history.tick behaviour).runUntilIdle behaviour ticks := by
  have busy : history.scheduler.isIdle = false := by
    simp [Scheduler.isIdle, alone]
  rw [runUntilIdle, if_neg (by simp [busy])]

theorem runUntilIdle_of_idle
    {history : History κ}
    (idle : history.scheduler.isIdle = true)
    (ticks : Nat) :
    history.runUntilIdle behaviour ticks = history := by
  cases ticks with
  | zero => rfl
  | succ ticks => rw [runUntilIdle, if_pos idle]

theorem EndsAlike.after_first
    (ends : EndsAlike behaviour (first.tick behaviour) second id ticks)
    (alone : first.scheduler.casts = [cast]) :
    EndsAlike behaviour first second id (ticks + 1) := by
  unfold EndsAlike at ends ⊢
  rw [runUntilIdle_succ alone]
  exact ends

theorem EndsAlike.after_second
    (ends : EndsAlike behaviour first (second.tick behaviour) id ticks)
    (alone : second.scheduler.casts = [cast]) :
    EndsAlike behaviour first second id ticks := by
  obtain ⟨ticks', outcome, outcome', endAlike⟩ := ends
  refine ⟨ticks' + 1, outcome, outcome', ?_⟩
  rw [runUntilIdle_succ alone]
  exact endAlike

theorem Completes.after_tick
    (completes : Completes behaviour first id (ticks + 1))
    (alone : first.scheduler.casts = [cast]) :
    Completes behaviour (first.tick behaviour) id ticks := by
  unfold Completes at completes ⊢
  rw [runUntilIdle_succ alone] at completes
  exact completes

/-- Casts that run alike end alike, if those end alike that run or rest alike one tick later. -/
theorem RunAlike.ends_succ
    (ignores : behaviour.IgnoresExpired)
    (runs : ∀ {first second : History κ} {done : List (Instruction κ)} {left left' : Nat} {turn turn' : Turn κ},
      RunAlike behaviour first second id done left left' turn turn' → Completes behaviour first id ticks →
        EndsAlike behaviour first second id ticks)
    (rests : ∀ {first second : History κ} {done : List (Instruction κ)} {cast cast' : InFlight},
      RestAlike first second id done cast cast' → Completes behaviour first id ticks →
        EndsAlike behaviour first second id ticks)
    (runAlike : RunAlike behaviour first second id done left left' turn turn')
    (completes : Completes behaviour first id (ticks + 1)) :
    EndsAlike behaviour first second id (ticks + 1) := by
  induction left using Nat.strongRecOn generalizing second done left' turn turn' with
  | ind left inductionHypothesis =>
      obtain ⟨cast, alone, -⟩ := runAlike.running.alone
      obtain ⟨cast', alone', -⟩ := runAlike.running'.alone
      obtain ⟨context, context', live, live', related⟩ := runAlike.alike.contexts
      have place := related.1.samePlace
      cases next : context.hasNext with
      | false =>
          by_cases waits : context.canceled = false ∧ context.isSuspended = true
          · obtain ⟨_, _, restAlike⟩ := runAlike.paused live waits.1 waits.2
            exact ((rests restAlike (completes.after_tick alone)).after_first alone).after_second alone'
          · have stops : context.canceled = true ∨ context.isSuspended = false := by
              cases canceled : context.canceled
              · cases suspended : context.isSuspended
                · exact .inr rfl
                · exact absurd ⟨canceled, suspended⟩ waits
              · exact .inl rfl
            obtain ⟨outcome, outcome', idle, endAlike⟩ := runAlike.finished live next stops
            refine ⟨1, outcome, outcome', ?_⟩
            rw [runUntilIdle_succ alone, runUntilIdle_succ alone', runUntilIdle_of_idle idle]
            exact endAlike
      | true =>
          -- the second one is made ready to run an instruction first, in its next tick if need be
          have ready : ∃ ready left'' woken', (EndsAlike behaviour first ready id (ticks + 1) →
                EndsAlike behaviour first second id (ticks + 1)) ∧
              RunAlike behaviour first ready id done left (left'' + 1) turn woken' := by
            cases left' with
            | succ left' => exact ⟨second, left', turn', fun ends => ends, runAlike⟩
            | zero =>
                obtain ⟨woken', restarted⟩ := runAlike.symm.restarted live' (place.hasNext.trans next)
                obtain ⟨left'', positive⟩ := Nat.exists_eq_succ_of_ne_zero (Nat.ne_of_gt runAlike.limits.budget')
                rw [positive] at restarted
                exact ⟨_, left'', woken', fun ends => ends.after_second alone', restarted.symm⟩
          obtain ⟨ready, left'', woken', earlier, runAlike⟩ := ready
          refine earlier ?_
          cases left with
          | zero =>
              obtain ⟨woken, restarted⟩ := runAlike.restarted live next
              exact (runs restarted (completes.after_tick alone)).after_first alone
          | succ left =>
              obtain ⟨instruction, found⟩ := Context.exists_get?_of_hasNext next
              obtain ⟨fewer, _, _, _, less, stepped⟩ := runAlike.stepped ignores (Turn.next?_eq live next found)
              exact inductionHypothesis fewer (Nat.lt_succ_of_le less) stepped

/-- Casts that run alike end alike, and so do casts that rest alike. -/
theorem ends_alike
    (ignores : behaviour.IgnoresExpired)
    (id : CastId)
    (ticks : Nat) :
    (∀ {first second : History κ} {done : List (Instruction κ)} {left left' : Nat} {turn turn' : Turn κ},
      RunAlike behaviour first second id done left left' turn turn' → Completes behaviour first id ticks →
        EndsAlike behaviour first second id ticks) ∧
      ∀ {first second : History κ} {done : List (Instruction κ)} {cast cast' : InFlight},
        RestAlike first second id done cast cast' → Completes behaviour first id ticks →
          EndsAlike behaviour first second id ticks := by
  induction ticks with
  | zero =>
      constructor
      · intro first second done left left' turn turn' runAlike ⟨outcome, reported, sameId⟩
        exact absurd sameId (runAlike.running.unreported outcome reported)
      · intro first second done cast cast' restAlike ⟨outcome, reported, sameId⟩
        exact absurd sameId (restAlike.resting.unreported outcome reported)
  | succ ticks inductionHypothesis =>
      obtain ⟨runs, rests⟩ := inductionHypothesis
      constructor
      · intro first second done left left' turn turn' runAlike completes
        exact runAlike.ends_succ ignores runs rests completes
      · intro first second done cast cast' restAlike completes
        have alone := restAlike.resting.alone
        have alone' := restAlike.resting'.alone
        rcases restAlike.after_tick ignores with ⟨_, _, later⟩ | ⟨_, _, runAlike⟩
        · exact ((rests later (completes.after_tick alone)).after_first alone).after_second alone'
        · exact runAlike.ends_succ ignores runs rests completes

/-- What happens when a context is cast under a budget and then nothing but ticks, at most so many, until nothing is in
flight any more. -/
def underBudget (behaviour : Behaviour κ) (before : History κ) (context : Context κ) (budget ticks : Nat) : History κ :=
  let limited : History κ := { before with scheduler := before.scheduler.withMaxSteps budget }
  (limited.cast context).runUntilIdle behaviour ticks

theorem Resting.of_cast
    {history : History κ}
    (owns : history.Owns)
    (accounts : history.Accounts)
    (registered : ∀ entry ∈ history.executed, entry.1 ∈ history.registered)
    (idle : history.scheduler.isIdle = true)
    (context : Context κ) :
    (history.cast context).scheduler.arena.get? history.scheduler.arena.nextId =
        some { context with parent := none } ∧
      (history.cast context).Resting history.scheduler.nextCast []
        { id := history.scheduler.nextCast, active := history.scheduler.arena.nextId
          contexts := [history.scheduler.arena.nextId], steps := 0, forks := 0, ticks := 0 } := by
  have nobody : history.scheduler.casts = [] := List.isEmpty_iff.mp idle
  refine ⟨Arena.get?_insert_self, ?_, rfl, Scheduler.cast_owns owns context history.realm, ?_, rfl, ?_⟩
  · change history.scheduler.casts ++ _ = _
    rw [nobody, List.nil_append]
  · exact executedBy_eq_nil fun entry member same => accounts.nextCast_unknown (same ▸ registered entry member)
  · intro outcome reported same
    exact accounts.nextCast_unknown (same ▸ accounts.registered_of_completed reported)

end History

/-- The budget of instructions per tick changes only when things happen. If a cast that is alone is reported under one
budget, it is reported under every other one as well, after the same instructions, forks and changes of the world, and
its last context is the same but for a suspension that is over. -/
theorem budgetChangesTimingOnly
    {rules : Rules κ}
    {scheduler : Scheduler κ}
    {realm : Realm}
    {before : History κ}
    {budget ticks : Nat}
    {context : Context κ}
    {outcome : Outcome κ}
    (made : scheduler.Made)
    (reached : Reaches rules behaviour (.start scheduler realm) before)
    (idle : before.scheduler.isIdle = true)
    (ignores : behaviour.IgnoresExpired)
    (reported : outcome ∈ (before.underBudget behaviour context budget ticks).completed)
    (sameId : outcome.id = before.scheduler.nextCast)
    (budget' : Nat) :
    ∃ ticks' outcome',
      let first := before.underBudget behaviour context budget ticks
      let second := before.underBudget behaviour context budget' ticks'
      second.scheduler.isIdle = true ∧ outcome' ∈ second.completed ∧ outcome'.id = outcome.id ∧
        second.executedBy outcome.id = first.executedBy outcome.id ∧
        outcome'.steps = outcome.steps ∧ outcome'.forks = outcome.forks ∧
        outcome'.cancelReason = outcome.cancelReason ∧
        first.realm.SameWorld second.realm ∧
        ∃ final final', outcome.finalContext = some final ∧ outcome'.finalContext = some final' ∧
          final.Alike final' := by
  let limited (budget : Nat) : History κ := { before with scheduler := before.scheduler.withMaxSteps budget }
  have owns (budget : Nat) : (limited budget).Owns := by
    have owns := reached.owns made
    exact owns
  have accounts (budget : Nat) : (limited budget).Accounts := by
    have accounts := reached.accounts made
    exact ⟨accounts.given, accounts.increasing, accounts.divided, accounts.inFlight, accounts.reported⟩
  have registered := reached.executed_registered made
  let root : InFlight :=
    { id := before.scheduler.nextCast, active := before.scheduler.arena.nextId
      contexts := [before.scheduler.arena.nextId], steps := 0, forks := 0, ticks := 0 }
  have rests (budget : Nat) :
      ((limited budget).cast context).scheduler.arena.get? root.active = some { context with parent := none } ∧
        ((limited budget).cast context).Resting outcome.id [] root := by
    rw [sameId]
    exact History.Resting.of_cast (owns budget) (accounts budget) registered idle context
  obtain ⟨live, resting⟩ := rests budget
  obtain ⟨live', resting'⟩ := rests budget'
  have restAlike : History.RestAlike ((limited budget).cast context) ((limited budget').cast context) outcome.id []
      root root :=
    ⟨⟨rfl, Nat.le_max_right _ _, Nat.le_max_right _ _⟩, resting, resting',
      ⟨⟨_, _, live, live', .refl _, .refl _⟩, rfl, rfl, rfl⟩⟩
  obtain ⟨ticks', same, outcome', ended⟩ :=
    (History.ends_alike ignores outcome.id ticks).2 restAlike ⟨outcome, reported, rfl⟩
  obtain rfl : outcome = same := ended.only outcome reported rfl
  exact ⟨ticks', outcome', ended.idle, ended.reported, ended.sameId, ended.executed, ended.steps, ended.forks,
    ended.cancelReason, ended.realm, ended.final⟩

/-- A mark behind a delay that is over at once: in one tick it is reached with the suspension, in two without it. -/
theorem budgetChangesTimingOnly_overDelay :
    let delay : Instruction Glyph := .plain Glyph.delayId ⟨0, .delay 0⟩
    let mark : Instruction Glyph := .plain Glyph.marksId ⟨1, .mark Glyph.marksId⟩
    let context : Context Glyph := .ofProgram (.ofInstructions [delay, mark])
    let fresh : History Glyph := .start .empty .empty
    Scheduler.Made fresh.scheduler ∧ fresh.scheduler.isIdle = true ∧ Glyph.behaviour.IgnoresExpired ∧
      ∃ outcome ∈ (fresh.underBudget Glyph.behaviour context 2 1).completed,
        outcome.id = 1 ∧ outcome.finalContext.map (·.suspension) = some (some ⟨0⟩) ∧
        (fresh.underBudget Glyph.behaviour context 1 1).completedIds = [] ∧
        ((fresh.underBudget Glyph.behaviour context 1 2).completed.map fun outcome =>
          outcome.finalContext.map (·.suspension)) = [some none] ∧
        ∃ ticks outcome', outcome' ∈ (fresh.underBudget Glyph.behaviour context 1 ticks).completed ∧
          outcome'.steps = outcome.steps ∧ outcome'.forks = outcome.forks := by
  intro delay mark context fresh
  have reached : Reaches ⟨fun _ => True, fun _ _ => True⟩ Glyph.behaviour fresh fresh := .origin
  have reported : ∃ outcome, (fresh.underBudget Glyph.behaviour context 2 1).completed = [outcome] ∧ outcome.id = 1 ∧
      outcome.finalContext.map (·.suspension) = some (some ⟨0⟩) :=
    ⟨_, rfl, rfl, rfl⟩
  obtain ⟨outcome, only, sameId, suspended⟩ := reported
  have member : outcome ∈ (fresh.underBudget Glyph.behaviour context 2 1).completed := by
    rw [only]
    exact List.mem_singleton_self outcome
  obtain ⟨ticks, outcome', statement⟩ :=
    budgetChangesTimingOnly .empty reached rfl Glyph.behaviour_ignoresExpired member sameId 1
  exact ⟨.empty, rfl, Glyph.behaviour_ignoresExpired, outcome, member, sameId, suspended, by decide, by decide,
    ticks, outcome', statement.2.1, statement.2.2.2.2.1, statement.2.2.2.2.2.1⟩

end Spellcast
