import Spellcast.Proofs.Budget
import Spellcast.Proofs.Focus

/-!
# A cast that is alone

When only one cast is in flight, a tick is one turn of it. `History.Resting` describes the cast between two ticks and
`History.Running` in the middle of one, where it has still to run so many instructions. The lemmas lead from one
instruction to the next, from a tick to the next one when the budget is used up or the cast has to wait, and to the
report when it is finished.
-/

namespace Spellcast

variable {κ : Type} {behaviour : Behaviour κ}

namespace History

variable {history : History κ} {cast : InFlight} {context : Context κ} {id : CastId}
  {done : List (Instruction κ)} {instruction : Instruction κ} {left : Nat} {turn after : Turn κ}

def loneTurn (history : History κ) (cast : InFlight) : Turn κ := (history.scheduler.opening history.realm).turn cast

theorem executed_of_alone
    (alone : history.scheduler.casts = [cast]) :
    history.scheduler.executed behaviour history.realm =
      ((history.loneTurn cast).taken behaviour history.scheduler.maxSteps history.scheduler.maxForks).map
        (cast.id, ·) := by
  rw [Scheduler.executed, alone, Scheduler.executedFrom, Scheduler.executedFrom, List.append_nil]
  rfl

theorem tick_of_running
    (alone : history.scheduler.casts = [cast])
    (taken : (history.loneTurn cast).take behaviour history.scheduler.maxSteps history.scheduler.maxForks =
      (after, .running)) :
    ∃ report event, report.completed = [] ∧
      history.tick behaviour =
        { history with
          scheduler :=
            { history.scheduler with
              arena := after.arena, casts := [after.cast], ticks := history.scheduler.ticks + 1 }
          realm := after.realm.emit event, reports := history.reports ++ [report]
          executed := history.executed ++ history.scheduler.executed behaviour history.realm } := by
  have round : history.scheduler.roundAfter behaviour history.realm history.scheduler.casts =
      { staying := [after.cast], arena := after.arena, realm := after.realm, steps := 0 + after.steps
        forks := 0 + after.forks, completed := [] } := by
    rw [Scheduler.roundAfter, alone, List.foldl_cons, List.foldl_nil, Scheduler.visit_of_running taken]
    rfl
  simp only [Scheduler.roundAfter, Scheduler.opening] at round
  simp only [tick, Scheduler.tick, round]
  exact ⟨_, _, rfl, rfl⟩

theorem tick_of_finished
    (alone : history.scheduler.casts = [cast])
    (taken : (history.loneTurn cast).take behaviour history.scheduler.maxSteps history.scheduler.maxForks =
      (after, .finished)) :
    ∃ report completed event,
      report.completed = [Scheduler.outcome after.cast (after.arena.get? after.cast.active)] ∧
        history.tick behaviour =
          { history with
            scheduler :=
              { history.scheduler with
                arena := after.arena.release after.cast.contexts, casts := []
                ticks := history.scheduler.ticks + 1 }
            realm := (after.realm.emit completed).emit event, reports := history.reports ++ [report]
            executed := history.executed ++ history.scheduler.executed behaviour history.realm } := by
  have round : history.scheduler.roundAfter behaviour history.realm history.scheduler.casts =
      { staying := [], arena := after.arena.release after.cast.contexts
        realm := after.realm.emit (.castCompleted after.cast.id after.cast.steps after.cast.forks after.cast.ticks
          ((Scheduler.outcome after.cast (after.arena.get? after.cast.active)).cancelReason.map CancelReason.text))
        steps := 0 + after.steps, forks := 0 + after.forks
        completed := [Scheduler.outcome after.cast (after.arena.get? after.cast.active)] } := by
    rw [Scheduler.roundAfter, alone, List.foldl_cons, List.foldl_nil, Scheduler.visit_of_finished taken]
    rfl
  simp only [Scheduler.roundAfter, Scheduler.opening] at round
  simp only [tick, Scheduler.tick, round]
  exact ⟨_, _, _, rfl, rfl⟩

theorem completed_of_running
    {after : Turn κ}
    (alone : history.scheduler.casts = [cast])
    (taken : (history.loneTurn cast).take behaviour history.scheduler.maxSteps history.scheduler.maxForks =
      (after, .running)) :
    (history.tick behaviour).completed = history.completed := by
  obtain ⟨report, event, nothing, ticked⟩ := tick_of_running alone taken
  rw [ticked, completed, List.flatMap_append, List.flatMap_singleton, nothing, List.append_nil]
  rfl

theorem completed_of_finished
    {after : Turn κ}
    (alone : history.scheduler.casts = [cast])
    (taken : (history.loneTurn cast).take behaviour history.scheduler.maxSteps history.scheduler.maxForks =
      (after, .finished)) :
    (history.tick behaviour).completed =
      history.completed ++ [Scheduler.outcome after.cast (after.arena.get? after.cast.active)] := by
  obtain ⟨report, noted, event, reported, ticked⟩ := tick_of_finished alone taken
  rw [ticked, completed, List.flatMap_append, List.flatMap_singleton, reported]
  rfl

/-- The turn of a tick starts from the contexts between the ticks. -/
theorem loneTurn_owns
    (alone : history.scheduler.casts = [cast])
    (owns : history.Owns) :
    Spellcast.Owns (history.loneTurn cast).arena [(history.loneTurn cast).cast] := by
  have owns : Spellcast.Owns history.scheduler.arena [cast] := alone ▸ owns
  exact owns.recount rfl rfl rfl

/-- The only cast in flight, between two ticks, after it has run these instructions. -/
structure Resting (history : History κ) (id : CastId) (done : List (Instruction κ)) (cast : InFlight) : Prop where
  alone : history.scheduler.casts = [cast]
  sameId : cast.id = id
  owns : history.Owns
  executed : history.executedBy id = done
  steps : cast.steps = done.length
  unreported : ∀ outcome ∈ history.completed, outcome.id ≠ id

/-- The only cast in flight, in the middle of the next tick: it has run these instructions by then and may still run
so many. -/
structure Running (behaviour : Behaviour κ) (history : History κ) (id : CastId) (done : List (Instruction κ))
    (left : Nat) (turn : Turn κ) : Prop where
  alone : ∃ cast, history.scheduler.casts = [cast] ∧ cast.id = id ∧
    (history.loneTurn cast).take behaviour history.scheduler.maxSteps history.scheduler.maxForks =
      ((turn.run behaviour history.scheduler.maxForks left).counted.left,
        (turn.run behaviour history.scheduler.maxForks left).verdict) ∧
    history.executedBy id ++
        (history.loneTurn cast).taken behaviour history.scheduler.maxSteps history.scheduler.maxForks =
      done ++ turn.executed behaviour history.scheduler.maxForks left
  sameId : turn.cast.id = id
  owned : history.Owns
  owns : Spellcast.Owns turn.arena [turn.cast]
  steps : turn.cast.steps + turn.steps = done.length
  unreported : ∀ outcome ∈ history.completed, outcome.id ≠ id

/-- A context that is left where it is: the same arena, cast and world, up to what is counted and logged. -/
structure Resembles (first second : Turn κ) : Prop where
  arena : second.arena = first.arena
  active : second.cast.active = first.cast.active
  forks : second.cast.forks = first.cast.forks
  realm : first.realm.SameWorld second.realm

/-- The only cast that was in flight has been reported, after it had run these instructions and as this turn left it. -/
structure Ended (history : History κ) (id : CastId) (done : List (Instruction κ)) (turn : Turn κ)
    (outcome : Outcome κ) : Prop where
  idle : history.scheduler.isIdle = true
  reported : outcome ∈ history.completed
  only : ∀ other ∈ history.completed, other.id = id → other = outcome
  executed : history.executedBy id = done
  outcome : outcome = Scheduler.outcome turn.counted.cast (turn.arena.get? turn.cast.active)
  realm : turn.realm.SameWorld history.realm

section

variable {woken : Turn κ}

theorem executedBy_tick_of_alone
    (alone : history.scheduler.casts = [cast])
    (sameId : cast.id = id) :
    (history.tick behaviour).executedBy id =
      history.executedBy id ++
        (history.loneTurn cast).taken behaviour history.scheduler.maxSteps history.scheduler.maxForks := by
  subst sameId
  rw [executedBy_tick, executed_of_alone alone, Scheduler.filter_own, List.map_map]
  exact congrArg _ (List.map_id _)

/-- After a turn that does not end it the cast rests. -/
theorem rests_after
    (alone : history.scheduler.casts = [cast])
    (sameId : cast.id = id)
    (owns : history.Owns)
    (unreported : ∀ outcome ∈ history.completed, outcome.id ≠ id)
    (taken : (history.loneTurn cast).take behaviour history.scheduler.maxSteps history.scheduler.maxForks =
      (after, .running))
    (executed : history.executedBy id ++
      (history.loneTurn cast).taken behaviour history.scheduler.maxSteps history.scheduler.maxForks = done)
    (afterId : after.cast.id = id)
    (steps : after.cast.steps = done.length) :
    (history.tick behaviour).Resting id done after.cast ∧
      Resembles after ((history.tick behaviour).loneTurn after.cast) := by
  have owned : (history.tick behaviour).Owns := Scheduler.tick_owns owns history.realm
  have ran := (executedBy_tick_of_alone alone sameId).trans executed
  have still := completed_of_running alone taken
  obtain ⟨report, event, -, ticked⟩ := tick_of_running alone taken
  rw [ticked] at owned ran still ⊢
  refine ⟨⟨rfl, afterId, owned, ran, steps, ?_⟩, rfl, rfl, rfl, (Realm.SameWorld.refl _).emit _⟩
  rw [still]
  exact unreported

/-- After a turn that ends it the cast is reported. -/
theorem ended_after
    (alone : history.scheduler.casts = [cast])
    (sameId : cast.id = id)
    (unreported : ∀ outcome ∈ history.completed, outcome.id ≠ id)
    (taken : (history.loneTurn cast).take behaviour history.scheduler.maxSteps history.scheduler.maxForks =
      (turn.counted.left, .finished))
    (executed : history.executedBy id ++
      (history.loneTurn cast).taken behaviour history.scheduler.maxSteps history.scheduler.maxForks = done) :
    ∃ outcome, (history.tick behaviour).Ended id done turn outcome := by
  have ran := (executedBy_tick_of_alone alone sameId).trans executed
  have reported := completed_of_finished alone taken
  obtain ⟨report, noted, event, -, ticked⟩ := tick_of_finished alone taken
  rw [ticked] at ran reported ⊢
  refine ⟨_, rfl, ?_, ?_, ran, rfl, ((Realm.SameWorld.refl _).leave.emit _).emit _⟩
  · rw [reported]
    exact List.mem_append_right _ (List.mem_singleton_self _)
  · intro other member otherId
    rw [reported] at member
    rcases List.mem_append.mp member with earlier | new
    · exact absurd otherId (unreported other earlier)
    · exact List.mem_singleton.mp new

/-- A cast that need not wait begins to run. -/
theorem Resting.begins
    (resting : history.Resting id done cast)
    (live : (history.loneTurn cast).arena.get? (history.loneTurn cast).cast.active = some context)
    (woke : (history.loneTurn cast).announced.wake context = (woken, false)) :
    history.Running behaviour id done history.scheduler.maxSteps woken := by
  have turnOwns := loneTurn_owns resting.alone resting.owns
  have announced := Turn.keeps_announced turnOwns
  have keeps := announced.trans (Turn.keeps_wake announced.owns context)
  rw [woke] at keeps
  have announcedLive :
      (history.loneTurn cast).announced.arena.get? (history.loneTurn cast).announced.cast.active = some context := live
  obtain ⟨-, sameCast, sameSteps, -⟩ := Turn.wake_roused announcedLive
  rw [woke] at sameCast sameSteps
  refine ⟨⟨cast, resting.alone, resting.sameId, Turn.take_of_wakes live woke, ?_⟩, ?_, resting.owns, keeps.owns,
    ?_, resting.unreported⟩
  · rw [resting.executed, Turn.taken_of_wakes live woke]
  · rw [sameCast]
    exact resting.sameId
  · rw [sameCast, sameSteps]
    exact resting.steps

/-- A cast that has to wait rests again after the tick. -/
theorem Resting.waits
    (resting : history.Resting id done cast)
    (live : (history.loneTurn cast).arena.get? (history.loneTurn cast).cast.active = some context)
    (woke : (history.loneTurn cast).announced.wake context = (woken, true)) :
    (history.tick behaviour).Resting id done woken.cast ∧
      Resembles woken ((history.tick behaviour).loneTurn woken.cast) := by
  have announcedLive :
      (history.loneTurn cast).announced.arena.get? (history.loneTurn cast).announced.cast.active = some context := live
  obtain ⟨-, sameCast, -⟩ := Turn.wake_roused announcedLive
  rw [woke] at sameCast
  have taken :
      (history.loneTurn cast).take behaviour history.scheduler.maxSteps history.scheduler.maxForks =
        (woken.left, .running) :=
    Turn.take_of_waits live woke
  have executed : history.executedBy id ++
      (history.loneTurn cast).taken behaviour history.scheduler.maxSteps history.scheduler.maxForks = done := by
    rw [Turn.taken_of_waits live woke, List.append_nil]
    exact resting.executed
  have sameId : woken.cast.id = id := by
    rw [sameCast]
    exact resting.sameId
  have steps : woken.cast.steps = done.length := by
    rw [sameCast]
    exact resting.steps
  obtain ⟨rests, resembles⟩ := rests_after resting.alone resting.sameId resting.owns resting.unreported taken executed
    sameId steps
  exact ⟨rests, resembles.arena, resembles.active, resembles.forks,
    ((Realm.SameWorld.refl _).leave).trans resembles.realm⟩

end

/-- An instruction is run in the middle of a tick, and the turn goes on or stops after it. -/
theorem Running.ran
    {goesOn : Bool}
    (running : history.Running behaviour id done (left + 1) turn)
    (next : turn.next? = some instruction)
    (stepped : turn.step behaviour history.scheduler.maxForks = (after, goesOn)) :
    history.Running behaviour id (done ++ [instruction]) (if goesOn then left else 0) after := by
  obtain ⟨cast, alone, sameId, taken, executed⟩ := running.alone
  have keeps := Turn.keeps_step behaviour history.scheduler.maxForks running.owns
  have counted := Turn.step_steps behaviour history.scheduler.maxForks running.owns
  rw [stepped] at keeps counted
  refine ⟨⟨cast, alone, sameId, ?_, ?_⟩, keeps.sameId.trans running.sameId, running.owned, keeps.owns, ?_,
    running.unreported⟩
  · cases goesOn with
    | true => rw [taken, Turn.run_of_go stepped, if_pos rfl]
    | false => rw [taken, Turn.run_of_stop stepped, if_neg Bool.false_ne_true, Turn.run]
  · cases goesOn with
    | true => rw [executed, Turn.executed_of_go stepped, next, if_pos rfl, List.append_assoc]; rfl
    | false => rw [executed, Turn.executed_of_stop stepped, next, if_neg Bool.false_ne_true, Turn.executed,
        List.append_nil]; rfl
  · rw [counted, running.steps, next, List.length_append]
    rfl

/-- A cast that cannot run on in this tick, but is not finished, rests after the tick. -/
theorem Running.pauses
    (running : history.Running behaviour id done left turn)
    (still : turn.run behaviour history.scheduler.maxForks left = turn ∧
      turn.executed behaviour history.scheduler.maxForks left = [])
    (goesOn : turn.verdict = .running) :
    (history.tick behaviour).Resting id done turn.counted.cast ∧
      Resembles turn ((history.tick behaviour).loneTurn turn.counted.cast) := by
  obtain ⟨cast, alone, sameId, taken, executed⟩ := running.alone
  rw [still.1, goesOn] at taken
  rw [still.2, List.append_nil] at executed
  obtain ⟨rests, resembles⟩ := rests_after alone sameId running.owned running.unreported taken executed
    running.sameId running.steps
  exact ⟨rests, resembles.arena, resembles.active, resembles.forks,
    ((Realm.SameWorld.refl _).leave).trans resembles.realm⟩

/-- A cast that is finished is reported by the tick. -/
theorem Running.finishes
    (running : history.Running behaviour id done left turn)
    (still : turn.run behaviour history.scheduler.maxForks left = turn ∧
      turn.executed behaviour history.scheduler.maxForks left = [])
    (finished : turn.verdict = .finished) :
    ∃ outcome, (history.tick behaviour).Ended id done turn outcome := by
  obtain ⟨cast, alone, sameId, taken, executed⟩ := running.alone
  rw [still.1, finished] at taken
  rw [still.2, List.append_nil] at executed
  exact ended_after alone sameId running.unreported taken executed

end History

end Spellcast
