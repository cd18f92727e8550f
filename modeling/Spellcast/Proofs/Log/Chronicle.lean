import Spellcast.Proofs.Log.Tick

/-!
# Chronicles

`Chronicle` says of the events of one cast how they begin, which turns they tell of and through which contexts the cast
has moved. The contexts, forks and ticks that the scheduler keeps of a cast in flight (`Ongoing`) and those of an outcome
(`Closed`) are the ones in its chronicle. A turn that leaves the cast in flight extends it, one that finishes the cast ends
it, and an interrupt adds an event that is neither turn nor move.
-/

namespace Spellcast

variable {κ : Type}

/-- The events of one cast: they begin with the only one that says that it was started, they tell of its turns in these
contexts, numbered one after the other, and of its moves from the root through these children. -/
structure Chronicle (id : CastId) (root : ContextId) (contexts children : List ContextId) (events : List Event) :
    Prop where
  begins : ∃ program caster rest, events = .castStarted id program caster :: rest ∧ rest.filter (·.tells .started) = []
  turns : events.filter (·.tells .stepping) = contexts.mapIdx fun index context => .castStepping id context (index + 1)
  moves : events.filter (·.tells .forked) =
    ((root :: children).zip children).mapIdx fun index link => .castForked id link.1 link.2 (index + 1)

section Chronicle

variable {id : CastId} {root : ContextId} {contexts children moved : List ContextId} {events more : List Event}

theorem chronicle_started
    (id : CastId)
    (root : ContextId)
    (program caster : String) :
    Chronicle id root [] [] [.castStarted id program caster] where
  begins := ⟨program, caster, [], rfl, rfl⟩
  turns := rfl
  moves := rfl

theorem Chronicle.append
    (chronicle : Chronicle id root contexts children events)
    (active : Option ContextId)
    (started : more.filter (·.tells .started) = [])
    (turned : more.filter (·.tells .stepping) = active.toList.map (.castStepping id · (contexts.length + 1)))
    (forked : more.filter (·.tells .forked) = Event.moves id (children.getLast?.getD root) children.length moved) :
    Chronicle id root (contexts ++ active.toList) (children ++ moved) (events ++ more) where
  begins := by
    obtain ⟨program, caster, rest, isEvents, once⟩ := chronicle.begins
    refine ⟨program, caster, rest ++ more, by rw [isEvents, List.cons_append], ?_⟩
    rw [List.filter_append, once, started, List.nil_append]
  turns := by
    rw [List.filter_append, chronicle.turns, turned, List.mapIdx_append]
    cases active with
    | none => rfl
    | some active => simp
  moves := by
    have appended := Event.moves_append id root 0 children moved
    have before := chronicle.moves
    rw [Event.moves_eq, Event.moves_eq id root 0 children, Nat.zero_add] at appended
    simp only [Nat.zero_add] at appended
    rw [List.filter_append, before, forked, appended]

/-- Events that tell neither of the start nor of turns and moves change nothing in a chronicle. -/
theorem Chronicle.aside
    (chronicle : Chronicle id root contexts children events)
    (started : more.filter (·.tells .started) = [])
    (stepping : more.filter (·.tells .stepping) = [])
    (forked : more.filter (·.tells .forked) = []) :
    Chronicle id root contexts children (events ++ more) := by
  have noMove : more.filter (·.tells .forked) = Event.moves id (children.getLast?.getD root) children.length [] := forked
  have nothing := chronicle.append none started stepping noMove
  rwa [Option.toList_none, List.append_nil, List.append_nil] at nothing

/-- What the scheduler keeps of a cast in flight is what its events tell. -/
structure Ongoing (cast : InFlight) (root : ContextId) (contexts children : List ContextId) (events : List Event) :
    Prop where
  chronicle : Chronicle cast.id root contexts children events
  ticks : cast.ticks = contexts.length
  contexts : cast.contexts = root :: children
  unlimited : events.filter (·.tells .limited) = []
  uncompleted : events.filter (·.tells .completed) = []

/-- The outcome of a cast is what its events tell, and the last one and no other says that it is completed. -/
structure Closed (outcome : Outcome κ) (root : ContextId) (contexts children : List ContextId) (events : List Event) :
    Prop where
  chronicle : Chronicle outcome.id root contexts children events
  ticks : outcome.ticks = contexts.length
  forks : outcome.forks = children.length
  limited : (events.filter (·.tells .limited)).length ≤ 1
  ends : ∃ earlier, earlier.filter (·.tells .completed) = [] ∧
    events = earlier ++ [.castCompleted outcome.id outcome.steps outcome.forks outcome.ticks
      (outcome.cancelReason.map CancelReason.text)]

variable {cast : InFlight} {turn after : Turn κ} {own : List Event}

/-- A turn adds its context and its moves. -/
theorem Ongoing.reports
    {verdict : Turn.Verdict}
    (ongoing : Ongoing cast root contexts children events)
    (coherent : cast.Coherent)
    (started : turn.cast = { cast with ticks := cast.ticks + 1 })
    (reports : turn.Reports after verdict moved own) :
    Chronicle cast.id root (contexts ++ [cast.active]) (children ++ moved) (events ++ own) ∧
      after.cast.id = cast.id ∧ after.cast.contexts = root :: (children ++ moved) ∧
      after.cast.forks = (children ++ moved).length := by
  have active : cast.active = children.getLast?.getD root := by
    have last := coherent.active
    rw [ongoing.contexts, List.getLast?_cons] at last
    exact (Option.some.inj last).symm
  have forks : cast.forks = children.length := by
    have length := coherent.length
    rw [ongoing.contexts] at length
    exact (Nat.succ.inj length).symm
  obtain ⟨-, tells, sameId, afterForks, afterContexts⟩ := reports
  rw [started] at sameId afterForks afterContexts
  have stepping := tells.stepping
  have forked := tells.forked
  rw [started] at stepping forked
  refine ⟨?_, sameId, ?_, ?_⟩
  · apply ongoing.chronicle.append (some cast.active) tells.started
    · rw [stepping, ongoing.ticks]
      rfl
    · rw [forked, active, forks]
  · rw [afterContexts, ongoing.contexts, List.cons_append]
  · rw [afterForks, forks, List.length_append]

theorem Ongoing.stays
    (ongoing : Ongoing cast root contexts children events)
    (coherent : cast.Coherent)
    (started : turn.cast = { cast with ticks := cast.ticks + 1 })
    (sameTicks : after.cast.ticks = cast.ticks + 1)
    (reports : turn.Reports after .running moved own) :
    Ongoing after.cast root (contexts ++ [cast.active]) (children ++ moved) (events ++ own) := by
  obtain ⟨chronicle, sameId, moves, -⟩ := ongoing.reports coherent started reports
  have limited : own.filter (·.tells .limited) = [] :=
    reports.tells.limited.resolve_right fun ends => Turn.Verdict.noConfusion ends.1
  refine ⟨sameId ▸ chronicle, ?_, moves, ?_, ?_⟩
  · rw [sameTicks, List.length_append, ongoing.ticks]
    rfl
  · rw [List.filter_append, ongoing.unlimited, limited, List.nil_append]
  · rw [List.filter_append, ongoing.uncompleted, reports.tells.completed, List.nil_append]

theorem Ongoing.finishes
    (ongoing : Ongoing cast root contexts children events)
    (coherent : cast.Coherent)
    (started : turn.cast = { cast with ticks := cast.ticks + 1 })
    (sameTicks : after.cast.ticks = cast.ticks + 1)
    (reports : turn.Reports after .finished moved own) :
    Closed (Scheduler.outcome after.cast (after.arena.get? after.cast.active)) root (contexts ++ [cast.active])
      (children ++ moved) (events ++ (own ++ after.closing .finished)) := by
  obtain ⟨chronicle, sameId, -, forks⟩ := ongoing.reports coherent started reports
  have uncompleted : (events ++ own).filter (·.tells .completed) = [] := by
    rw [List.filter_append, ongoing.uncompleted, reports.tells.completed, List.nil_append]
  rw [← List.append_assoc]
  refine ⟨?_, ?_, forks, ?_, events ++ own, uncompleted, rfl⟩
  · rw [show (Scheduler.outcome after.cast _).id = cast.id from sameId]
    exact chronicle.aside rfl rfl rfl
  · change after.cast.ticks = _
    rw [sameTicks, List.length_append, ongoing.ticks]
    rfl
  · rw [List.filter_append, List.filter_append, ongoing.unlimited, List.nil_append]
    rcases reports.tells.limited with unlimited | ⟨-, limitedOnce⟩
    · rw [unlimited]
      exact Nat.zero_le _
    · rw [List.length_append, limitedOnce]
      exact Nat.le_refl _

/-- An interrupt tells neither of a turn nor of a move. -/
theorem Ongoing.interrupt
    (ongoing : Ongoing cast root contexts children events)
    (reason : String)
    (notify : Bool) :
    Ongoing cast root contexts children (events ++ [.castInterrupted cast.id reason notify]) where
  chronicle := ongoing.chronicle.aside rfl rfl rfl
  ticks := ongoing.ticks
  contexts := ongoing.contexts
  unlimited := by
    rw [List.filter_append, ongoing.unlimited]
    rfl
  uncompleted := by
    rw [List.filter_append, ongoing.uncompleted]
    rfl

end Chronicle

end Spellcast
