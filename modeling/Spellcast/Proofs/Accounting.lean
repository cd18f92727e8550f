import Mathlib.Algebra.GroupWithZero.Nat
import Spellcast.Proofs.Act

/-!
# Steps, forks and ticks are accounted for

Instructions and forks are counted by the turn that makes them, by the cast and by the report of the tick. A turn adds
the same numbers everywhere (`Turn.Counts`), so a part of a tick does (`Round.Adds`), and over a history the books
balance: `History.Balanced`. The ticks of a cast are counted from its registration on (`History.Timed`).
-/

namespace Spellcast

variable {κ : Type} {behaviour : Behaviour κ} {maxSteps maxForks : Nat} {others : List InFlight}

namespace Turn

variable {start turn : Turn κ} {acts : List (Act κ)}

/-- What a turn has counted since its start: an instruction for every act, and a fork for every context that it has
put in the arena. -/
structure Counts (start : Turn κ) (acts : List (Act κ)) (turn : Turn κ) : Prop where
  steps : turn.steps = start.steps + acts.length
  forks : turn.cast.forks + start.forks = start.cast.forks + turn.forks
  contexts : turn.arena.nextId + start.forks = start.arena.nextId + turn.forks

theorem Counts.step
    (counts : Counts start acts turn)
    (owns : Owns turn.arena (turn.cast :: others)) :
    Counts start (acts ++ turn.act?.toList) (turn.step behaviour maxForks).1 := by
  obtain ⟨steps, forks, contexts⟩ := counts
  obtain ⟨context, live⟩ := active_live owns
  have cases := step_cases behaviour maxForks live (known owns)
  generalize (turn.step behaviour maxForks).1 = after at cases ⊢
  generalize (turn.step behaviour maxForks).2 = goesOn at cases
  cases cases with
  | exhausted found exhausted =>
      rw [act?_of_exhausted found exhausted]
      simpa using Counts.mk steps forks contexts
  | proceed runs =>
      rw [runs.act?]
      constructor
      · simp [ran, steps, Nat.add_assoc]
      · exact forks
      · simpa [ran] using contexts
  | limit runs _ =>
      rw [runs.act?]
      constructor
      · simp [stoppedAtLimit, ran, steps, Nat.add_assoc]
      · exact forks
      · simpa [stoppedAtLimit, ran] using contexts
  | fork runs _ =>
      -- the fork is counted by the turn and by the cast, and its child takes the next number of the arena
      rw [runs.act?]
      constructor
      · simp [movedOn, ran, steps, Nat.add_assoc]
      · change turn.cast.forks + 1 + start.forks = start.cast.forks + (turn.forks + 1)
        omega
      · change turn.arena.nextId + 1 + start.forks = start.arena.nextId + (turn.forks + 1)
        rw [Nat.add_right_comm, contexts, Nat.add_assoc]

theorem counts_recounting (behaviour : Behaviour κ) (maxForks : Nat) (others : List InFlight) (start : Turn κ) :
    Recounting behaviour maxForks others (Counts start) where
  announced _ _ counts := ⟨counts.steps, counts.forks, counts.contexts⟩
  wake acts turn context _ _ counts := by
    have cases := wake_cases turn context
    generalize (turn.wake context).1 = woken at cases ⊢
    generalize (turn.wake context).2 = waits at cases
    cases cases with
    | awake _ =>
        exact counts
    | waits _ _ _ =>
        exact ⟨counts.steps, counts.forks, by simpa [waited] using counts.contexts⟩
    | resumes _ _ _ =>
        exact ⟨counts.steps, counts.forks, by simpa [resumed] using counts.contexts⟩
  step _ _ owns counts := counts.step owns
  counted _ _ counts := ⟨counts.steps, counts.forks, counts.contexts⟩
  left _ _ counts := ⟨counts.steps, counts.forks, counts.contexts⟩

end Turn

/-- The instructions that were counted for the casts in flight and for those that have been reported. -/
def stepsOf (casts : List InFlight) (outcomes : List (Outcome κ)) : Nat :=
  (casts.map (·.steps)).sum + (outcomes.map (·.steps)).sum

/-- The forks that were counted for the casts in flight and for those that have been reported. -/
def forksOf (casts : List InFlight) (outcomes : List (Outcome κ)) : Nat :=
  (casts.map (·.forks)).sum + (outcomes.map (·.forks)).sum

namespace Scheduler

variable {before middle after round : Round κ} {cast : InFlight} {casts rest : List InFlight}
  {scheduler : Scheduler κ} {realm : Realm}

/-- The visits of some casts have added so many instructions and forks, to the report as to the casts. -/
structure Round.Adds (before : Round κ) (casts : List InFlight) (after : Round κ) (ran forked : Nat) : Prop where
  steps : after.steps = before.steps + ran
  forks : after.forks = before.forks + forked
  contexts : after.arena.nextId = before.arena.nextId + forked
  stepsOfCasts :
    stepsOf after.staying after.completed =
      stepsOf before.staying before.completed + (casts.map (·.steps)).sum + ran
  forksOfCasts :
    forksOf after.staying after.completed =
      forksOf before.staying before.completed + (casts.map (·.forks)).sum + forked

theorem Round.Adds.refl (round : Round κ) : round.Adds [] round 0 0 :=
  ⟨rfl, rfl, rfl, rfl, rfl⟩

theorem Round.Adds.cons
    {ran ranLater forked forkedLater : Nat}
    (first : before.Adds [cast] middle ran forked)
    (others : middle.Adds rest after ranLater forkedLater) :
    before.Adds (cast :: rest) after (ran + ranLater) (forked + forkedLater) where
  steps := by rw [others.steps, first.steps, Nat.add_assoc]
  forks := by rw [others.forks, first.forks, Nat.add_assoc]
  contexts := by rw [others.contexts, first.contexts, Nat.add_assoc]
  stepsOfCasts := by
    have counted := first.stepsOfCasts
    rw [others.stepsOfCasts, List.map_cons, List.sum_cons]
    simp only [List.map_cons, List.map_nil, List.sum_cons, List.sum_nil] at counted
    omega
  forksOfCasts := by
    have counted := first.forksOfCasts
    rw [others.forksOfCasts, List.map_cons, List.sum_cons]
    simp only [List.map_cons, List.map_nil, List.sum_cons, List.sum_nil] at counted
    omega

theorem visit_adds
    (behaviour : Behaviour κ)
    (maxSteps maxForks : Nat)
    (owns : Owns round.arena (round.staying ++ cast :: rest)) :
    ∃ forks, round.Adds [cast] (visit behaviour maxSteps maxForks round cast)
      ((round.turn cast).taken behaviour maxSteps maxForks).length forks := by
  have turnOwns := Round.turn_owns owns
  have steps := Turn.take_steps behaviour maxSteps maxForks turnOwns rfl
  have counts := (Turn.counts_recounting behaviour maxForks _ (round.turn cast)).take maxSteps turnOwns
    ⟨rfl, rfl, rfl⟩
  rcases taken : (round.turn cast).take behaviour maxSteps maxForks with ⟨turn, verdict⟩
  rw [taken] at steps counts
  have castSteps : turn.cast.steps = cast.steps + ((round.turn cast).taken behaviour maxSteps maxForks).length :=
    steps
  have turnSteps : turn.steps = ((round.turn cast).taken behaviour maxSteps maxForks).length := by
    rw [counts.steps, ← Turn.map_actsTaken, List.length_map]
    exact Nat.zero_add _
  have forks : turn.cast.forks = cast.forks + turn.forks := counts.forks
  have contexts : turn.arena.nextId = round.arena.nextId + turn.forks := counts.contexts
  refine ⟨turn.forks, ?_⟩
  cases verdict with
  | running =>
      rw [visit_of_running taken]
      refine ⟨by rw [turnSteps], rfl, contexts, ?_, ?_⟩
      · simp [stepsOf]
        omega
      · simp [forksOf]
        omega
  | finished =>
      rw [visit_of_finished taken]
      refine ⟨by rw [← turnSteps], rfl, contexts, ?_, ?_⟩
      · simp [stepsOf, complete, outcome]
        omega
      · simp [forksOf, complete, outcome]
        omega

theorem visits_add
    (behaviour : Behaviour κ)
    (maxSteps maxForks : Nat)
    (owns : Owns round.arena (round.staying ++ casts)) :
    ∃ forks, round.Adds casts (casts.foldl (visit behaviour maxSteps maxForks) round)
      (executedFrom behaviour maxSteps maxForks round casts).length forks := by
  induction casts generalizing round with
  | nil =>
      exact ⟨0, .refl round⟩
  | cons first casts inductionHypothesis =>
      obtain ⟨forks, added⟩ := visit_adds behaviour maxSteps maxForks owns
      obtain ⟨moreForks, more⟩ := inductionHypothesis (visit_owns behaviour maxSteps maxForks owns)
      refine ⟨forks + moreForks, ?_⟩
      rw [executedFrom, List.length_append, List.length_map]
      exact added.cons more

/-- A tick adds what its report says, to the casts and to the arena. -/
theorem tick_adds
    (behaviour : Behaviour κ)
    (owns : Owns scheduler.arena scheduler.casts)
    (realm : Realm) :
    let (report, next, _) := scheduler.tick behaviour realm
    report.steps = (scheduler.executed behaviour realm).length ∧
      next.arena.nextId = scheduler.arena.nextId + report.forks ∧
      stepsOf next.casts report.completed = (scheduler.casts.map (·.steps)).sum + report.steps ∧
      forksOf next.casts report.completed = (scheduler.casts.map (·.forks)).sum + report.forks := by
  have opened : Owns (scheduler.opening realm).arena ((scheduler.opening realm).staying ++ scheduler.casts) := owns
  obtain ⟨forks, added⟩ := visits_add behaviour scheduler.maxSteps scheduler.maxForks opened
  obtain ⟨stepsAdded, forksAdded, contexts, stepsOfCasts, forksOfCasts⟩ := added
  simp only [opening, stepsOf, forksOf, List.map_nil, List.sum_nil, Nat.zero_add]
    at stepsAdded forksAdded contexts stepsOfCasts forksOfCasts
  simp only [tick, Scheduler.executed, opening, stepsOf, forksOf]
  refine ⟨stepsAdded, ?_, ?_, ?_⟩
  · rw [contexts, forksAdded]
  · rw [stepsOfCasts, stepsAdded]
  · rw [forksOfCasts, forksAdded]

/-- A cast, or the outcome of one, with this number and this many ticks comes from one of some casts, a tick later. -/
def Later (casts : List InFlight) (id : CastId) (ticks : Nat) : Prop :=
  ∃ cast ∈ casts, cast.id = id ∧ ticks = cast.ticks + 1

theorem Later.mono
    {casts more : List InFlight}
    {id : CastId}
    {ticks : Nat}
    (later : Later casts id ticks)
    (subset : casts ⊆ more) :
    Later more id ticks := by
  obtain ⟨cast, member, same⟩ := later
  exact ⟨cast, subset member, same⟩

theorem visit_later
    (behaviour : Behaviour κ)
    (maxSteps maxForks : Nat)
    (owns : Owns round.arena (round.staying ++ cast :: rest)) :
    let next := visit behaviour maxSteps maxForks round cast
    (∀ other ∈ next.staying, other ∈ round.staying ∨ Later [cast] other.id other.ticks) ∧
      ∀ outcome ∈ next.completed, outcome ∈ round.completed ∨ Later [cast] outcome.id outcome.ticks := by
  have keeps := Turn.keeps_take behaviour maxSteps maxForks (Round.turn_owns owns)
  rcases taken : (round.turn cast).take behaviour maxSteps maxForks with ⟨turn, verdict⟩
  rw [taken] at keeps
  have own : Later [cast] turn.cast.id turn.cast.ticks :=
    ⟨cast, List.mem_cons_self, keeps.sameId.symm, keeps.sameTicks⟩
  cases verdict with
  | running =>
      rw [visit_of_running taken]
      refine ⟨?_, fun _ member => .inl member⟩
      intro other member
      rcases List.mem_append.mp member with old | new
      · exact .inl old
      · rw [List.mem_singleton.mp new]
        exact .inr own
  | finished =>
      rw [visit_of_finished taken]
      refine ⟨fun _ member => .inl member, ?_⟩
      intro reported member
      rcases List.mem_append.mp member with old | new
      · exact .inl old
      · rw [List.mem_singleton.mp new]
        exact .inr own

theorem visits_later
    (behaviour : Behaviour κ)
    (maxSteps maxForks : Nat)
    (owns : Owns round.arena (round.staying ++ casts)) :
    let final := casts.foldl (visit behaviour maxSteps maxForks) round
    (∀ other ∈ final.staying, other ∈ round.staying ∨ Later casts other.id other.ticks) ∧
      ∀ outcome ∈ final.completed, outcome ∈ round.completed ∨ Later casts outcome.id outcome.ticks := by
  induction casts generalizing round with
  | nil =>
      exact ⟨fun _ member => .inl member, fun _ member => .inl member⟩
  | cons first casts inductionHypothesis =>
      have here := visit_later behaviour maxSteps maxForks owns
      have further := inductionHypothesis (visit_owns behaviour maxSteps maxForks owns)
      have firstOf : [first] ⊆ first :: casts := List.cons_subset_cons first (List.nil_subset casts)
      constructor
      · intro other member
        rcases further.1 other member with visited | later
        · exact (here.1 other visited).imp_right (·.mono firstOf)
        · exact .inr (later.mono (List.subset_cons_self _ _))
      · intro outcome member
        rcases further.2 outcome member with visited | later
        · exact (here.2 outcome visited).imp_right (·.mono firstOf)
        · exact .inr (later.mono (List.subset_cons_self _ _))

/-- A tick is one more tick for every cast, whether it stays in flight or is reported. -/
theorem tick_later
    (behaviour : Behaviour κ)
    (owns : Owns scheduler.arena scheduler.casts)
    (realm : Realm) :
    let (report, next, _) := scheduler.tick behaviour realm
    (∀ other ∈ next.casts, Later scheduler.casts other.id other.ticks) ∧
      ∀ outcome ∈ report.completed, Later scheduler.casts outcome.id outcome.ticks := by
  have opened : Owns (scheduler.opening realm).arena ((scheduler.opening realm).staying ++ scheduler.casts) := owns
  have visited := visits_later behaviour scheduler.maxSteps scheduler.maxForks opened
  exact ⟨fun other member => (visited.1 other member).resolve_left List.not_mem_nil,
    fun outcome member => (visited.2 outcome member).resolve_left List.not_mem_nil⟩

theorem cancelCast_nextId
    (behaviour : Behaviour κ)
    (scheduler : Scheduler κ)
    (id : CastId)
    (reason : CancelReason)
    (realm : Realm) :
    (scheduler.cancelCast behaviour id reason realm).2.1.arena.nextId = scheduler.arena.nextId := by
  rcases cancelCast_cases behaviour scheduler id reason realm with unchanged | ⟨_, _, _, _, _, canceled⟩
  · rw [unchanged]
  · rw [canceled]
    exact Arena.nextId_set

theorem terminateCast_nextId
    (scheduler : Scheduler κ)
    (id : CastId)
    (realm : Realm) :
    (scheduler.terminateCast id realm).2.1.arena.nextId = scheduler.arena.nextId := by
  rcases terminateCast_cases scheduler id realm with unchanged | ⟨_, _, _, _, terminated⟩
  · rw [unchanged]
  · rw [terminated]
    exact Arena.nextId_set

theorem Made.unused
    (made : scheduler.Made) :
    scheduler.arena.nextId = 0 ∧ scheduler.ticks = 0 := by
  induction made with
  | empty =>
      exact ⟨rfl, rfl⟩
  | ofConfig config =>
      exact ⟨rfl, rfl⟩
  | withMaxSteps maxSteps _ inductionHypothesis =>
      exact inductionHypothesis
  | withMaxForks maxForks _ inductionHypothesis =>
      exact inductionHypothesis

end Scheduler

namespace History

variable {history : History κ} {id : CastId} {born : Nat}

/-- The instructions that the ticks so far have reported. -/
def stepsReported (history : History κ) : Nat := (history.reports.map (·.steps)).sum

/-- The forks that the ticks so far have reported. -/
def forksReported (history : History κ) : Nat := (history.reports.map (·.forks)).sum

/-- What the reports say is what has happened, and what was counted for the casts. -/
structure Balanced (history : History κ) : Prop where
  executed : history.stepsReported = history.executed.length
  steps : history.stepsReported = stepsOf history.scheduler.casts history.completed
  forks : history.forksReported = forksOf history.scheduler.casts history.completed
  contexts : history.scheduler.arena.nextId = history.registered.length + history.forksReported
  ticks : history.scheduler.ticks = history.reports.length
  numbers : ∀ index report, history.reports[index]? = some report → report.tick = index + 1

theorem Balanced.cast
    (balanced : history.Balanced)
    (context : Context κ) :
    (history.cast context).Balanced where
  executed := balanced.executed
  steps := by
    have same : stepsOf (history.cast context).scheduler.casts (history.cast context).completed =
        stepsOf history.scheduler.casts history.completed := by
      simp [History.cast, Scheduler.cast, completed, stepsOf]
    rw [same]
    exact balanced.steps
  forks := by
    have same : forksOf (history.cast context).scheduler.casts (history.cast context).completed =
        forksOf history.scheduler.casts history.completed := by
      simp [History.cast, Scheduler.cast, completed, forksOf]
    rw [same]
    exact balanced.forks
  contexts := by
    change history.scheduler.arena.nextId + 1 = (history.registered ++ [_]).length + history.forksReported
    rw [balanced.contexts, List.length_append, List.length_singleton, Nat.add_right_comm]
  ticks := balanced.ticks
  numbers := balanced.numbers

theorem Balanced.tick
    (balanced : history.Balanced)
    (owns : history.Owns) :
    (history.tick behaviour).Balanced := by
  have added := Scheduler.tick_adds behaviour owns history.realm
  have numbered : (history.scheduler.tick behaviour history.realm).1.tick = history.scheduler.ticks + 1 := rfl
  have counted : (history.scheduler.tick behaviour history.realm).2.1.ticks = history.scheduler.ticks + 1 := rfl
  have after : history.tick behaviour =
      { history with
        scheduler := (history.scheduler.tick behaviour history.realm).2.1
        realm := (history.scheduler.tick behaviour history.realm).2.2
        reports := history.reports ++ [(history.scheduler.tick behaviour history.realm).1]
        executed := history.executed ++ history.scheduler.executed behaviour history.realm } := rfl
  rw [after]
  generalize history.scheduler.tick behaviour history.realm = answer at added numbered counted
  obtain ⟨report, next, realm⟩ := answer
  obtain ⟨ran, contexts, stepsOfCasts, forksOfCasts⟩ := added
  obtain ⟨executedBefore, stepsBefore, forksBefore, contextsBefore, ticksBefore, numbersBefore⟩ := balanced
  simp only [stepsReported, forksReported, completed, stepsOf, forksOf] at *
  constructor
  · simp [stepsReported, executedBefore, ran]
  · simp [stepsReported, completed, stepsOf]
    omega
  · simp [forksReported, completed, forksOf]
    omega
  · rw [contexts, contextsBefore]
    simp [forksReported, Nat.add_assoc]
  · simp [counted, ticksBefore]
  · intro index other found
    rcases Nat.lt_or_ge index history.reports.length with old | new
    · rw [List.getElem?_append_left old] at found
      exact numbersBefore index other found
    · rw [List.getElem?_append_right new, List.getElem?_singleton] at found
      split at found
      · next last =>
        obtain rfl : report = other := Option.some.inj found
        rw [numbered, ticksBefore]
        omega
      · exact absurd found (by simp)

theorem Balanced.interrupted
    {scheduler : Scheduler κ}
    (balanced : history.Balanced)
    (realm : Realm)
    (unchanged : ∃ arena, scheduler = { history.scheduler with arena })
    (sameNext : scheduler.arena.nextId = history.scheduler.arena.nextId) :
    ({ history with scheduler, realm } : History κ).Balanced := by
  obtain ⟨arena, rfl⟩ := unchanged
  exact ⟨balanced.executed, balanced.steps, balanced.forks, sameNext.trans balanced.contexts, balanced.ticks,
    balanced.numbers⟩

theorem balanced_stable (behaviour : Behaviour κ) (rules : Rules κ) :
    Stable rules behaviour fun history => history.Owns ∧ history.Balanced where
  cast history context holds :=
    ⟨(owns_stable behaviour rules).cast history context holds.1, holds.2.cast context⟩
  tick history holds := ⟨(owns_stable behaviour rules).tick history holds.1, holds.2.tick holds.1⟩
  cancel history id reason allowed holds :=
    ⟨(owns_stable behaviour rules).cancel history id reason allowed holds.1,
      holds.2.interrupted _ (Scheduler.cancelCast_arena behaviour history.scheduler id reason history.realm)
        (Scheduler.cancelCast_nextId behaviour history.scheduler id reason history.realm)⟩
  terminate history id allowed holds :=
    ⟨(owns_stable behaviour rules).terminate history id allowed holds.1,
      holds.2.interrupted _ (Scheduler.terminateCast_arena history.scheduler id history.realm)
        (Scheduler.terminateCast_nextId history.scheduler id history.realm)⟩
  outside history realm holds := ⟨holds.1, holds.2.interrupted realm ⟨history.scheduler.arena, rfl⟩ rfl⟩

/-- The ticks of a cast are those since so many ticks had run. -/
structure Timed (id : CastId) (born : Nat) (history : History κ) : Prop where
  ticks : history.scheduler.ticks = history.reports.length
  given : id < history.scheduler.nextCast
  inFlight : ∀ cast ∈ history.scheduler.casts, cast.id = id → history.scheduler.ticks = born + cast.ticks
  reported : ∀ report ∈ history.reports, ∀ outcome ∈ report.completed, outcome.id = id →
    report.tick = born + outcome.ticks

theorem Timed.cast
    (timed : Timed id born history)
    (context : Context κ) :
    Timed id born (history.cast context) where
  ticks := timed.ticks
  given := Nat.lt_succ_of_lt timed.given
  inFlight cast member same := by
    rcases List.mem_append.mp member with old | new
    · exact timed.inFlight cast old same
    · rw [List.mem_singleton.mp new] at same
      exact absurd same (Nat.ne_of_gt timed.given)
  reported := timed.reported

theorem Timed.tick
    (timed : Timed id born history)
    (owns : history.Owns) :
    Timed id born (history.tick behaviour) := by
  have later := Scheduler.tick_later behaviour owns history.realm
  refine ⟨?_, timed.given, ?_, ?_⟩
  · change history.scheduler.ticks + 1 = (history.reports ++ [_]).length
    rw [List.length_append, List.length_singleton, timed.ticks]
  · intro cast member same
    obtain ⟨before, beforeMember, sameId, ticked⟩ := later.1 cast member
    have started := timed.inFlight before beforeMember (sameId.trans same)
    change history.scheduler.ticks + 1 = _
    omega
  · intro report listed outcome completed same
    rcases List.mem_append.mp listed with old | new
    · exact timed.reported report old outcome completed same
    · rw [List.mem_singleton.mp new] at completed ⊢
      obtain ⟨before, beforeMember, sameId, ticked⟩ := later.2 outcome completed
      have started := timed.inFlight before beforeMember (sameId.trans same)
      change history.scheduler.ticks + 1 = _
      omega

theorem Timed.interrupted
    {scheduler : Scheduler κ}
    (timed : Timed id born history)
    (realm : Realm)
    (unchanged : ∃ arena, scheduler = { history.scheduler with arena }) :
    Timed id born { history with scheduler, realm } := by
  obtain ⟨arena, rfl⟩ := unchanged
  exact ⟨timed.ticks, timed.given, timed.inFlight, timed.reported⟩

theorem timed_stable (behaviour : Behaviour κ) (rules : Rules κ) (id : CastId) (born : Nat) :
    Stable rules behaviour fun history => history.Owns ∧ Timed id born history where
  cast history context holds :=
    ⟨(owns_stable behaviour rules).cast history context holds.1, holds.2.cast context⟩
  tick history holds := ⟨(owns_stable behaviour rules).tick history holds.1, holds.2.tick holds.1⟩
  cancel history other reason allowed holds :=
    ⟨(owns_stable behaviour rules).cancel history other reason allowed holds.1,
      holds.2.interrupted _ (Scheduler.cancelCast_arena behaviour history.scheduler other reason history.realm)⟩
  terminate history other allowed holds :=
    ⟨(owns_stable behaviour rules).terminate history other allowed holds.1,
      holds.2.interrupted _ (Scheduler.terminateCast_arena history.scheduler other history.realm)⟩
  outside history realm holds := ⟨holds.1, holds.2.interrupted realm ⟨history.scheduler.arena, rfl⟩⟩

/-- A cast is timed from its registration on. -/
theorem timed_of_cast
    (accounts : history.Accounts)
    (balanced : history.Balanced)
    (context : Context κ) :
    Timed history.scheduler.nextCast history.reports.length (history.cast context) where
  ticks := balanced.ticks
  given := Nat.lt_succ_self _
  inFlight cast member same := by
    rcases List.mem_append.mp member with old | new
    · have registered := accounts.inFlight.subset (List.mem_map_of_mem old)
      exact absurd same (Nat.ne_of_lt (accounts.given _ registered))
    · rw [List.mem_singleton.mp new]
      exact balanced.ticks
  reported report listed outcome completed same := by
    have registered := (accounts.reported report listed).subset (List.mem_map_of_mem completed)
    exact absurd same (Nat.ne_of_lt (accounts.given _ registered))

end History

/-- On the way to a history a registration has answered this number, and so many ticks had run by then. -/
def RegisteredAfter (rules : Rules κ) (behaviour : Behaviour κ) (origin history : History κ) (id : CastId)
    (ticks : Nat) : Prop :=
  ∃ earlier context, Reaches rules behaviour origin earlier ∧ rules.calls (.cast context) ∧
    Reaches rules behaviour (earlier.cast context) history ∧
    (earlier.scheduler.cast context earlier.realm).1 = id ∧ earlier.reports.length = ticks

section Registrations

variable {rules : Rules κ} {origin history later : History κ} {id : CastId}

theorem RegisteredAfter.further
    {ticks : Nat}
    (registration : RegisteredAfter rules behaviour origin history id ticks)
    (reached : Reaches rules behaviour history later) :
    RegisteredAfter rules behaviour origin later id ticks := by
  obtain ⟨earlier, context, before, allowed, between, answered⟩ := registration
  exact ⟨earlier, context, before, allowed, between.trans reached, answered⟩

theorem Reaches.exists_registeredAfter
    (reached : Reaches rules behaviour origin history)
    (nothing : origin.registered = [])
    (registered : id ∈ history.registered) :
    ∃ ticks, RegisteredAfter rules behaviour origin history id ticks := by
  induction reached with
  | origin =>
      rw [nothing] at registered
      exact absurd registered List.not_mem_nil
  | outside realm before allowed inductionHypothesis =>
      obtain ⟨ticks, registration⟩ := inductionHypothesis registered
      exact ⟨ticks, registration.further (.outside realm .origin allowed)⟩
  | @call history call before allowed inductionHypothesis =>
      have further : Reaches rules behaviour history (history.perform behaviour call) :=
        .call call .origin allowed
      have old (member : id ∈ history.registered) :
          ∃ ticks, RegisteredAfter rules behaviour origin (history.perform behaviour call) id ticks := by
        obtain ⟨ticks, registration⟩ := inductionHypothesis member
        exact ⟨ticks, registration.further further⟩
      cases call with
      | cast context =>
          rcases List.mem_append.mp registered with earlier | new
          · exact old earlier
          · exact ⟨_, history, context, before, allowed, .origin, (List.mem_singleton.mp new).symm, rfl⟩
      | tick =>
          exact old registered
      | runUntilIdle limit =>
          have lasts (later : History κ) (same : later.registered = history.registered) :
              (later.tick behaviour).registered = history.registered := same
          have same : (history.runUntilIdle behaviour limit).registered = history.registered :=
            History.runUntilIdle_lasts lasts limit rfl
          exact old (same ▸ registered)
      | cancel id reason =>
          exact old registered
      | terminate id =>
          exact old registered

end Registrations

section Reached

variable {rules : Rules κ} {scheduler : Scheduler κ} {realm : Realm} {history : History κ}

theorem Reaches.balanced
    (made : scheduler.Made)
    (reached : Reaches rules behaviour (.start scheduler realm) history) :
    history.Balanced := by
  obtain ⟨owns, nothing⟩ := made.owns
  have owned : (History.start scheduler realm).Owns := owns
  have initially : (History.start scheduler realm).Balanced := by
    obtain ⟨unused, unticked⟩ := made.unused
    refine ⟨rfl, ?_, ?_, unused, unticked, ?_⟩
    · simp [History.start, History.stepsReported, History.completed, stepsOf, nothing]
    · simp [History.start, History.forksReported, History.completed, forksOf, nothing]
    · intro index report found
      simp [History.start] at found
  exact ((History.balanced_stable behaviour rules).reaches ⟨owned, initially⟩ reached).2

/-- The instructions that the reports count are those that were executed and those of the outcomes and of the casts in
flight, and likewise the forks, each of which has put one child in the arena beside the contexts that were registered.
A tick reports its number and how many of the registered casts are not completed, and the ticks of an outcome are
those since its registration. -/
theorem accountsAreConserved
    (made : scheduler.Made)
    (reached : Reaches rules behaviour (.start scheduler realm) history) :
    let stepsReported := (history.reports.map (·.steps)).sum
    let forksReported := (history.reports.map (·.forks)).sum
    let (report, _, _) := history.scheduler.tick behaviour history.realm
    stepsReported = history.executed.length ∧
    stepsReported = (history.completed.map (·.steps)).sum + (history.scheduler.casts.map (·.steps)).sum ∧
    forksReported = (history.completed.map (·.forks)).sum + (history.scheduler.casts.map (·.forks)).sum ∧
    history.scheduler.arena.nextId = history.registered.length + forksReported ∧
    (∀ index report, history.reports[index]? = some report → report.tick = index + 1) ∧
    report.inFlight + (history.completed ++ report.completed).length = history.registered.length ∧
    ∀ report ∈ history.reports, ∀ outcome ∈ report.completed,
      (∃ ticks, RegisteredAfter rules behaviour (.start scheduler realm) history outcome.id ticks) ∧
      ∀ ticks, RegisteredAfter rules behaviour (.start scheduler realm) history outcome.id ticks →
        report.tick = ticks + outcome.ticks := by
  have balanced := reached.balanced made
  have accounts := reached.accounts made
  refine ⟨balanced.executed, balanced.steps.trans (Nat.add_comm _ _), balanced.forks.trans (Nat.add_comm _ _),
    balanced.contexts, balanced.numbers, ?_, ?_⟩
  · have ticked : (history.tick behaviour).Accounts := accounts.tick (reached.owns made)
    have divided := ticked.divided.length_eq
    rw [List.length_append, History.completedIds_eq, List.length_map, Scheduler.castIds, List.length_map] at divided
    rw [History.completed_tick] at divided
    exact divided
  · intro report listed outcome reported
    have registered : outcome.id ∈ history.registered :=
      (accounts.reported report listed).subset (List.mem_map_of_mem reported)
    refine ⟨reached.exists_registeredAfter rfl registered, ?_⟩
    rintro ticks ⟨earlier, context, before, -, between, answered, rfl⟩
    have owns : (earlier.cast context).Owns := Scheduler.cast_owns (before.owns made) context earlier.realm
    have timed := History.timed_of_cast (before.accounts made) (before.balanced made) context
    have stillTimed := ((History.timed_stable behaviour rules _ _).reaches ⟨owns, timed⟩ between).2
    exact stillTimed.reported report listed outcome reported answered.symm

end Reached

/-- A cast that waits, and a shorter one that is registered a tick later and completes first. -/
theorem accountsAreConserved_overDelay :
    let delay : Instruction Glyph := .plain Glyph.marksId ⟨0, .delay 2⟩
    let mark : Instruction Glyph := .plain Glyph.marksId ⟨1, .mark Glyph.marksId⟩
    let fresh : History Glyph := .start .empty .empty
    let begun := (fresh.cast (.ofProgram (.ofInstructions [delay, mark]))).tick Glyph.behaviour
    let history := (begun.cast (.ofProgram (.ofInstructions [mark]))).tick Glyph.behaviour
    Scheduler.Made fresh.scheduler ∧
      Reaches ⟨fun _ => True, fun _ _ => True⟩ Glyph.behaviour fresh history ∧
      history.reports.map (·.steps) = [1, 1] ∧ history.completed.map (·.steps) = [1] ∧
      history.scheduler.casts.map (·.steps) = [1] ∧ history.scheduler.arena.nextId = 3 ∧
      (history.reports.map (·.steps)).sum =
        (history.completed.map (·.steps)).sum + (history.scheduler.casts.map (·.steps)).sum := by
  intro delay mark fresh begun history
  have reached : Reaches ⟨fun _ => True, fun _ _ => True⟩ Glyph.behaviour fresh history :=
    .call .tick (.call (.cast _) (.call .tick (.call (.cast _) .origin trivial) trivial) trivial) trivial
  exact ⟨.empty, reached, by decide, by decide, by decide, by decide, (accountsAreConserved .empty reached).2.1⟩

end Spellcast
