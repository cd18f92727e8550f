import Spellcast.Proofs.Arena
import Spellcast.Scheduler

/-!
# What a step of a cast can do

`Turn.step_cases` lists everything that one step can do, with the state it leads to. Invariants of turns, ticks
and histories are all derived from this list.
-/

namespace Spellcast

variable {κ : Type} {behaviour : Behaviour κ}

namespace Context

variable {context : Context κ} {instruction : Instruction κ}

theorem hasNext_iff :
    context.hasNext = true ↔
      context.canceled = false ∧ context.isSuspended = false ∧
        context.counter < context.program.length := by
  have nonempty :
      context.counter < context.program.length → context.program.isEmpty = false := by
    intro inside
    cases listed : context.program.instructions with
    | nil =>
        simp [Program.length, listed] at inside
    | cons head tail =>
        simp [Program.isEmpty, listed]
  simp only [hasNext, Bool.and_eq_true, Bool.not_eq_true', decide_eq_true_eq]
  constructor
  · rintro ⟨⟨⟨_, running⟩, awake⟩, inside⟩
    exact ⟨running, awake, inside⟩
  · rintro ⟨running, awake, inside⟩
    exact ⟨⟨⟨nonempty inside, running⟩, awake⟩, inside⟩

theorem exists_get?_of_hasNext
    (next : context.hasNext = true) :
    ∃ instruction, context.program.get? context.counter = some instruction := by
  have inside := (hasNext_iff.mp next).2.2
  exact ⟨_, List.getElem?_eq_getElem inside⟩

theorem isSuspended_of_none
    (awake : context.suspension = none) :
    context.isSuspended = false := by
  simp [isSuspended, awake]

def stepped (context : Context κ) : Context κ := { context with counter := context.counter + 1 }

theorem advance_eq
    (found : context.program.get? context.counter = some instruction)
    (realm : Realm) :
    context.advance realm = (some instruction, context.stepped, realm) := by
  simp [advance, found, stepped]

/-- What every observer keeps, the whole walk over them keeps. -/
theorem walk_lasts
    {instructions : List (Instruction κ)}
    {property : Context κ → Realm → Prop}
    (kept : ∀ instruction ∈ instructions, ∀ observer, instruction.observer = some observer →
      ∀ told realm, property told realm →
        property (behaviour.notify observer told realm).2.1 (behaviour.notify observer told realm).2.2)
    (state : Walk κ)
    (holds : property state.context state.realm) :
    property (walk behaviour instructions state).context (walk behaviour instructions state).realm := by
  induction instructions generalizing state with
  | nil =>
      exact holds
  | cons instruction rest inductionHypothesis =>
      have later := inductionHypothesis fun other member => kept other (List.mem_cons_of_mem _ member)
      cases observes : instruction.observer with
      | none =>
          rw [walk, observes]
          exact later state holds
      | some observer =>
          have told := kept instruction List.mem_cons_self observer observes state.context state.realm holds
          rcases answer : behaviour.notify observer state.context state.realm with ⟨goesOn, after, realm⟩
          rw [answer] at told
          cases goesOn with
          | false =>
              simpa [walk, observes, answer] using told
          | true =>
              rw [walk, observes]
              simp only [answer, if_true]
              exact later _ told

end Context

def InFlight.moved (cast : InFlight) (child : ContextId) : InFlight :=
  { cast with active := child, contexts := cast.contexts ++ [child], forks := cast.forks + 1 }

namespace Turn

variable {maxForks : Nat} {turn : Turn κ} {context after : Context κ} {instruction : Instruction κ} {realm : Realm}

/-- The realm in which an instruction runs: the run has been logged. -/
def castingRealm (behaviour : Behaviour κ) (turn : Turn κ) (instruction : Instruction κ) : Realm :=
  turn.realm.emit (.casting instruction.id.text (behaviour.effectName instruction.effect.code))

/-- The turn after an instruction has left the active context and the realm like this. -/
def ran (turn : Turn κ) (after : Context κ) (realm : Realm) : Turn κ :=
  { turn with arena := turn.arena.set turn.cast.active after, realm, steps := turn.steps + 1 }

/-- The turn after its active context was stopped because there are no forks left. -/
def stoppedAtLimit (maxForks : Nat) (turn : Turn κ) (context : Context κ) : Turn κ :=
  { turn with
    arena := turn.arena.set turn.cast.active context.stopped
    realm := (context.terminate (turn.realm.emit (.forkLimitExceeded turn.cast.id maxForks))).2 }

/-- The child that the active context makes, and the realm after it was made. -/
def madeChild (behaviour : Behaviour κ) (turn : Turn κ) (context : Context κ) : Context κ × Realm :=
  let made := context.makeChild behaviour turn.cast.active turn.realm
  (made.1.context, made.2)

def movedOn (behaviour : Behaviour κ) (turn : Turn κ) (context : Context κ) : Turn κ :=
  let parent := turn.cast.active
  let child := turn.arena.nextId
  let made := turn.madeChild behaviour context
  let stored := (turn.arena.insert made.1).2
  let cast := turn.cast.moved child
  let logged := made.2.emit
    (.contextForked parent child (stored.depth child) made.1.program.length)
  let forked := Event.castForked cast.id parent child cast.forks
  let canceled := context.cancel behaviour .newContext ((logged.enter forked.spanName).emit forked)
  { turn with
    cast, arena := stored.set parent canceled.1, realm := canceled.2.leave, forks := turn.forks + 1 }

theorem moveOn_eq
    (live : turn.arena.get? turn.cast.active = some context)
    (known : turn.cast.active ≠ turn.arena.nextId) :
    turn.moveOn behaviour = (turn.movedOn behaviour context, true) := by
  have stillLive :
      (turn.arena.insert (context.makeChild behaviour turn.cast.active turn.realm).1.context).2.get?
        turn.cast.active = some context := by
    rw [Arena.get?_insert_of_ne known, live]
  simp only [moveOn, Arena.fork_eq behaviour live, stillLive]
  rfl

/-- The next instruction may run, and this is what it answers: the active context is live and has a next
instruction, and its effect leaves the context and the realm like this. -/
structure Runs (behaviour : Behaviour κ) (turn : Turn κ) (context : Context κ) (instruction : Instruction κ)
    (resolution : Resolution) (after : Context κ) (realm : Realm) : Prop where
  live : turn.arena.get? turn.cast.active = some context
  next : context.hasNext = true
  found : context.program.get? context.counter = some instruction
  cast : behaviour.cast instruction.effect.code context.stepped (turn.castingRealm behaviour instruction) =
    (resolution, after, realm)

theorem step_of_exhausted
    (behaviour : Behaviour κ)
    (maxForks : Nat)
    (live : turn.arena.get? turn.cast.active = some context)
    (exhausted : context.hasNext = false) :
    turn.step behaviour maxForks = (turn, false) := by
  simp [step, live, exhausted]

theorem step_of_proceed
    (maxForks : Nat)
    (runs : turn.Runs behaviour context instruction .proceed after realm) :
    turn.step behaviour maxForks = (turn.ran after realm, true) := by
  have answer := runs.cast
  rw [castingRealm] at answer
  simp [step, runs.live, runs.next, Context.advance_eq runs.found, answer, ran]

theorem step_of_fork
    (runs : turn.Runs behaviour context instruction .fork after realm) :
    turn.step behaviour maxForks = (turn.ran after realm).grantFork behaviour maxForks after := by
  have answer := runs.cast
  rw [castingRealm] at answer
  simp [step, runs.live, runs.next, Context.advance_eq runs.found, answer, ran]

theorem ran_live
    (live : turn.arena.get? turn.cast.active = some context) :
    (turn.ran after realm).arena.get? (turn.ran after realm).cast.active = some after :=
  Arena.get?_set_self live

theorem step_of_fork_at_limit
    (runs : turn.Runs behaviour context instruction .fork after realm)
    (limit : maxForks ≤ turn.cast.forks) :
    turn.step behaviour maxForks = ((turn.ran after realm).stoppedAtLimit maxForks after, false) := by
  have reached : maxForks ≤ (turn.ran after realm).cast.forks := limit
  rw [step_of_fork runs, grantFork, if_pos reached]
  rfl

theorem step_of_fork_below_limit
    (runs : turn.Runs behaviour context instruction .fork after realm)
    (known : turn.cast.active ≠ turn.arena.nextId)
    (below : turn.cast.forks < maxForks) :
    turn.step behaviour maxForks = ((turn.ran after realm).movedOn behaviour after, true) := by
  have notReached : ¬ maxForks ≤ (turn.ran after realm).cast.forks :=
    Nat.not_le.mpr below
  rw [step_of_fork runs, grantFork, if_neg notReached]
  exact moveOn_eq (ran_live runs.live) known

/-- Everything that a step of a turn with a live active context can do. -/
inductive Step (behaviour : Behaviour κ) (maxForks : Nat) (turn : Turn κ) : Turn κ → Bool → Prop
  /-- There is nothing that may run. -/
  | exhausted {context : Context κ} :
      turn.arena.get? turn.cast.active = some context →
      context.hasNext = false →
      Step behaviour maxForks turn turn false
  /-- An instruction runs and the cast goes on in the same context. -/
  | proceed {context after : Context κ} {instruction : Instruction κ} {realm : Realm} :
      turn.Runs behaviour context instruction .proceed after realm →
      Step behaviour maxForks turn (turn.ran after realm) true
  /-- An instruction asks for a fork that is not granted. -/
  | limit {context after : Context κ} {instruction : Instruction κ} {realm : Realm} :
      turn.Runs behaviour context instruction .fork after realm →
      maxForks ≤ turn.cast.forks →
      Step behaviour maxForks turn ((turn.ran after realm).stoppedAtLimit maxForks after) false
  /-- An instruction asks for a fork and the cast moves on into a child. -/
  | fork {context after : Context κ} {instruction : Instruction κ} {realm : Realm} :
      turn.Runs behaviour context instruction .fork after realm →
      turn.cast.forks < maxForks →
      Step behaviour maxForks turn ((turn.ran after realm).movedOn behaviour after) true

theorem exists_runs
    (behaviour : Behaviour κ)
    (live : turn.arena.get? turn.cast.active = some context)
    (next : context.hasNext = true) :
    ∃ instruction resolution after realm,
      turn.Runs behaviour context instruction resolution after realm := by
  obtain ⟨instruction, found⟩ := Context.exists_get?_of_hasNext next
  exact ⟨instruction, _, _, _, live, next, found, rfl⟩

theorem step_cases
    (behaviour : Behaviour κ)
    (maxForks : Nat)
    (live : turn.arena.get? turn.cast.active = some context)
    (known : turn.cast.active ≠ turn.arena.nextId) :
    Step behaviour maxForks turn (turn.step behaviour maxForks).1 (turn.step behaviour maxForks).2 := by
  cases next : context.hasNext with
  | false =>
      rw [step_of_exhausted behaviour maxForks live next]
      exact .exhausted live next
  | true =>
      obtain ⟨instruction, resolution, after, realm, runs⟩ := exists_runs behaviour live next
      cases resolution with
      | proceed =>
          rw [step_of_proceed maxForks runs]
          exact .proceed runs
      | fork =>
          by_cases limit : maxForks ≤ turn.cast.forks
          · rw [step_of_fork_at_limit runs limit]
            exact .limit runs limit
          · have below := Nat.not_le.mp limit
            rw [step_of_fork_below_limit runs known below]
            exact .fork runs below

theorem run_of_stop
    {budget : Nat}
    {next : Turn κ}
    (stepped : turn.step behaviour maxForks = (next, false)) :
    turn.run behaviour maxForks (budget + 1) = next := by
  simp [run, stepped]

theorem run_of_go
    {budget : Nat}
    {next : Turn κ}
    (stepped : turn.step behaviour maxForks = (next, true)) :
    turn.run behaviour maxForks (budget + 1) = next.run behaviour maxForks budget := by
  simp [run, stepped]

def announced (turn : Turn κ) : Turn κ :=
  let stepping := Event.castStepping turn.cast.id turn.cast.active turn.cast.ticks
  { turn with realm := (turn.realm.enter stepping.spanName).emit stepping }

def waited (turn : Turn κ) (context : Context κ) (left : Int) : Turn κ :=
  { turn with
    arena := turn.arena.set turn.cast.active { context with suspension := some ⟨left⟩ }
    realm := turn.realm.emit (.castSuspended turn.cast.id left) }

def resumed (turn : Turn κ) (context : Context κ) : Turn κ :=
  { turn with
    arena := turn.arena.set turn.cast.active { context with suspension := none }
    realm := turn.realm.emit (.castResumed turn.cast.id context.counter) }

theorem wake_of_waiting
    {suspension : Suspension}
    (running : context.canceled = false)
    (suspended : context.suspension = some suspension)
    (long : 1 < suspension.remaining) :
    turn.wake context = (turn.waited context (suspension.remaining - 1), true) := by
  have pending : suspension.isPending = true := by
    simp only [Suspension.isPending, decide_eq_true_eq]
    omega
  have ticked : suspension.tick = ⟨suspension.remaining - 1⟩ := by
    simp only [Suspension.tick, Suspension.least, Suspension.mk.injEq]
    omega
  have stillPending : (⟨suspension.remaining - 1⟩ : Suspension).isPending = true := by
    simp only [Suspension.isPending, decide_eq_true_eq]
    omega
  simp [wake, running, suspended, pending, ticked, stillPending, waited]

theorem wake_of_due
    {suspension : Suspension}
    (running : context.canceled = false)
    (suspended : context.suspension = some suspension)
    (due : suspension.remaining ≤ 1) :
    turn.wake context = (turn.resumed context, false) := by
  have ended :
      (if suspension.isPending then suspension.tick else suspension).isPending = false := by
    by_cases pending : 0 < suspension.remaining
    · have ticked : suspension.tick = ⟨0⟩ := by
        simp only [Suspension.tick, Suspension.least, Suspension.mk.injEq]
        omega
      simp [Suspension.isPending, pending, ticked]
    · simp [Suspension.isPending, pending]
  simp [wake, running, suspended, ended, resumed]

/-- Everything that waking up can do. -/
inductive Wake (turn : Turn κ) (context : Context κ) : Turn κ → Bool → Prop
  /-- Nothing holds the context back, or it will not run anyway. -/
  | awake :
      context.canceled = true ∨ context.suspension = none →
      Wake turn context turn false
  /-- The cast waits for another tick. -/
  | waits {suspension : Suspension} :
      context.canceled = false →
      context.suspension = some suspension →
      1 < suspension.remaining →
      Wake turn context (turn.waited context (suspension.remaining - 1)) true
  /-- The suspension is over. -/
  | resumes {suspension : Suspension} :
      context.canceled = false →
      context.suspension = some suspension →
      suspension.remaining ≤ 1 →
      Wake turn context (turn.resumed context) false

theorem wake_cases (turn : Turn κ) (context : Context κ) :
    Wake turn context (turn.wake context).1 (turn.wake context).2 := by
  cases running : context.canceled with
  | true =>
      have unchanged : turn.wake context = (turn, false) := by
        simp [wake, running]
      rw [unchanged]
      exact .awake (.inl running)
  | false =>
      cases suspended : context.suspension with
      | none =>
          have unchanged : turn.wake context = (turn, false) := by
            simp [wake, running, suspended]
          rw [unchanged]
          exact .awake (.inr suspended)
      | some suspension =>
          by_cases long : 1 < suspension.remaining
          · rw [wake_of_waiting running suspended long]
            exact .waits running suspended long
          · have due : suspension.remaining ≤ 1 := Int.not_lt.mp long
            rw [wake_of_due running suspended due]
            exact .resumes running suspended due

theorem verdict_of_canceled
    (live : turn.arena.get? turn.cast.active = some context)
    (canceled : context.canceled = true) :
    turn.verdict = .finished := by
  simp [verdict, live, canceled]

theorem verdict_of_exhausted
    (live : turn.arena.get? turn.cast.active = some context)
    (exhausted : context.hasNext = false)
    (awake : context.isSuspended = false) :
    turn.verdict = .finished := by
  simp [verdict, live, exhausted, awake]

theorem verdict_of_more
    (live : turn.arena.get? turn.cast.active = some context)
    (running : context.canceled = false)
    (more : context.hasNext = true ∨ context.isSuspended = true) :
    turn.verdict = .running := by
  have goesOn : (context.hasNext || context.isSuspended) = true := by
    simpa using more
  simp [verdict, live, running, goesOn]

def counted (turn : Turn κ) : Turn κ :=
  { turn with cast := { turn.cast with steps := turn.cast.steps + turn.steps } }

def left (turn : Turn κ) : Turn κ := { turn with realm := turn.realm.leave }

theorem take_of_waits
    {maxSteps : Nat}
    {woken : Turn κ}
    (live : turn.arena.get? turn.cast.active = some context)
    (woke : turn.announced.wake context = (woken, true)) :
    turn.take behaviour maxSteps maxForks = (woken.left, .running) := by
  simp only [announced] at woke
  simp only [take, live, woke]
  rfl

theorem take_of_wakes
    {maxSteps : Nat}
    {woken : Turn κ}
    (live : turn.arena.get? turn.cast.active = some context)
    (woke : turn.announced.wake context = (woken, false)) :
    turn.take behaviour maxSteps maxForks =
      ((woken.run behaviour maxForks maxSteps).counted.left,
        (woken.run behaviour maxForks maxSteps).verdict) := by
  simp only [announced] at woke
  simp only [take, live, woke]
  rfl

end Turn

end Spellcast
