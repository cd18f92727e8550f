import Spellcast.Arena

/-!
# The scheduler

Casts in flight, advanced tick by tick. Each cast has one active context. In its turn a cast counts down a
pending suspension and waits, or runs a bounded number of instructions, moving on into a child whenever one of
them asks for a fork. A cast whose active context is canceled, or has nothing left to run and does not wait, is
completed and all its contexts are released.
-/

namespace Spellcast

abbrev CastId := Nat

def CastId.name (id : CastId) : String := s!"cast-{id}"

/-- A cast in flight: its active context and all its contexts, the root first. -/
structure InFlight where
  id : CastId
  active : ContextId
  contexts : List ContextId
  steps : Nat
  forks : Nat
  ticks : Nat
deriving DecidableEq

/-- What became of a cast. -/
structure Outcome (κ : Type) where
  id : CastId
  steps : Nat
  forks : Nat
  ticks : Nat
  /-- Why the last context was canceled, if it was. -/
  cancelReason : Option CancelReason
  /-- The last context as it was before it was released. -/
  finalContext : Option (Context κ)

/-- What happened in a tick. -/
structure TickReport (κ : Type) where
  tick : Nat
  steps : Nat
  forks : Nat
  completed : List (Outcome κ)
  inFlight : Nat

/-- The casts in flight, in the order they were registered, and the limits they run under. -/
structure Scheduler (κ : Type) where
  arena : Arena κ
  casts : List InFlight
  nextCast : CastId
  ticks : Nat
  maxSteps : Nat
  maxForks : Nat
  tickInterval : Nat

/-- A cast in its turn, with the arena and the realm as they are at the moment, and what has been counted in
the turn so far. -/
structure Turn (κ : Type) where
  cast : InFlight
  arena : Arena κ
  realm : Realm
  steps : Nat
  forks : Nat

namespace Turn

variable {κ : Type}

/-- Whether a cast has another turn. -/
inductive Verdict where
  | running
  | finished
deriving DecidableEq

/-- Moves the cast on into a child of its active context, and cancels that context. Answers whether that was
possible. -/
def moveOn (behaviour : Behaviour κ) (turn : Turn κ) : Turn κ × Bool :=
  let parent := turn.cast.active
  match turn.arena.fork behaviour parent turn.realm with
  | none => (turn, false)
  | some (fork, arena, realm) =>
    let cast :=
      { turn.cast with
        active := fork.child, contexts := turn.cast.contexts ++ [fork.child], forks := turn.cast.forks + 1 }
    let forked := Event.castForked cast.id parent fork.child cast.forks
    let realm := (realm.enter forked.spanName).emit forked
    let (arena, realm) := match arena.get? parent with
      | some context =>
        let (context, realm) := context.cancel behaviour .newContext realm
        (arena.set parent context, realm)
      | none => (arena, realm)
    ({ turn with cast, arena, realm := realm.leave, forks := turn.forks + 1 }, true)

/-- Answers the wish of an instruction to fork: below the limit the cast moves on, at the limit it is stopped.
Answers whether the turn goes on. -/
def grantFork (behaviour : Behaviour κ) (maxForks : Nat) (context : Context κ) (turn : Turn κ) :
    Turn κ × Bool :=
  if maxForks ≤ turn.cast.forks then
    let realm := turn.realm.emit (.forkLimitExceeded turn.cast.id maxForks)
    let (context, realm) := context.terminate realm
    ({ turn with arena := turn.arena.set turn.cast.active context, realm }, false)
  else turn.moveOn behaviour

/-- Runs one instruction of the active context, if there is one that may run. Answers whether the turn goes
on. -/
def step (behaviour : Behaviour κ) (maxForks : Nat) (turn : Turn κ) : Turn κ × Bool :=
  match turn.arena.get? turn.cast.active with
  | none => (turn, false)
  | some context =>
    if context.hasNext then
      match context.advance turn.realm with
      | (none, context, realm) =>
        ({ turn with arena := turn.arena.set turn.cast.active context, realm }, false)
      | (some instruction, context, realm) =>
        let code := instruction.effect.code
        let realm := realm.emit (.casting instruction.id.text (behaviour.effectName code))
        let (resolution, context, realm) := behaviour.cast code context realm
        let turn :=
          { turn with arena := turn.arena.set turn.cast.active context, realm, steps := turn.steps + 1 }
        match resolution with
        | .proceed => (turn, true)
        | .fork => turn.grantFork behaviour maxForks context
    else (turn, false)

/-- Runs instructions as long as the turn goes on, at most so many. -/
def run (behaviour : Behaviour κ) (maxForks : Nat) : Nat → Turn κ → Turn κ
  | 0, turn => turn
  | budget + 1, turn =>
    match turn.step behaviour maxForks with
    | (turn, true) => run behaviour maxForks budget turn
    | (turn, false) => turn

/-- The cast has another turn unless its active context is canceled, or has nothing left to run and does not
wait. -/
def verdict (turn : Turn κ) : Verdict :=
  match turn.arena.get? turn.cast.active with
  | none => .finished
  | some context =>
    if context.canceled then .finished
    else if context.hasNext || context.isSuspended then .running
    else .finished

/-- Deals with the suspension of the active context at the start of the turn: a pending one is counted down,
and one that is over is taken away. Answers whether the cast still has to wait. -/
def wake (turn : Turn κ) (context : Context κ) : Turn κ × Bool :=
  if context.canceled then (turn, false)
  else
    match context.suspension with
    | none => (turn, false)
    | some suspension =>
      let left := if suspension.isPending then suspension.tick else suspension
      if left.isPending then
        ({ turn with
            arena := turn.arena.set turn.cast.active { context with suspension := some left }
            realm := turn.realm.emit (.castSuspended turn.cast.id left.remaining) }, true)
      else
        ({ turn with
            arena := turn.arena.set turn.cast.active { context with suspension := none }
            realm := turn.realm.emit (.castResumed turn.cast.id context.counter) }, false)

/-- The whole turn of a cast. -/
def take (behaviour : Behaviour κ) (maxSteps maxForks : Nat) (turn : Turn κ) : Turn κ × Verdict :=
  let stepping := Event.castStepping turn.cast.id turn.cast.active turn.cast.ticks
  let turn := { turn with realm := (turn.realm.enter stepping.spanName).emit stepping }
  let (turn, verdict) := match turn.arena.get? turn.cast.active with
    | none => (turn, Verdict.finished)
    | some context =>
      match turn.wake context with
      | (turn, true) => (turn, .running)
      | (turn, false) =>
        let turn := turn.run behaviour maxForks maxSteps
        let turn := { turn with cast := { turn.cast with steps := turn.cast.steps + turn.steps } }
        (turn, turn.verdict)
  ({ turn with realm := turn.realm.leave }, verdict)

end Turn

namespace Scheduler

variable {κ : Type}

/-- A scheduler with nothing to do and the default limits. -/
def empty : Scheduler κ :=
  { arena := .empty, casts := [], nextCast := 1, ticks := 0, maxSteps := Config.defaultStepsPerTick
    maxForks := Config.defaultForksPerCast, tickInterval := Config.defaultTickInterval }

/-- The same scheduler with another limit of instructions per tick. Zero is raised to one, so that every cast
can make progress. -/
def withMaxSteps (scheduler : Scheduler κ) (maxSteps : Nat) : Scheduler κ :=
  { scheduler with maxSteps := max maxSteps 1 }

def withMaxForks (scheduler : Scheduler κ) (maxForks : Nat) : Scheduler κ :=
  { scheduler with maxForks }

/-- A scheduler with nothing to do and the limits of a configuration. -/
def ofConfig (config : Config) : Scheduler κ :=
  let limited : Scheduler κ := (empty.withMaxSteps config.steps).withMaxForks config.forks
  { limited with arena := .withDepth config.depth, tickInterval := config.interval }

/-- The cast with a number, as long as it is in flight. -/
def find? (scheduler : Scheduler κ) (id : CastId) : Option InFlight :=
  scheduler.casts.find? (·.id == id)

def isIdle (scheduler : Scheduler κ) : Bool := scheduler.casts.isEmpty

def activeContext? (scheduler : Scheduler κ) (id : CastId) : Option ContextId :=
  (scheduler.find? id).map (·.active)

def context? (scheduler : Scheduler κ) (id : CastId) : Option (Context κ) :=
  (scheduler.activeContext? id).bind scheduler.arena.get?

/-- Registers a context as the root of a new cast. A parent that it names is forgotten. -/
def cast (scheduler : Scheduler κ) (context : Context κ) (realm : Realm) : CastId × Scheduler κ × Realm :=
  let id := scheduler.nextCast
  let started := Event.castStarted id context.program.describe (context.describeCaster realm.world)
  let realm := ((realm.enter started.spanName).emit started).leave
  let (root, arena) := scheduler.arena.insert { context with parent := none }
  let cast : InFlight := { id, active := root, contexts := [root], steps := 0, forks := 0, ticks := 0 }
  (id, { scheduler with arena, casts := scheduler.casts ++ [cast], nextCast := id + 1 }, realm)

/-- Cancels the active context of a cast and notifies its observers. The cast completes in the next tick.
Answers whether the context is canceled; a cast that is not in flight is none. -/
def cancelCast (behaviour : Behaviour κ) (scheduler : Scheduler κ) (id : CastId) (reason : CancelReason)
    (realm : Realm) : Bool × Scheduler κ × Realm :=
  match scheduler.activeContext? id with
  | none => (false, scheduler, realm)
  | some active =>
    match scheduler.arena.get? active with
    | none => (false, scheduler, realm)
    | some context =>
      let interrupted := Event.castInterrupted id reason.text true
      let realm := (realm.enter interrupted.spanName).emit interrupted
      let (context, realm) := context.cancel behaviour reason realm
      (context.canceled, { scheduler with arena := scheduler.arena.set active context }, realm.leave)

/-- Stops a cast without notifying anyone. Answers whether it was in flight. -/
def terminateCast (scheduler : Scheduler κ) (id : CastId) (realm : Realm) : Bool × Scheduler κ × Realm :=
  match scheduler.activeContext? id with
  | none => (false, scheduler, realm)
  | some active =>
    match scheduler.arena.get? active with
    | none => (false, scheduler, realm)
    | some context =>
      let interrupted := Event.castInterrupted id "external" false
      let realm := (realm.enter interrupted.spanName).emit interrupted
      let (context, realm) := context.terminate realm
      (true, { scheduler with arena := scheduler.arena.set active context }, realm.leave)

/-- The outcome of a cast that is finished. -/
def outcome (cast : InFlight) (final : Option (Context κ)) : Outcome κ :=
  { id := cast.id, steps := cast.steps, forks := cast.forks, ticks := cast.ticks
    cancelReason := (final.filter (·.canceled)).bind (·.cancelReason), finalContext := final }

/-- Ends a cast: its outcome is logged and its contexts are released. -/
def complete (cast : InFlight) (arena : Arena κ) (realm : Realm) : Outcome κ × Arena κ × Realm :=
  let result := outcome cast (arena.get? cast.active)
  let event := Event.castCompleted cast.id cast.steps cast.forks cast.ticks
    (result.cancelReason.map CancelReason.text)
  (result, arena.release cast.contexts, realm.emit event)

/-- A tick under way: the casts that stay in flight, what has been counted, and the outcomes so far. -/
structure Round (κ : Type) where
  staying : List InFlight
  arena : Arena κ
  realm : Realm
  steps : Nat
  forks : Nat
  completed : List (Outcome κ)

/-- Gives one cast its turn. -/
def visit (behaviour : Behaviour κ) (maxSteps maxForks : Nat) (round : Round κ) (cast : InFlight) :
    Round κ :=
  let start : Turn κ :=
    { cast := { cast with ticks := cast.ticks + 1 }, arena := round.arena, realm := round.realm
      steps := 0, forks := 0 }
  match start.take behaviour maxSteps maxForks with
  | (turn, .running) =>
    { round with
      staying := round.staying ++ [turn.cast], arena := turn.arena, realm := turn.realm
      steps := round.steps + turn.steps, forks := round.forks + turn.forks }
  | (turn, .finished) =>
    let (outcome, arena, realm) := complete turn.cast turn.arena turn.realm
    { round with
      arena, realm, completed := round.completed ++ [outcome]
      steps := round.steps + turn.steps, forks := round.forks + turn.forks }

/-- Gives every cast in flight its turn, in the order they were registered. -/
def tick (behaviour : Behaviour κ) (scheduler : Scheduler κ) (realm : Realm) :
    TickReport κ × Scheduler κ × Realm :=
  let number := scheduler.ticks + 1
  let start : Round κ :=
    { staying := [], arena := scheduler.arena, realm, steps := 0, forks := 0, completed := [] }
  let round := scheduler.casts.foldl (visit behaviour scheduler.maxSteps scheduler.maxForks) start
  let report : TickReport κ :=
    { tick := number, steps := round.steps, forks := round.forks, completed := round.completed
      inFlight := round.staying.length }
  let event := Event.tickCompleted number report.steps report.completed.length report.inFlight
  (report, { scheduler with arena := round.arena, casts := round.staying, ticks := number },
    round.realm.emit event)

/-- Ticks until nothing is in flight, at most so often. Answers the number of ticks. -/
def runUntilIdle (behaviour : Behaviour κ) : Nat → Scheduler κ → Realm → Nat × Scheduler κ × Realm
  | 0, scheduler, realm => (0, scheduler, realm)
  | limit + 1, scheduler, realm =>
    if scheduler.isIdle then (0, scheduler, realm)
    else
      let (_, scheduler, realm) := scheduler.tick behaviour realm
      let (ticks, scheduler, realm) := runUntilIdle behaviour limit scheduler realm
      (ticks + 1, scheduler, realm)

/-- How many forks the casts in flight may still make. -/
def forksLeft (scheduler : Scheduler κ) : Nat :=
  (scheduler.casts.map fun cast => scheduler.maxForks - cast.forks).foldr (· + ·) 0

/-- How much a cast has left to do before it forks: a turn, its remaining instructions and its wait. -/
def workLeft (scheduler : Scheduler κ) (cast : InFlight) : Nat :=
  match scheduler.arena.get? cast.active with
  | none => 1
  | some context =>
    1 + (context.program.length - context.counter) +
      (context.suspension.map fun suspension => suspension.remaining.toNat).getD 0

/-- How far the scheduler is from being idle, as long as instructions only move forward. -/
def distance (scheduler : Scheduler κ) : Nat × Nat :=
  (scheduler.forksLeft, (scheduler.casts.map scheduler.workLeft).foldr (· + ·) 0)

/-- One distance is shorter than another: fewer forks, or as many forks and less work. -/
def Nearer (first second : Nat × Nat) : Prop :=
  first.1 < second.1 ∨ (first.1 = second.1 ∧ first.2 < second.2)

instance (first second : Nat × Nat) : Decidable (Nearer first second) :=
  inferInstanceAs (Decidable (_ ∨ _))

/-- Ticks until nothing is in flight. A tick that does not bring the scheduler nearer to that uses up
patience. Answers the outcomes in the order of completion. -/
def drive (behaviour : Behaviour κ) (patience : Nat) (scheduler : Scheduler κ) (realm : Realm) :
    List (Outcome κ) × Scheduler κ × Realm :=
  if scheduler.isIdle then ([], scheduler, realm)
  else
    let (report, next, realm) := scheduler.tick behaviour realm
    if Nearer next.distance scheduler.distance then
      let (outcomes, final, realm) := drive behaviour patience next realm
      (report.completed ++ outcomes, final, realm)
    else
      match patience with
      | 0 => (report.completed, next, realm)
      | patience + 1 =>
        let (outcomes, final, realm) := drive behaviour patience next realm
        (report.completed ++ outcomes, final, realm)
termination_by (patience, scheduler.distance.1, scheduler.distance.2)
decreasing_by
  · apply Prod.Lex.right
    rename_i nearer
    rcases nearer with fewer | ⟨equal, less⟩
    · exact Prod.Lex.left _ _ fewer
    · rw [equal]
      exact Prod.Lex.right _ less
  · exact Prod.Lex.left _ _ (Nat.lt_succ_self _)

def describe (scheduler : Scheduler κ) : String :=
  s!"SpellScheduler \x7b in_flight: {scheduler.casts.length}, ticks: {scheduler.ticks}, " ++
    s!"arena: {scheduler.arena.describe}, max_steps_per_tick: {scheduler.maxSteps}, " ++
    s!"max_forks_per_cast: {scheduler.maxForks} \x7d"

end Scheduler

end Spellcast
