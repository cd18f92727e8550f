import Spellcast.Proofs.Turn

/-!
# Histories of a scheduler

A history is what a scheduler has gone through: the casts registered with it, the reports of its ticks and the
instructions that were run. `History.perform` makes one call, and `Reaches` closes histories under calls and under
changes of the realm by others between calls. `executed` names the instructions that a tick runs, by the recursion
of the tick itself.
-/

namespace Spellcast

variable {κ : Type}

namespace Turn

/-- The instruction that the next step runs, if it runs one. -/
def next? (turn : Turn κ) : Option (Instruction κ) :=
  (turn.arena.get? turn.cast.active).bind fun context =>
    if context.hasNext then context.program.get? context.counter else none

def executed (behaviour : Behaviour κ) (maxForks : Nat) : Nat → Turn κ → List (Instruction κ)
  | 0, _ => []
  | budget + 1, turn =>
    match turn.step behaviour maxForks with
    | (after, true) => turn.next?.toList ++ executed behaviour maxForks budget after
    | (_, false) => turn.next?.toList

def taken (behaviour : Behaviour κ) (maxSteps maxForks : Nat) (turn : Turn κ) : List (Instruction κ) :=
  match turn.arena.get? turn.cast.active with
  | none => []
  | some context =>
    match turn.announced.wake context with
    | (_, true) => []
    | (woken, false) => woken.executed behaviour maxForks maxSteps

section

variable {behaviour : Behaviour κ} {maxSteps maxForks : Nat} {turn woken : Turn κ} {context : Context κ}
  {instruction : Instruction κ}

theorem next?_eq
    (live : turn.arena.get? turn.cast.active = some context)
    (next : context.hasNext = true)
    (found : context.program.get? context.counter = some instruction) :
    turn.next? = some instruction := by
  simp [next?, live, next, found]

theorem executed_of_stop
    {budget : Nat}
    {after : Turn κ}
    (stepped : turn.step behaviour maxForks = (after, false)) :
    turn.executed behaviour maxForks (budget + 1) = turn.next?.toList := by
  simp [executed, stepped]

theorem executed_of_go
    {budget : Nat}
    {after : Turn κ}
    (stepped : turn.step behaviour maxForks = (after, true)) :
    turn.executed behaviour maxForks (budget + 1) =
      turn.next?.toList ++ after.executed behaviour maxForks budget := by
  simp [executed, stepped]

theorem run_of_exhausted
    (behaviour : Behaviour κ)
    (maxForks : Nat)
    (live : turn.arena.get? turn.cast.active = some context)
    (exhausted : context.hasNext = false)
    (budget : Nat) :
    turn.run behaviour maxForks budget = turn ∧ turn.executed behaviour maxForks budget = [] := by
  cases budget with
  | zero =>
      exact ⟨rfl, rfl⟩
  | succ budget =>
      have stepped := step_of_exhausted behaviour maxForks live exhausted
      refine ⟨run_of_stop stepped, ?_⟩
      rw [executed_of_stop stepped]
      simp [next?, live, exhausted]

theorem taken_of_waits
    (live : turn.arena.get? turn.cast.active = some context)
    (woke : turn.announced.wake context = (woken, true)) :
    turn.taken behaviour maxSteps maxForks = [] := by
  simp [taken, live, woke]

theorem taken_of_wakes
    (live : turn.arena.get? turn.cast.active = some context)
    (woke : turn.announced.wake context = (woken, false)) :
    turn.taken behaviour maxSteps maxForks = woken.executed behaviour maxForks maxSteps := by
  simp [taken, live, woke]

end

end Turn

namespace Scheduler

def opening (scheduler : Scheduler κ) (realm : Realm) : Round κ :=
  { staying := [], arena := scheduler.arena, realm, steps := 0, forks := 0, completed := [] }

def Round.turn (round : Round κ) (cast : InFlight) : Turn κ :=
  { cast := { cast with ticks := cast.ticks + 1 }, arena := round.arena, realm := round.realm
    steps := 0, forks := 0 }

def roundAfter (behaviour : Behaviour κ) (scheduler : Scheduler κ) (realm : Realm) (casts : List InFlight) :
    Round κ :=
  casts.foldl (visit behaviour scheduler.maxSteps scheduler.maxForks) (scheduler.opening realm)

/-- The instructions that some casts run from a round on, each with the number of its cast. -/
def executedFrom (behaviour : Behaviour κ) (maxSteps maxForks : Nat) :
    Round κ → List InFlight → List (CastId × Instruction κ)
  | _, [] => []
  | round, cast :: rest =>
    ((round.turn cast).taken behaviour maxSteps maxForks).map (cast.id, ·) ++
      executedFrom behaviour maxSteps maxForks (visit behaviour maxSteps maxForks round cast) rest

/-- The instructions that a tick runs, each with the number of its cast. -/
def executed (behaviour : Behaviour κ) (scheduler : Scheduler κ) (realm : Realm) :
    List (CastId × Instruction κ) :=
  executedFrom behaviour scheduler.maxSteps scheduler.maxForks (scheduler.opening realm) scheduler.casts

/-- A scheduler nobody has cast anything in: one of the ways to make a scheduler, and then any limits. -/
inductive Made : Scheduler κ → Prop
  | empty : Made .empty
  | ofConfig (config : Config) : Made (.ofConfig config)
  | withMaxSteps {scheduler : Scheduler κ} (maxSteps : Nat) :
      Made scheduler → Made (scheduler.withMaxSteps maxSteps)
  | withMaxForks {scheduler : Scheduler κ} (maxForks : Nat) :
      Made scheduler → Made (scheduler.withMaxForks maxForks)

end Scheduler

/-- A call that the owner of a scheduler can make. -/
inductive Call (κ : Type) where
  | cast (context : Context κ)
  | tick
  | runUntilIdle (limit : Nat)
  | cancel (id : CastId) (reason : CancelReason)
  | terminate (id : CastId)

def Call.Interrupts (id : CastId) : Call κ → Prop
  | cancel other _ => other = id
  | terminate other => other = id
  | _ => False

/-- What a scheduler has gone through so far, and the realm as it is now. -/
structure History (κ : Type) where
  scheduler : Scheduler κ
  realm : Realm
  /-- The numbers that registrations have answered, in order. -/
  registered : List CastId
  /-- The reports of all ticks, in order. -/
  reports : List (TickReport κ)
  /-- The instructions that were run, in order, each with the number of its cast. -/
  executed : List (CastId × Instruction κ)

namespace History

variable {behaviour : Behaviour κ}

/-- The history of a scheduler with which nothing has been done yet. -/
def start (scheduler : Scheduler κ) (realm : Realm) : History κ :=
  { scheduler, realm, registered := [], reports := [], executed := [] }

def completed (history : History κ) : List (Outcome κ) := history.reports.flatMap (·.completed)

def executedBy (history : History κ) (id : CastId) : List (Instruction κ) :=
  (history.executed.filter (·.1 == id)).map (·.2)

def cast (history : History κ) (context : Context κ) : History κ :=
  let (id, scheduler, realm) := history.scheduler.cast context history.realm
  { history with scheduler, realm, registered := history.registered ++ [id] }

def tick (behaviour : Behaviour κ) (history : History κ) : History κ :=
  let (report, scheduler, realm) := history.scheduler.tick behaviour history.realm
  { history with
    scheduler, realm, reports := history.reports ++ [report]
    executed := history.executed ++ history.scheduler.executed behaviour history.realm }

/-- The history after ticks until nothing is in flight, at most so many. -/
def runUntilIdle (behaviour : Behaviour κ) : Nat → History κ → History κ
  | 0, history => history
  | limit + 1, history =>
    if history.scheduler.isIdle then history else runUntilIdle behaviour limit (history.tick behaviour)

def cancel (behaviour : Behaviour κ) (history : History κ) (id : CastId) (reason : CancelReason) : History κ :=
  let (_, scheduler, realm) := history.scheduler.cancelCast behaviour id reason history.realm
  { history with scheduler, realm }

def terminate (history : History κ) (id : CastId) : History κ :=
  let (_, scheduler, realm) := history.scheduler.terminateCast id history.realm
  { history with scheduler, realm }

def perform (behaviour : Behaviour κ) (history : History κ) : Call κ → History κ
  | .cast context => history.cast context
  | .tick => history.tick behaviour
  | .runUntilIdle limit => history.runUntilIdle behaviour limit
  | .cancel id reason => history.cancel behaviour id reason
  | .terminate id => history.terminate id

/-- The recorded ticks are those of the scheduler's own `runUntilIdle`. -/
theorem runUntilIdle_eq
    (limit : Nat)
    (history : History κ) :
    let later := history.runUntilIdle behaviour limit
    let (ticks, scheduler, realm) := history.scheduler.runUntilIdle behaviour limit history.realm
    later.reports.length = history.reports.length + ticks ∧
      later.scheduler = scheduler ∧ later.realm = realm := by
  induction limit generalizing history with
  | zero =>
      exact ⟨rfl, rfl, rfl⟩
  | succ limit inductionHypothesis =>
      by_cases idle : history.scheduler.isIdle
      · simp [runUntilIdle, Scheduler.runUntilIdle, idle]
      · have later := inductionHypothesis (history.tick behaviour)
        simp only [tick, List.length_append, List.length_singleton] at later
        simp only [runUntilIdle, Scheduler.runUntilIdle, idle]
        obtain ⟨counted, sameScheduler, sameRealm⟩ := later
        refine ⟨?_, sameScheduler, sameRealm⟩
        simp only [tick, Bool.false_eq_true, if_false]
        omega

end History

/-- Who may do what: the calls that the owner makes, and how others change the realm between calls. -/
structure Rules (κ : Type) where
  calls : Call κ → Prop
  outside : Realm → Realm → Prop

def Rules.Spare (rules : Rules κ) (id : CastId) : Prop :=
  ∀ call, rules.calls call → ¬ call.Interrupts id

/-- The histories that a history can lead to under some rules. -/
inductive Reaches (rules : Rules κ) (behaviour : Behaviour κ) (origin : History κ) : History κ → Prop
  | origin : Reaches rules behaviour origin origin
  | call {history : History κ} (call : Call κ) :
      Reaches rules behaviour origin history →
      rules.calls call →
      Reaches rules behaviour origin (history.perform behaviour call)
  | outside {history : History κ} (realm : Realm) :
      Reaches rules behaviour origin history →
      rules.outside history.realm realm →
      Reaches rules behaviour origin { history with realm }

theorem Reaches.trans
    {rules : Rules κ}
    {behaviour : Behaviour κ}
    {origin history later : History κ}
    (earlier : Reaches rules behaviour origin history)
    (further : Reaches rules behaviour history later) :
    Reaches rules behaviour origin later := by
  induction further with
  | origin =>
      exact earlier
  | call call _ allowed inductionHypothesis =>
      exact inductionHypothesis.call call allowed
  | outside realm _ allowed inductionHypothesis =>
      exact inductionHypothesis.outside realm allowed

theorem Reaches.exists_later
    {rules : Rules κ}
    (allowed : rules.calls .tick)
    (behaviour : Behaviour κ)
    (history : History κ)
    (ticks : Nat) :
    ∃ later, Reaches rules behaviour history later ∧ later.scheduler.ticks = history.scheduler.ticks + ticks := by
  induction ticks with
  | zero =>
      exact ⟨history, .origin, rfl⟩
  | succ ticks inductionHypothesis =>
      obtain ⟨later, reached, counted⟩ := inductionHypothesis
      refine ⟨later.tick behaviour, reached.call .tick allowed, ?_⟩
      change later.scheduler.ticks + 1 = _
      rw [counted, Nat.add_assoc]

/-- What a tick keeps, ticks until nothing is in flight keep. -/
theorem History.runUntilIdle_lasts
    {behaviour : Behaviour κ}
    {property : History κ → Prop}
    {history : History κ}
    (tick : ∀ history, property history → property (history.tick behaviour))
    (limit : Nat)
    (holds : property history) :
    property (history.runUntilIdle behaviour limit) := by
  induction limit generalizing history with
  | zero =>
      exact holds
  | succ limit inductionHypothesis =>
      rw [History.runUntilIdle]
      split
      · exact holds
      · exact inductionHypothesis (tick history holds)

/-- What every allowed call and every allowed change of the realm keeps holds ever after. -/
theorem Reaches.obeys
    {rules : Rules κ}
    {behaviour : Behaviour κ}
    {origin history : History κ}
    (reached : Reaches rules behaviour origin history)
    (property : History κ → Prop)
    (initial : property origin)
    (cast : ∀ history context, rules.calls (.cast context) → property history → property (history.cast context))
    (tick : ∀ history, property history → property (history.tick behaviour))
    (cancel : ∀ history id reason,
      rules.calls (.cancel id reason) → property history → property (history.cancel behaviour id reason))
    (terminate : ∀ history id,
      rules.calls (.terminate id) → property history → property (history.terminate id))
    (outside : ∀ history realm,
      rules.outside history.realm realm → property history → property { history with realm }) :
    property history := by
  induction reached with
  | origin =>
      exact initial
  | outside realm _ allowed inductionHypothesis =>
      exact outside _ realm allowed inductionHypothesis
  | call call _ allowed inductionHypothesis =>
      cases call with
      | cast context =>
          exact cast _ context allowed inductionHypothesis
      | tick =>
          exact tick _ inductionHypothesis
      | runUntilIdle limit =>
          exact History.runUntilIdle_lasts tick limit inductionHypothesis
      | cancel id reason =>
          exact cancel _ id reason allowed inductionHypothesis
      | terminate id =>
          exact terminate _ id allowed inductionHypothesis

/-- What every allowed call and every change of the realm keeps holds ever after. -/
theorem Reaches.lasts
    {rules : Rules κ}
    {behaviour : Behaviour κ}
    {origin history : History κ}
    (reached : Reaches rules behaviour origin history)
    (property : History κ → Prop)
    (initial : property origin)
    (cast : ∀ history context, rules.calls (.cast context) → property history → property (history.cast context))
    (tick : ∀ history, property history → property (history.tick behaviour))
    (cancel : ∀ history id reason,
      rules.calls (.cancel id reason) → property history → property (history.cancel behaviour id reason))
    (terminate : ∀ history id,
      rules.calls (.terminate id) → property history → property (history.terminate id))
    (outside : ∀ history realm, property history → property { history with realm }) :
    property history :=
  reached.obeys property initial cast tick cancel terminate fun history realm _ holds => outside history realm holds

/-- A property of histories that no call and no change of the realm can end. -/
structure Stable (rules : Rules κ) (behaviour : Behaviour κ) (property : History κ → Prop) : Prop where
  cast : ∀ history context, property history → property (history.cast context)
  tick : ∀ history, property history → property (history.tick behaviour)
  cancel : ∀ history id reason,
    rules.calls (.cancel id reason) → property history → property (history.cancel behaviour id reason)
  terminate : ∀ history id,
    rules.calls (.terminate id) → property history → property (history.terminate id)
  outside : ∀ history realm, property history → property { history with realm }

namespace Stable

variable {rules : Rules κ} {behaviour : Behaviour κ} {property : History κ → Prop} {origin history : History κ}

/-- A stable property that holds at some time holds ever after. -/
theorem reaches
    (stable : Stable rules behaviour property)
    (initial : property origin)
    (reached : Reaches rules behaviour origin history) :
    property history :=
  reached.lasts property initial (fun history context _ => stable.cast history context) stable.tick stable.cancel
    stable.terminate stable.outside

end Stable

end Spellcast
