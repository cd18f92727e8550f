import Spellcast.Proofs.Simulation
import Spellcast.Proofs.Standard
import Spellcast.Proofs.Suspension

/-!
# Delays

An instruction that delays what follows it suspends its context and asks for a fork, so that the suspension is copied
into the child in which the cast goes on. The child waits it out: what follows the delay runs as many ticks after it as
the delay says.
-/

namespace Spellcast

variable {κ : Type} {behaviour : Behaviour κ}

/-- The code makes everything behind it wait for so many ticks. -/
def Behaviour.Delays (behaviour : Behaviour κ) (code : κ) (n : Int) : Prop :=
  ∀ context realm,
    behaviour.cast code context realm = ((Glyph.castDelay n context).1, (Glyph.castDelay n context).2, realm)

/-- A behaviour that gives glyphs their own meaning has delays. -/
theorem Behaviour.Carries.delays
    {embed : Glyph → κ}
    (carries : behaviour.Carries embed)
    (n : Int) :
    behaviour.Delays (embed (.delay n)) n :=
  carries.cast (.delay n)

/-- Without a manipulator a fork goes on in a copy that runs what remains. -/
theorem Context.makeChild_of_unsupplied
    {context : Context κ}
    {self : ContextId}
    {realm : Realm}
    (unsupplied : (context.makeChild behaviour self realm).1.supplier = none) :
    (context.makeChild behaviour self realm).1.context = { context.continuation with parent := some self } := by
  unfold makeChild at unsupplied ⊢
  split at unsupplied
  · nomatch unsupplied
  · rfl

namespace Turn

variable {maxForks steps more : Nat} {turn next middle : Turn κ} {others : List InFlight} {context : Context κ}
  {instruction : Instruction κ} {n : Int}

/-- So many steps lead from one turn to another, and all of them let the turn go on. -/
inductive Comes (behaviour : Behaviour κ) (maxForks : Nat) : Nat → Turn κ → Turn κ → Prop
  | here {turn : Turn κ} : Comes behaviour maxForks 0 turn turn
  | further {steps : Nat} {turn next middle : Turn κ} :
      turn.step behaviour maxForks = (next, true) →
      Comes behaviour maxForks steps next middle →
      Comes behaviour maxForks (steps + 1) turn middle

theorem Comes.keeps
    (owns : Owns turn.arena (turn.cast :: others))
    (comes : Comes behaviour maxForks steps turn middle) :
    Keeps others turn middle := by
  induction comes with
  | here =>
      exact .refl owns
  | further stepped _ inductionHypothesis =>
      have first := keeps_step behaviour maxForks owns
      rw [stepped] at first
      exact first.trans (inductionHypothesis first.owns)

theorem Comes.run
    (comes : Comes behaviour maxForks steps turn middle) :
    turn.run behaviour maxForks (steps + more) = middle.run behaviour maxForks more := by
  induction comes with
  | here =>
      rw [Nat.zero_add]
  | further stepped _ inductionHypothesis =>
      rw [Nat.succ_add, run_of_go stepped, inductionHypothesis]

/-- A step that lets the turn go on has run an instruction. -/
theorem next?_of_go
    (owns : Owns turn.arena (turn.cast :: others))
    (stepped : turn.step behaviour maxForks = (next, true)) :
    ∃ instruction, turn.next? = some instruction := by
  obtain ⟨context, live⟩ := active_live owns
  have cases := step_cases behaviour maxForks live (known owns)
  rw [stepped] at cases
  cases cases with
  | proceed runs =>
      exact ⟨_, next?_eq runs.live runs.next runs.found⟩
  | fork runs _ =>
      exact ⟨_, next?_eq runs.live runs.next runs.found⟩

theorem Comes.executedIn
    (owns : Owns turn.arena (turn.cast :: others))
    (comes : Comes behaviour maxForks steps turn middle) :
    ∃ before : List (ContextId × Instruction κ), before.length = steps ∧ ∀ more,
      turn.executedIn behaviour maxForks (steps + more) = before ++ middle.executedIn behaviour maxForks more := by
  induction comes with
  | here =>
      refine ⟨[], rfl, fun more => ?_⟩
      rw [Nat.zero_add, List.nil_append]
  | @further steps turn next middle stepped _ inductionHypothesis =>
      have first := keeps_step behaviour maxForks owns
      rw [stepped] at first
      obtain ⟨before, length, split⟩ := inductionHypothesis first.owns
      obtain ⟨instruction, runs⟩ := next?_of_go owns stepped
      refine ⟨(turn.cast.active, instruction) :: before, congrArg (· + 1) length, fun more => ?_⟩
      rw [Nat.succ_add, executedIn_of_go stepped, split, runs]
      rfl

/-- The next instruction makes what follows it wait for so many ticks, and it is not the last one. -/
structure Postpones (behaviour : Behaviour κ) (turn : Turn κ) (context : Context κ)
    (instruction first : Instruction κ) (n : Int) : Prop where
  live : turn.arena.get? turn.cast.active = some context
  next : context.hasNext = true
  found : context.program.get? context.counter = some instruction
  delays : behaviour.Delays instruction.effect.code n
  follows : context.program.get? (context.counter + 1) = some first

variable {first : Instruction κ}

theorem Postpones.runs
    (postpones : turn.Postpones behaviour context instruction first n) :
    turn.Runs behaviour context instruction .fork (context.stepped.delay n)
      (turn.castingRealm behaviour instruction) := by
  refine ⟨postpones.live, postpones.next, postpones.found, ?_⟩
  have inside : context.stepped.counter < context.stepped.program.length :=
    (List.getElem?_eq_some_iff.mp postpones.follows).1
  have notAtEnd : ¬ context.stepped.program.length ≤ context.stepped.counter := Nat.not_le.mpr inside
  rw [postpones.delays, Glyph.castDelay, if_neg notAtEnd]

def postponed (behaviour : Behaviour κ) (turn : Turn κ) (context : Context κ) (instruction : Instruction κ) (n : Int) :
    Turn κ :=
  (turn.ran (context.stepped.delay n) (turn.castingRealm behaviour instruction)).movedOn behaviour
    (context.stepped.delay n)

def Unsupplied (behaviour : Behaviour κ) (turn : Turn κ) (context : Context κ) (instruction : Instruction κ) (n : Int) :
    Prop :=
  ((context.stepped.delay n).makeChild behaviour turn.cast.active
    (turn.castingRealm behaviour instruction)).1.supplier = none

theorem postponed_live
    (owns : Owns turn.arena (turn.cast :: others))
    (unsupplied : turn.Unsupplied behaviour context instruction n) :
    (turn.postponed behaviour context instruction n).arena.get? turn.arena.nextId =
      some { (context.stepped.delay n).continuation with parent := some turn.cast.active } := by
  let ran := turn.ran (context.stepped.delay n) (turn.castingRealm behaviour instruction)
  have activeKnown : turn.cast.active ≠ turn.arena.nextId := known owns
  have ranKnown : ran.cast.active ≠ ran.arena.nextId := activeKnown
  rw [← Context.makeChild_of_unsupplied unsupplied]
  exact movedOn_live ranKnown (context.stepped.delay n)

theorem step_of_postpones
    (owns : Owns turn.arena (turn.cast :: others))
    (postpones : turn.Postpones behaviour context instruction first n)
    (below : turn.cast.forks < maxForks) :
    turn.step behaviour maxForks = (turn.postponed behaviour context instruction n, true) :=
  step_of_fork_below_limit postpones.runs (known owns) below

/-- In the child the instruction behind the delay is the next one, once the wait is over. -/
theorem Postpones.continues
    (postpones : turn.Postpones behaviour context instruction first n) :
    let child := (context.stepped.delay n).continuation
    child.canceled = false ∧ child.suspension = some ⟨n⟩ ∧ child.counter < child.program.length ∧
      child.program.get? child.counter = some first := by
  intro child
  have running := (Context.hasNext_iff.mp postpones.next).1
  have found : child.program.get? child.counter = some first := by
    change (context.program.instructions.drop (context.counter + 1))[0]? = some first
    rw [List.getElem?_drop]
    exact postpones.follows
  exact ⟨running, rfl, (List.getElem?_eq_some_iff.mp found).1, found⟩

/-- A turn that comes to a delay goes on in the child with the rest of its steps. -/
theorem Comes.postponed
    (owns : Owns turn.arena (turn.cast :: others))
    (comes : Comes behaviour maxForks steps turn middle)
    (postpones : middle.Postpones behaviour context instruction first n)
    (below : middle.cast.forks < maxForks)
    (more : Nat) :
    turn.run behaviour maxForks (steps + (more + 1)) =
        (middle.postponed behaviour context instruction n).run behaviour maxForks more ∧
      ∃ before : List (ContextId × Instruction κ), before.length = steps ∧
        turn.executedIn behaviour maxForks (steps + (more + 1)) =
          before ++ (middle.cast.active, instruction) ::
            (middle.postponed behaviour context instruction n).executedIn behaviour maxForks more := by
  have stepped := step_of_postpones (comes.keeps owns).owns postpones below
  obtain ⟨before, length, split⟩ := comes.executedIn owns
  refine ⟨?_, before, length, ?_⟩
  · rw [comes.run, run_of_go stepped]
  · rw [split, executedIn_of_go stepped, next?_eq postpones.live postpones.next postpones.found]
    rfl

end Turn

namespace History

variable {history : History κ} {cast : InFlight} {steps : Nat} {middle : Turn κ} {context : Context κ}
  {instruction first : Instruction κ} {n : Int}

/-- In the next tick the turn of the cast is like this after so many steps. -/
def Amid (behaviour : Behaviour κ) (history : History κ) (cast : InFlight) (steps : Nat) (middle : Turn κ) : Prop :=
  ∃ earlier later context woken, history.scheduler.casts = earlier ++ cast :: later ∧
    history.scheduler.arena.get? cast.active = some context ∧
    ((history.scheduler.roundAfter behaviour history.realm earlier).turn cast).announced.wake context =
      (woken, false) ∧
    Turn.Comes behaviour history.scheduler.maxForks steps woken middle

/-- In the next tick, after so many steps, a delay of so many ticks is run that is not the last instruction, while the
cast may still fork and no manipulator supplies the child. -/
structure CastsDelay (behaviour : Behaviour κ) (history : History κ) (cast : InFlight) (steps : Nat) (middle : Turn κ)
    (context : Context κ) (instruction first : Instruction κ) (n : Int) : Prop where
  amid : history.Amid behaviour cast steps middle
  allowed : steps < history.scheduler.maxSteps
  postpones : middle.Postpones behaviour context instruction first n
  below : middle.cast.forks < history.scheduler.maxForks
  unsupplied : middle.Unsupplied behaviour context instruction n

theorem Amid.mem
    (amid : history.Amid behaviour cast steps middle) :
    cast ∈ history.scheduler.casts := by
  obtain ⟨earlier, later, -, -, split, -⟩ := amid
  rw [split]
  exact List.mem_append_right _ List.mem_cons_self

/-- A state in the middle of a turn, and the turn from its start on. -/
theorem Amid.exists_turn
    (owns : history.Owns)
    (accounts : history.Accounts)
    (amid : history.Amid behaviour cast steps middle) :
    ∃ turn others context woken, Scheduler.Turned behaviour history.scheduler history.realm cast turn ∧
      Spellcast.Owns turn.arena (turn.cast :: others) ∧ turn.arena.get? turn.cast.active = some context ∧
      turn.announced.wake context = (woken, false) ∧ Turn.Keeps others turn woken ∧
      Turn.Comes behaviour history.scheduler.maxForks steps woken middle ∧
      ∀ entries, turn.takenIn behaviour history.scheduler.maxSteps history.scheduler.maxForks = entries →
        history.RunsNext behaviour cast.id entries := by
  have member := Amid.mem amid
  obtain ⟨earlier, later, context, woken, split, live, woke, comes⟩ := amid
  have turned := Scheduler.turned_of_split behaviour owns accounts.castIds_nodup split history.realm
  obtain ⟨others, turnOwns⟩ := turned.owns
  have announced := Turn.keeps_announced turnOwns
  have awake := announced.trans (Turn.keeps_wake announced.owns context)
  rw [woke] at awake
  exact ⟨_, others, context, woken, turned, turnOwns, turned_live turned owns member live, woke, awake, comes,
    fun _ entries => ⟨earlier, cast, later, split, rfl, entries⟩⟩

/-- The turn of a cast that comes to a delay goes on in the child with the rest of its steps. -/
theorem CastsDelay.exists_turn
    {more : Nat}
    (owns : history.Owns)
    (accounts : history.Accounts)
    (casts : history.CastsDelay behaviour cast steps middle context instruction first n)
    (budget : history.scheduler.maxSteps = steps + (more + 1)) :
    let child := middle.postponed behaviour context instruction n
    let ran := child.run behaviour history.scheduler.maxForks more
    ∃ turn, Scheduler.Turned behaviour history.scheduler history.realm cast turn ∧
      turn.take behaviour history.scheduler.maxSteps history.scheduler.maxForks = (ran.counted.left, ran.verdict) ∧
      (∃ others, Turn.Keeps others turn middle) ∧
      ∃ before : List (ContextId × Instruction κ), before.length = steps ∧
        history.RunsNext behaviour cast.id (before ++ (middle.cast.active, instruction) ::
          child.executedIn behaviour history.scheduler.maxForks more) := by
  intro child ran
  obtain ⟨turn, others, held, woken, turned, -, live, woke, awake, comes, runsNext⟩ :=
    casts.amid.exists_turn owns accounts
  obtain ⟨runs, before, length, executed⟩ := comes.postponed awake.owns casts.postpones casts.below more
  refine ⟨turn, turned, ?_, ⟨others, awake.trans (comes.keeps awake.owns)⟩, before, length, runsNext _ ?_⟩
  · rw [Turn.take_of_wakes live woke, budget, runs]
  · rw [Turn.takenIn_of_wakes live woke, budget, executed]

/-- A wait that is over as soon as it starts holds nothing back but by the number of steps in a tick. -/
theorem CastsDelay.goesOn
    (owns : history.Owns)
    (accounts : history.Accounts)
    (casts : history.CastsDelay behaviour cast steps middle context instruction first n)
    (short : n ≤ 0)
    (budget : steps + 1 < history.scheduler.maxSteps) :
    ∃ before : List (ContextId × Instruction κ), before.length = steps ∧ ∃ rest,
      history.RunsNext behaviour cast.id
        (before ++ (middle.cast.active, instruction) :: (middle.arena.nextId, first) :: rest) := by
  obtain ⟨more, sum⟩ : ∃ more, history.scheduler.maxSteps = steps + (more + 1) :=
    ⟨history.scheduler.maxSteps - steps - 1, by omega⟩
  obtain ⟨turn, -, -, ⟨others, keeps⟩, before, length, runsNext⟩ := casts.exists_turn owns accounts sum
  obtain ⟨running, suspended, inside, found⟩ := casts.postpones.continues
  have live := Turn.postponed_live keeps.owns casts.unsupplied
  have next : (context.stepped.delay n).continuation.hasNext = true := by
    have awake : (context.stepped.delay n).continuation.isSuspended = false := by
      simp only [Context.isSuspended, suspended, Suspension.isPending, decide_eq_false_iff_not]
      omega
    exact Context.hasNext_iff.mpr ⟨running, awake, inside⟩
  have allowed : 0 < more := by omega
  obtain ⟨rest, executed⟩ := Turn.executedIn_of_next behaviour history.scheduler.maxForks allowed
    (Turn.next?_eq live next found)
  rw [executed] at runsNext
  exact ⟨before, length, rest, runsNext⟩

/-- Otherwise the tick ends with the delay, and the cast is in flight with the child as its active context. -/
theorem CastsDelay.pauses
    (owns : history.Owns)
    (accounts : history.Accounts)
    (casts : history.CastsDelay behaviour cast steps middle context instruction first n)
    (long : 0 < n ∨ steps + 1 = history.scheduler.maxSteps) :
    (∃ before : List (ContextId × Instruction κ), before.length = steps ∧
      history.RunsNext behaviour cast.id (before ++ [(middle.cast.active, instruction)])) ∧
    ∃ stays ∈ (history.tick behaviour).scheduler.casts, stays.id = cast.id ∧ stays.active = middle.arena.nextId ∧
      (history.tick behaviour).scheduler.arena.get? stays.active =
        some { (context.stepped.delay n).continuation with parent := some middle.cast.active } := by
  obtain ⟨more, sum⟩ : ∃ more, history.scheduler.maxSteps = steps + (more + 1) := by
    have allowed := casts.allowed
    exact ⟨history.scheduler.maxSteps - steps - 1, by omega⟩
  obtain ⟨turn, turned, taken, ⟨others, keeps⟩, before, length, runsNext⟩ := casts.exists_turn owns accounts sum
  obtain ⟨running, suspended, inside, -⟩ := casts.postpones.continues
  have live := Turn.postponed_live keeps.owns casts.unsupplied
  -- either no steps are left or the child waits
  have still : (middle.postponed behaviour context instruction n).run behaviour history.scheduler.maxForks more =
        middle.postponed behaviour context instruction n ∧
      (middle.postponed behaviour context instruction n).executedIn behaviour history.scheduler.maxForks more = [] := by
    by_cases pending : 0 < n
    · have exhausted : (context.stepped.delay n).continuation.hasNext = false := by
        simp [Context.hasNext, Context.isSuspended, suspended, Suspension.isPending, pending]
      exact ⟨(Turn.run_of_exhausted behaviour history.scheduler.maxForks live exhausted more).1,
        Turn.executedIn_of_exhausted behaviour history.scheduler.maxForks more live exhausted⟩
    · obtain rfl : more = 0 := by omega
      exact ⟨rfl, rfl⟩
  have goesOn : (context.stepped.delay n).continuation.hasNext = true ∨
      (context.stepped.delay n).continuation.isSuspended = true := by
    cases waits : (context.stepped.delay n).continuation.isSuspended with
    | true =>
        exact .inr rfl
    | false =>
        exact .inl (Context.hasNext_iff.mpr ⟨running, waits, inside⟩)
  rw [still.1, Turn.verdict_of_more live running goesOn] at taken
  rw [still.2] at runsNext
  obtain ⟨stays, contexts⟩ := turned.running _ taken
  refine ⟨⟨before, length, runsNext⟩, _, stays, ?_, rfl, ?_⟩
  · have sameId : middle.cast.id = turn.cast.id := keeps.sameId
    rw [turned.started] at sameId
    exact sameId
  · have active : middle.arena.nextId ∈ (middle.postponed behaviour context instruction n).cast.contexts :=
      List.mem_append_right _ (List.mem_singleton_self _)
    exact (contexts _ active).trans live

end History

/-- A cast that nobody interrupts and whose active context is suspended for `n` ticks waits for the next `n - 1` ticks:
nothing runs, and nothing changes but the number of remaining ticks. In the next tick it goes on as if the context had
no suspension. If `n` is not positive, that is the first tick already. When an instruction delays what follows it by `n`
ticks and forks, the instruction behind it runs in the child `n` ticks later, or if `n` is not positive as the next one,
unless there are no steps left in the tick; then it runs first in the tick after. -/
theorem suspensionsLastExactly
    {rules : Rules κ}
    {scheduler : Scheduler κ}
    {realm : Realm}
    {history : History κ}
    (made : scheduler.Made)
    (reached : Reaches rules behaviour (.start scheduler realm) history) :
    (∀ cast ∈ history.scheduler.casts, ∀ (context : Context κ) (n : Int),
      history.scheduler.arena.get? cast.active = some context →
      context.canceled = false → context.suspension = some ⟨n⟩ →
      ∀ (future : Rules κ) (later : History κ) (k : Nat), future.Spare cast.id →
        Reaches future behaviour history later → later.scheduler.ticks = history.scheduler.ticks + k →
        ((k : Int) < max n 1 → history.Waited cast context n k later) ∧
        ((k : Int) + 1 < max n 1 → later.RunsNext behaviour cast.id []) ∧
        ((k : Int) + 1 = max n 1 →
          later.Resumes behaviour { cast with ticks := cast.ticks + k }
            { context with suspension := some ⟨n - k⟩ })) ∧
    (∀ (cast : InFlight) (steps : Nat) (middle : Turn κ) (context : Context κ) (delay first : Instruction κ) (n : Int),
      history.CastsDelay behaviour cast steps middle context delay first n →
      let parent := middle.cast.active
      let child := middle.arena.nextId
      (n ≤ 0 → steps + 1 < history.scheduler.maxSteps →
        ∃ before : List (ContextId × Instruction κ), before.length = steps ∧ ∃ rest,
          history.RunsNext behaviour cast.id (before ++ (parent, delay) :: (child, first) :: rest)) ∧
      (0 < n ∨ steps + 1 = history.scheduler.maxSteps →
        (∃ before : List (ContextId × Instruction κ), before.length = steps ∧
          history.RunsNext behaviour cast.id (before ++ [(parent, delay)])) ∧
        ∀ (future : Rules κ) (later : History κ) (k : Nat), future.Spare cast.id →
          Reaches future behaviour (history.tick behaviour) later →
          later.scheduler.ticks = history.scheduler.ticks + 1 + k →
          ((k : Int) + 1 < max n 1 → later.RunsNext behaviour cast.id []) ∧
          ((k : Int) + 1 = max n 1 → ∃ rest, later.RunsNext behaviour cast.id ((child, first) :: rest)))) := by
  have owns : history.Owns := reached.owns made
  have accounts : history.Accounts := reached.accounts made
  have positive := reached.maxSteps_pos made
  constructor
  · intro cast member context n live running suspended future later k spare further counted
    exact further.waits_out owns accounts positive member live running suspended spare counted
  · intro cast steps middle context delay first n casts parent child
    refine ⟨casts.goesOn owns accounts, fun long => ?_⟩
    obtain ⟨runsNext, stays, member, sameId, active, live⟩ := casts.pauses owns accounts long
    obtain ⟨running, suspended, inside, found⟩ := casts.postpones.continues
    refine ⟨runsNext, fun future later k spare further counted => ?_⟩
    obtain ⟨tickOwns, tickAccounts⟩ := (History.accounts_stable behaviour rules).tick history ⟨owns, accounts⟩
    obtain ⟨-, waits, resumes⟩ := further.waits_out tickOwns tickAccounts positive member live running suspended
      (sameId ▸ spare) counted
    rw [sameId] at waits
    refine ⟨waits, fun last => ?_⟩
    obtain ⟨instruction, rest, next, runsLast⟩ := (resumes last).runs inside
    obtain rfl : first = instruction := Option.some.inj (found.symm.trans next)
    change later.RunsNext behaviour stays.id ((stays.active, first) :: rest) at runsLast
    rw [sameId, active] at runsLast
    exact ⟨rest, runsLast⟩

/-- A delay of three ticks with a mark behind it, from the registration on and from the first tick on: nothing runs in
the second and in the third tick, and the mark runs in the child in the fourth. -/
theorem suspensionsLastExactly_delayThenMark :
    let delay : Instruction Glyph := .plain Glyph.marksId ⟨0, .delay 3⟩
    let mark : Instruction Glyph := .plain Glyph.marksId ⟨1, .mark Glyph.marksId⟩
    let fresh : History Glyph := .start .empty .empty
    let context : Context Glyph := .ofProgram (.ofInstructions [delay, mark])
    let registered := fresh.cast context
    let child : Context Glyph :=
      { context with program := .ofInstructions [mark], suspension := some ⟨3⟩, parent := some 0 }
    let waiting : InFlight := { id := 1, active := 1, contexts := [0, 1], steps := 1, forks := 1, ticks := 1 }
    let first := registered.tick Glyph.behaviour
    let third := (first.tick Glyph.behaviour).tick Glyph.behaviour
    fresh.scheduler.Made ∧
      Reaches ⟨fun _ => True, fun _ _ => True⟩ Glyph.behaviour fresh registered ∧
      Reaches ⟨fun _ => True, fun _ _ => True⟩ Glyph.behaviour fresh first ∧
      registered.RunsNext Glyph.behaviour 1 [(0, delay)] ∧
      (∃ rest, third.RunsNext Glyph.behaviour 1 ((1, mark) :: rest)) ∧
      first.scheduler.arena.get? 1 = some child ∧
      first.RunsNext Glyph.behaviour 1 [] ∧
      first.Waited waiting child 3 2 third ∧
      third.Resumes Glyph.behaviour { waiting with ticks := 3 } { child with suspension := some ⟨1⟩ } := by
  intro delay mark fresh context registered child waiting first third
  have toRegistered : Reaches ⟨fun _ => True, fun _ _ => True⟩ Glyph.behaviour fresh registered :=
    .call (.cast context) .origin trivial
  have toFirst : Reaches ⟨fun _ => True, fun _ _ => True⟩ Glyph.behaviour fresh first :=
    toRegistered.call .tick trivial
  let onlyTicks : Rules Glyph := ⟨fun call => call = .tick, fun _ _ => False⟩
  have spare : onlyTicks.Spare 1 := by
    rintro call rfl interrupts
    exact interrupts
  have toThird : Reaches onlyTicks Glyph.behaviour first third :=
    .call .tick (.call .tick .origin rfl) rfl
  -- from the registration on, with the delay as the first step of the first turn
  let middle := ((registered.scheduler.roundAfter Glyph.behaviour registered.realm []).turn
    { id := 1, active := 0, contexts := [0], steps := 0, forks := 0, ticks := 0 }).announced
  have casts : registered.CastsDelay Glyph.behaviour
      { id := 1, active := 0, contexts := [0], steps := 0, forks := 0, ticks := 0 } 0 middle context delay mark 3 :=
    { amid := ⟨[], [], context, middle, rfl, rfl, rfl, .here⟩
      allowed := by decide
      postpones := ⟨rfl, rfl, rfl, Glyph.behaviour_carries.delays 3, rfl⟩
      below := by decide
      unsupplied := rfl }
  obtain ⟨-, paused⟩ := (suspensionsLastExactly .empty toRegistered).2 _ _ _ _ _ _ _ casts
  obtain ⟨⟨before, unwaited, runsNext⟩, afterwards⟩ := paused (.inl (by decide))
  obtain rfl := List.length_eq_zero_iff.mp unwaited
  -- from the first tick on, with the suspension that the child has then
  have waits := (suspensionsLastExactly .empty toFirst).1 waiting (List.mem_singleton_self _) child 3 rfl rfl rfl
    onlyTicks
  exact ⟨.empty, toRegistered, toFirst, runsNext, (afterwards onlyTicks third 2 spare toThird rfl).2 rfl, rfl,
    (waits first 0 spare .origin rfl).2.1 (by decide), (waits third 2 spare toThird rfl).1 (by decide),
    (waits third 2 spare toThird rfl).2.2 rfl⟩

end Spellcast
