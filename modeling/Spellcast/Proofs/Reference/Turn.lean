import Spellcast.Proofs.Focus
import Spellcast.Proofs.Standard

/-!
# The turns of a standard cast

A standard cast that nobody interrupts stands, before each of its turns, at a place from which the reference run does
what is left of its account. A turn either counts down a wait, or runs as much of the first context of that account
as the budget allows: it stops part of the way, at the end of the program, at the fork limit, or in a child that waits.
-/

namespace Spellcast

variable {κ : Type} {behaviour : Behaviour κ} {embed : Glyph → κ} {maxSteps maxForks : Nat}

namespace Context

variable {context after : Context κ} {instruction : Instruction κ} {rest : List (Instruction κ)}

theorem get?_of_ahead
    (ahead : context.ahead = instruction :: rest) :
    context.program.get? context.counter = some instruction := by
  have first : (context.program.instructions.drop context.counter)[0]? = some instruction := by
    rw [show context.program.instructions.drop context.counter = instruction :: rest from ahead]
    rfl
  simpa [Program.get?] using first

theorem ahead_stepped
    (ahead : context.ahead = instruction :: rest) :
    context.stepped.ahead = rest := by
  have dropped : (context.program.instructions.drop context.counter).drop 1 = rest := by
    rw [show context.program.instructions.drop context.counter = instruction :: rest from ahead]
    rfl
  simpa [Context.ahead, remainder, Program.remainderFrom, stepped] using dropped

theorem ahead_eq_nil_iff :
    context.ahead = [] ↔ context.program.length ≤ context.counter :=
  List.drop_eq_nil_iff

theorem SameRun.ahead
    (same : context.SameRun after) :
    after.ahead = context.ahead := by
  simp only [Context.ahead, remainder, same.program, same.counter]

theorem hasNext_of_ahead
    (running : context.canceled = false)
    (awake : context.suspension = none)
    (ahead : context.ahead ≠ []) :
    context.hasNext = true := by
  refine hasNext_iff.mpr ⟨running, by simp [isSuspended, awake], ?_⟩
  exact Nat.lt_of_not_le fun atEnd => ahead (ahead_eq_nil_iff.mpr atEnd)

end Context

/-- A cast with this active context still does what the account says: nothing has stopped it, its program is standard,
and the reference run from its place, with the forks it has left, gives the account. -/
structure Stands (embed : Glyph → κ) (maxForks : Nat) (cast : InFlight) (context : Context κ)
    (account : Account κ) : Prop where
  running : context.canceled = false
  standard : ∀ instruction ∈ context.program.instructions, Glyph.IsStandard embed instruction
  granted : cast.forks ≤ maxForks
  account : account = reference (maxForks - cast.forks) context.ahead

namespace Turn

variable {turn after : Turn κ} {context : Context κ} {instruction : Instruction κ} {rest : List (Instruction κ)}
  {account : Account κ} {others : List InFlight} {budget : Nat}

/-- A standard instruction that does not fork leaves the run one place further on. -/
theorem exists_runs_proceed
    (carries : behaviour.Carries embed)
    (live : turn.arena.get? turn.cast.active = some context)
    (next : context.hasNext = true)
    (standard : Glyph.IsStandard embed instruction)
    (ahead : context.ahead = instruction :: rest)
    (goesOn : (instruction.isDelay && !rest.isEmpty) = false) :
    ∃ after realm,
      turn.Runs behaviour context instruction .proceed after realm ∧ context.stepped.SameRun after := by
  have found := Context.get?_of_ahead ahead
  cases isDelay : instruction.isDelay with
  | false =>
      obtain ⟨glyph, code, notDelay⟩ := standard.code_of_not_delay isDelay
      obtain ⟨proceeds, same⟩ :=
        Glyph.cast_of_not_delay notDelay context.stepped (turn.castingRealm behaviour instruction)
      refine ⟨(glyph.cast context.stepped (turn.castingRealm behaviour instruction)).2.1,
        (glyph.cast context.stepped (turn.castingRealm behaviour instruction)).2.2,
        ⟨live, next, found, ?_⟩, same⟩
      rw [code, carries.cast, ← proceeds]
  | true =>
      have last : rest = [] := by
        simpa [isDelay] using goesOn
      have atEnd : context.stepped.program.length ≤ context.stepped.counter :=
        Context.ahead_eq_nil_iff.mp ((Context.ahead_stepped ahead).trans last)
      refine ⟨context.stepped, turn.castingRealm behaviour instruction, ⟨live, next, found, ?_⟩,
        rfl, rfl, rfl, rfl, rfl⟩
      rw [standard.code_of_delay isDelay, carries.cast, Glyph.cast_delay_of_end atEnd]

/-- A standard delay with something behind it suspends the run and asks for a fork. -/
theorem runs_delay
    (carries : behaviour.Carries embed)
    (live : turn.arena.get? turn.cast.active = some context)
    (next : context.hasNext = true)
    (standard : Glyph.IsStandard embed instruction)
    (ahead : context.ahead = instruction :: rest)
    (delays : (instruction.isDelay && !rest.isEmpty) = true) :
    turn.Runs behaviour context instruction .fork (context.stepped.delay Glyph.defaultDelay)
      (turn.castingRealm behaviour instruction) := by
  obtain ⟨isDelay, more⟩ : instruction.isDelay = true ∧ rest ≠ [] := by
    simpa using delays
  have notAtEnd : context.stepped.counter < context.stepped.program.length := by
    refine Nat.lt_of_not_le fun atEnd => more ?_
    rw [← Context.ahead_stepped ahead]
    exact Context.ahead_eq_nil_iff.mpr atEnd
  refine ⟨live, next, Context.get?_of_ahead ahead, ?_⟩
  rw [standard.code_of_delay isDelay, carries.cast, Glyph.cast_delay_of_rest notAtEnd]

/-- How a run of at most so many instructions ends, when the cast had this account before. -/
inductive Ran (embed : Glyph → κ) (maxForks budget : Nat) (account : Account κ) (before after : Turn κ) : Prop
  /-- The budget is used up within the first context. -/
  | partway {context : Context κ} :
      budget < account.first.length →
      after.cast = before.cast →
      after.arena.get? after.cast.active = some context →
      Stands embed maxForks after.cast context { account with first := account.first.drop budget } →
      context.suspension = none →
      Ran embed maxForks budget account before after
  /-- The program has come to its end. -/
  | ended {context : Context κ} :
      account.first.length ≤ budget →
      account.further = [] →
      account.stopped = false →
      after.cast = before.cast →
      after.arena.get? after.cast.active = some context →
      context.canceled = false →
      context.suspension = none →
      context.ahead = [] →
      Ran embed maxForks budget account before after
  /-- A fork was not granted. -/
  | stopped {context : Context κ} :
      account.first.length ≤ budget →
      account.further = [] →
      account.stopped = true →
      after.cast = before.cast →
      after.arena.get? after.cast.active = some context →
      context.canceled = true →
      context.cancelReason = some .terminated →
      Ran embed maxForks budget account before after
  /-- The cast has moved into a child, which waits. -/
  | waits {context : Context κ} {next : List (Instruction κ)} {further : List (List (Instruction κ))} :
      account.first.length ≤ budget →
      account.further = next :: further →
      after.cast = before.cast.moved after.cast.active →
      after.arena.get? after.cast.active = some context →
      Stands embed maxForks after.cast context ⟨next, further, account.stopped⟩ →
      context.suspension = some ⟨Glyph.defaultDelay⟩ →
      Ran embed maxForks budget account before after

/-- Running one more instruction of the same context before does not change how a run ends. -/
theorem Ran.cons
    (ran : Ran embed maxForks budget account turn after)
    (before : Turn κ)
    (same : turn.cast = before.cast)
    (instruction : Instruction κ) :
    Ran embed maxForks (budget + 1) (account.ran instruction) before after := by
  cases ran with
  | partway short cast live stands awake =>
      exact .partway (Nat.succ_lt_succ short) (cast.trans same) live stands awake
  | ended fits further stopped cast live running awake ahead =>
      exact .ended (Nat.succ_le_succ fits) further stopped (cast.trans same) live running awake ahead
  | stopped fits further stopped cast live canceled reason =>
      exact .stopped (Nat.succ_le_succ fits) further stopped (cast.trans same) live canceled reason
  | waits fits further cast live stands suspended =>
      exact .waits (Nat.succ_le_succ fits) further (same ▸ cast) live stands suspended

/-- The child into which a standard delay moves a cast. -/
theorem exists_child
    (carries : behaviour.Carries embed)
    (turn : Turn κ)
    (context : Context κ)
    (known : turn.cast.active ≠ turn.arena.nextId)
    (standard : ∀ instruction ∈ context.program.instructions, Glyph.IsStandard embed instruction)
    (delayed : context.suspension = some ⟨Glyph.defaultDelay⟩)
    (running : context.canceled = false) :
    ∃ child : Context κ,
      (turn.movedOn behaviour context).arena.get? turn.arena.nextId = some child ∧
        child.ahead = unrolled context.ahead ∧ child.canceled = false ∧
        child.suspension = some ⟨Glyph.defaultDelay⟩ ∧
        ∀ instruction ∈ child.program.instructions, Glyph.IsStandard embed instruction := by
  have made := (Context.makeChild_of_standard carries standard turn.cast.active turn.realm).1
  refine ⟨(turn.madeChild behaviour context).1, ?_, ?_, ?_, ?_, ?_⟩
  · exact (Arena.get?_set_of_ne (Ne.symm known)).trans Arena.get?_insert_self
  · simp only [Context.ahead, Context.remainder, Program.remainderFrom, madeChild, made, List.drop_zero]
  · rw [madeChild, made]
    exact running
  · rw [madeChild, made]
    exact delayed
  · intro instruction member
    rw [madeChild, made] at member
    exact standard instruction (List.mem_of_mem_drop (mem_of_mem_unrolled member))

/-- A run of at most so many instructions runs the beginning of the first context of an account, and ends like this. -/
structure RunsFirst (embed : Glyph → κ) (behaviour : Behaviour κ) (maxForks budget : Nat) (account : Account κ)
    (turn : Turn κ) : Prop where
  executed : turn.executed behaviour maxForks budget = account.first.take budget
  steps : (turn.run behaviour maxForks budget).steps = turn.steps + min budget account.first.length
  ran : Ran embed maxForks budget account turn (turn.run behaviour maxForks budget)

theorem runsFirst_of_end
    (live : turn.arena.get? turn.cast.active = some context)
    (stands : Stands embed maxForks turn.cast context account)
    (awake : context.suspension = none)
    (atEnd : context.ahead = [])
    (budget : Nat) :
    RunsFirst embed behaviour maxForks budget account turn := by
  have empty : account = ⟨[], [], false⟩ := by
    rw [stands.account, atEnd, reference_nil]
  have exhausted : context.hasNext = false := by
    rw [Bool.eq_false_iff]
    exact fun next => Nat.not_lt.mpr (Context.ahead_eq_nil_iff.mp atEnd) (Context.hasNext_iff.mp next).2.2
  obtain ⟨unchanged, nothing⟩ := run_of_exhausted behaviour maxForks live exhausted budget
  constructor
  · rw [nothing, empty, List.take_nil]
  · rw [unchanged, empty, List.length_nil, Nat.min_zero, Nat.add_zero]
  · rw [unchanged, empty]
    exact .ended (Nat.zero_le _) rfl rfl rfl live stands.running awake atEnd

theorem runsFirst_zero
    (live : turn.arena.get? turn.cast.active = some context)
    (stands : Stands embed maxForks turn.cast context account)
    (awake : context.suspension = none)
    (ahead : context.ahead = instruction :: rest) :
    RunsFirst embed behaviour maxForks 0 account turn := by
  have more : 0 < account.first.length := by
    rw [List.length_pos_iff, stands.account, ahead]
    exact reference_first_ne_nil
  refine ⟨rfl, by rw [Nat.zero_min]; rfl, .partway more rfl live ?_ awake⟩
  exact stands

theorem RunsFirst.proceed
    {next : Context κ}
    {realm : Realm}
    (later : RunsFirst embed behaviour maxForks budget account (turn.ran next realm))
    (runs : turn.Runs behaviour context instruction .proceed next realm) :
    RunsFirst embed behaviour maxForks (budget + 1) (account.ran instruction) turn := by
  have stepped := step_of_proceed maxForks runs
  have first := next?_eq runs.live runs.next runs.found
  constructor
  · rw [executed_of_go stepped, first, later.executed]
    rfl
  · rw [run_of_go stepped, later.steps]
    simp only [Turn.ran, Account.ran, List.length_cons]
    omega
  · rw [run_of_go stepped]
    exact later.ran.cons turn rfl instruction

theorem runsFirst_of_limit
    {next : Context κ}
    {realm : Realm}
    (runs : turn.Runs behaviour context instruction .fork next realm)
    (limit : maxForks ≤ turn.cast.forks)
    (budget : Nat) :
    RunsFirst embed behaviour maxForks (budget + 1) ⟨[instruction], [], true⟩ turn := by
  have stepped := step_of_fork_at_limit runs limit
  have first := next?_eq runs.live runs.next runs.found
  constructor
  · rw [executed_of_stop stepped, first]
    simp
  · rw [run_of_stop stepped]
    simp [stoppedAtLimit, ran]
  · rw [run_of_stop stepped]
    exact .stopped (by simp) rfl rfl rfl (Arena.get?_set_self (ran_live runs.live)) rfl rfl

/-- After a fork the run stops at once, since the child has to wait. -/
theorem runsFirst_of_fork
    (carries : behaviour.Carries embed)
    (known : turn.cast.active ≠ turn.arena.nextId)
    (stands : Stands embed maxForks turn.cast context account)
    (ahead : context.ahead = instruction :: rest)
    (runs : turn.Runs behaviour context instruction .fork (context.stepped.delay Glyph.defaultDelay)
      (turn.castingRealm behaviour instruction))
    (below : turn.cast.forks < maxForks)
    (budget : Nat) :
    RunsFirst embed behaviour maxForks (budget + 1)
      ((reference (maxForks - (turn.cast.forks + 1)) (unrolled rest)).moved instruction) turn := by
  have stepped := step_of_fork_below_limit runs known below
  have first := next?_eq runs.live runs.next runs.found
  obtain ⟨child, childLive, childAhead, childRunning, childWaits, childStandard⟩ :=
    exists_child carries (turn.ran (context.stepped.delay Glyph.defaultDelay) (turn.castingRealm behaviour instruction))
      (context.stepped.delay Glyph.defaultDelay) known stands.standard rfl stands.running
  have childStands :
      Stands embed maxForks (turn.cast.moved turn.arena.nextId) child
        (reference (maxForks - (turn.cast.forks + 1)) (unrolled rest)) := by
    refine ⟨childRunning, childStandard, below, ?_⟩
    rw [childAhead]
    exact congrArg (fun ahead => reference _ (unrolled ahead)) (Context.ahead_stepped ahead).symm
  have exhausted : child.hasNext = false := by
    rw [Bool.eq_false_iff]
    intro childNext
    have childAwake := (Context.hasNext_iff.mp childNext).2.1
    simp [Context.isSuspended, childWaits, Suspension.isPending, Glyph.defaultDelay] at childAwake
  obtain ⟨unchanged, nothing⟩ := run_of_exhausted behaviour maxForks childLive exhausted budget
  constructor
  · rw [executed_of_go stepped, first, nothing]
    simp [Account.moved]
  · rw [run_of_go stepped, unchanged]
    simp [movedOn, ran, Account.moved]
  · rw [run_of_go stepped, unchanged]
    exact .waits (by simp [Account.moved]) rfl rfl childLive childStands childWaits

/-- A run of a standard cast runs the beginning of the first context of its account. -/
theorem run_reference
    (carries : behaviour.Carries embed)
    (owns : Owns turn.arena (turn.cast :: others))
    (live : turn.arena.get? turn.cast.active = some context)
    (stands : Stands embed maxForks turn.cast context account)
    (awake : context.suspension = none)
    (budget : Nat) :
    RunsFirst embed behaviour maxForks budget account turn := by
  -- the account of the rest is the account without its first instruction, until a fork ends the run
  induction budget generalizing turn context account with
  | zero =>
      cases ahead : context.ahead with
      | nil => exact runsFirst_of_end live stands awake ahead 0
      | cons instruction rest => exact runsFirst_zero live stands awake ahead
  | succ budget inductionHypothesis =>
      cases ahead : context.ahead with
      | nil =>
          exact runsFirst_of_end live stands awake ahead (budget + 1)
      | cons instruction rest =>
          have next := Context.hasNext_of_ahead stands.running awake (by rw [ahead]; exact List.cons_ne_nil _ _)
          have found := Context.get?_of_ahead ahead
          have standard := stands.standard instruction (List.mem_of_getElem? found)
          have account := stands.account
          rw [ahead] at account
          cases delays : instruction.isDelay && !rest.isEmpty with
          | false =>
              obtain ⟨after, realm, proceeds, same⟩ := exists_runs_proceed carries live next standard ahead delays
              have keeps : Keeps others turn (turn.ran after realm) := keeps_set owns after rfl rfl
              have standsAfter :
                  Stands embed maxForks (turn.ran after realm).cast after
                    (reference (maxForks - turn.cast.forks) rest) := by
                refine ⟨same.canceled.trans stands.running, ?_, stands.granted, ?_⟩
                · rw [same.program]
                  exact stands.standard
                · rw [same.ahead, Context.ahead_stepped ahead]
                  rfl
              have later := inductionHypothesis keeps.owns (ran_live live) standsAfter (same.suspension.trans awake)
              rw [account, reference_ran delays]
              exact later.proceed proceeds
          | true =>
              have forks := runs_delay carries live next standard ahead delays
              by_cases limit : maxForks ≤ turn.cast.forks
              · have noForks : maxForks - turn.cast.forks = 0 := Nat.sub_eq_zero_of_le limit
                rw [account, noForks, reference_stopped delays]
                exact runsFirst_of_limit forks limit budget
              · have below : turn.cast.forks < maxForks := Nat.not_le.mp limit
                have moreForks : maxForks - turn.cast.forks = (maxForks - (turn.cast.forks + 1)) + 1 := by omega
                rw [account, moreForks, reference_moved delays]
                exact runsFirst_of_fork carries (Turn.known owns) stands ahead forks below budget

end Turn

end Spellcast
