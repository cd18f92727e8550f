import Spellcast.Proofs.Reference.History
import Spellcast.Proofs.Runaway.Blocks

/-!
# Standard programs that never end

An echo is left out of the child that it proposes, but the echoes behind it are copied like everything else. So the
child of a fork can have as many delays and echoes ahead as its parent had. Whether the forks ever end can be told from
the blocks of the program: either some fork limit lets it run to its end, or every fork limit stops it.
-/

namespace Spellcast

variable {κ : Type} {behaviour : Behaviour κ} {embed : Glyph → κ}

/-- The numbers of delays before the first echo of a program and behind each of its echoes. -/
def delayBlocks : List (Instruction κ) → List Nat
  | [] => [0]
  | instruction :: rest =>
    if instruction.isDelay then Blocks.raised 1 (delayBlocks rest)
    else if instruction.isEcho then 0 :: delayBlocks rest
    else delayBlocks rest

section delayBlocks

variable {instruction : Instruction κ} {rest before after : List (Instruction κ)} {more : Nat} {behind : List Nat}

theorem Instruction.not_isDelay_of_isEcho
    (isEcho : instruction.isEcho = true) :
    instruction.isDelay = false := by
  have path : instruction.id.path = "glyph_echo" := by simpa [Instruction.isEcho] using isEcho
  simp [Instruction.isDelay, path]

theorem delayBlocks_delay
    (isDelay : instruction.isDelay = true) :
    delayBlocks (instruction :: rest) = Blocks.raised 1 (delayBlocks rest) := by
  simp [delayBlocks, isDelay]

theorem delayBlocks_echo
    (isEcho : instruction.isEcho = true) :
    delayBlocks (instruction :: rest) = 0 :: delayBlocks rest := by
  simp [delayBlocks, isEcho, Instruction.not_isDelay_of_isEcho isEcho]

theorem delayBlocks_other
    (notDelay : instruction.isDelay = false)
    (notEcho : instruction.isEcho = false) :
    delayBlocks (instruction :: rest) = delayBlocks rest := by
  simp [delayBlocks, notDelay, notEcho]

theorem delayBlocks_ne_nil (instructions : List (Instruction κ)) : delayBlocks instructions ≠ [] := by
  induction instructions with
  | nil =>
      exact List.cons_ne_nil _ _
  | cons instruction rest inductionHypothesis =>
      rw [delayBlocks]
      split
      · exact Blocks.raised_ne_nil
      · split
        · exact List.cons_ne_nil _ _
        · exact inductionHypothesis

theorem delayBlocks_append (before after : List (Instruction κ)) :
    delayBlocks (before ++ after) = Blocks.joined (delayBlocks before) (delayBlocks after) := by
  induction before with
  | nil =>
      exact (Blocks.raised_zero (delayBlocks_ne_nil after)).symm
  | cons instruction rest inductionHypothesis =>
      have nonempty := delayBlocks_ne_nil rest
      rw [List.cons_append]
      cases isDelay : instruction.isDelay with
      | true =>
          rw [delayBlocks_delay isDelay, delayBlocks_delay isDelay, inductionHypothesis, Blocks.joined_raised nonempty]
      | false =>
          cases isEcho : instruction.isEcho with
          | true =>
              rw [delayBlocks_echo isEcho, delayBlocks_echo isEcho, inductionHypothesis, Blocks.joined_cons nonempty]
          | false =>
              rw [delayBlocks_other isDelay isEcho, delayBlocks_other isDelay isEcho, inductionHypothesis]

theorem delayBlocks_of_no_echo
    (noEcho : ∀ instruction ∈ before, instruction.isEcho = false) :
    ∃ count, delayBlocks before = [count] := by
  induction before with
  | nil =>
      exact ⟨0, rfl⟩
  | cons instruction rest inductionHypothesis =>
      obtain ⟨count, counted⟩ := inductionHypothesis fun later member => noEcho later (List.mem_cons_of_mem _ member)
      cases isDelay : instruction.isDelay with
      | true =>
          exact ⟨1 + count, by rw [delayBlocks_delay isDelay, counted]; rfl⟩
      | false =>
          exact ⟨count, by rw [delayBlocks_other isDelay (noEcho _ List.mem_cons_self), counted]⟩

/-- Unrolling the first echo doubles the blocks behind it. -/
theorem delayBlocks_unrolled
    (blocks : delayBlocks rest = more :: behind) :
    delayBlocks (unrolled rest) = Blocks.forked more behind := by
  rcases no_echo_or_split rest with noEcho | ⟨before, echo, after, split, noEcho, isEcho⟩
  · obtain ⟨count, counted⟩ := delayBlocks_of_no_echo noEcho
    rw [counted] at blocks
    obtain ⟨rfl, rfl⟩ := List.cons.inj blocks
    rw [unrolled_of_no_echo noEcho, counted, Blocks.forked_nil]
  · obtain ⟨count, counted⟩ := delayBlocks_of_no_echo noEcho
    rw [split, delayBlocks_append, counted, delayBlocks_echo isEcho] at blocks
    have same : count :: delayBlocks after = more :: behind := blocks
    obtain ⟨rfl, rfl⟩ := List.cons.inj same
    rw [split, unrolled_append_cons noEcho isEcho, delayBlocks_append, delayBlocks_append, counted]
    rfl

end delayBlocks

section reference

variable {instruction : Instruction κ} {instructions rest : List (Instruction κ)} {blocks : List Nat}

/-- A reference run of an endless program comes to a delay that asks for a fork, and what is ahead of it after the fork
is endless again. -/
theorem exists_fork_of_endless
    (endless : Blocks.Endless (delayBlocks instructions)) :
    ∃ next : List (Instruction κ),
      Blocks.Endless (delayBlocks next) ∧ (reference 0 instructions).stopped = true ∧
        ∀ forks, (reference (forks + 1) instructions).stopped = (reference forks next).stopped := by
  -- instructions before the first delay run without a fork, and leave the blocks behind them endless
  induction instructions with
  | nil =>
      exact absurd endless id
  | cons instruction rest inductionHypothesis =>
      cases isDelay : instruction.isDelay with
      | true =>
          rw [delayBlocks_delay isDelay] at endless
          cases counted : delayBlocks rest with
          | nil =>
              exact absurd counted (delayBlocks_ne_nil rest)
          | cons more behind =>
              rw [counted, Blocks.raised, Nat.add_comm] at endless
              have delays : (instruction.isDelay && !rest.isEmpty) = true := by
                cases rest with
                | nil =>
                    obtain ⟨rfl, rfl⟩ := List.cons.inj counted
                    exact absurd endless.1 (by decide)
                | cons next later =>
                    simp [isDelay]
              refine ⟨unrolled rest, ?_, ?_, ?_⟩
              · rw [delayBlocks_unrolled counted]
                exact endless.fork
              · rw [reference_stopped delays]
              · intro forks
                rw [reference_moved delays]
                rfl
      | false =>
          have goesOn : (instruction.isDelay && !rest.isEmpty) = false := by simp [isDelay]
          have later : Blocks.Endless (delayBlocks rest) := by
            cases isEcho : instruction.isEcho with
            | true =>
                rw [delayBlocks_echo isEcho] at endless
                exact endless
            | false =>
                rw [delayBlocks_other isDelay isEcho] at endless
                exact endless
          obtain ⟨next, nextEndless, stopped, moved⟩ := inductionHypothesis later
          refine ⟨next, nextEndless, ?_, ?_⟩
          · rw [reference_ran goesOn]
            exact stopped
          · intro forks
            rw [reference_ran goesOn]
            exact moved forks

/-- However many forks are granted, the reference run of an endless program asks for another. -/
theorem stopped_of_endless
    (endless : Blocks.Endless (delayBlocks instructions))
    (forks : Nat) :
    (reference forks instructions).stopped = true := by
  induction forks generalizing instructions with
  | zero =>
      obtain ⟨_, _, stopped, _⟩ := exists_fork_of_endless endless
      exact stopped
  | succ forks inductionHypothesis =>
      obtain ⟨next, nextEndless, _, moved⟩ := exists_fork_of_endless endless
      rw [moved]
      exact inductionHypothesis nextEndless

/-- The reference run comes to its end if it may fork often enough. -/
def RunsOut (instructions : List (Instruction κ)) : Prop :=
  ∃ forks, (reference forks instructions).stopped = false

theorem RunsOut.ran
    (runsOut : RunsOut rest)
    (goesOn : (instruction.isDelay && !rest.isEmpty) = false) :
    RunsOut (instruction :: rest) := by
  obtain ⟨forks, ended⟩ := runsOut
  exact ⟨forks, by rw [reference_ran goesOn]; exact ended⟩

/-- A delay at the end of a program does not fork, and any other goes on behind a fork. -/
theorem RunsOut.delay
    (runsOut : RunsOut (unrolled rest))
    (isDelay : instruction.isDelay = true) :
    RunsOut (instruction :: rest) := by
  cases rest with
  | nil =>
      exact RunsOut.ran ⟨0, rfl⟩ (by simp)
  | cons next later =>
      obtain ⟨forks, ended⟩ := runsOut
      refine ⟨forks + 1, ?_⟩
      rw [reference_moved (by simp [isDelay])]
      exact ended

/-- Whether a program runs out is decided at its first delay or echo. -/
theorem runsOut_of_first
    (delay : ∀ (rest : List (Instruction κ)) more behind, delayBlocks rest = more :: behind →
      (more + 1) :: behind = delayBlocks instructions → RunsOut (unrolled rest))
    (echo : ∀ rest : List (Instruction κ), 0 :: delayBlocks rest = delayBlocks instructions → RunsOut rest) :
    RunsOut instructions := by
  induction instructions with
  | nil =>
      exact ⟨0, rfl⟩
  | cons instruction rest inductionHypothesis =>
      cases isDelay : instruction.isDelay with
      | true =>
          cases counted : delayBlocks rest with
          | nil =>
              exact absurd counted (delayBlocks_ne_nil rest)
          | cons more behind =>
              refine (delay rest more behind counted ?_).delay isDelay
              rw [delayBlocks_delay isDelay, counted, Blocks.raised, Nat.add_comm]
      | false =>
          have goesOn : (instruction.isDelay && !rest.isEmpty) = false := by simp [isDelay]
          refine RunsOut.ran ?_ goesOn
          cases isEcho : instruction.isEcho with
          | true =>
              exact echo rest (delayBlocks_echo isEcho).symm
          | false =>
              rw [delayBlocks_other isDelay isEcho] at delay echo
              exact inductionHypothesis delay echo

theorem runsOut_of_ends
    (ends : Blocks.Ends blocks)
    (same : delayBlocks instructions = blocks) :
    RunsOut instructions := by
  -- a `skip` is an echo that is run and a `fork` is a delay, so the runs end as the blocks do
  induction ends generalizing instructions with
  | nil =>
      exact absurd same (delayBlocks_ne_nil instructions)
  | skip _ inductionHypothesis =>
      refine runsOut_of_first ?_ ?_
      · intro rest more behind _ first
        exact absurd (List.cons.inj (first.trans same)).1 (Nat.succ_ne_zero more)
      · intro rest first
        exact inductionHypothesis (List.cons.inj (first.trans same)).2
  | fork _ inductionHypothesis =>
      refine runsOut_of_first ?_ ?_
      · intro rest more behind counted first
        obtain ⟨sameMore, rfl⟩ := List.cons.inj (first.trans same)
        obtain rfl := Nat.succ.inj sameMore
        exact inductionHypothesis (delayBlocks_unrolled counted)
      · intro rest first
        exact absurd (List.cons.inj (first.trans same)).1.symm (Nat.succ_ne_zero _)

end reference

/-- Under a fork limit a cast of the context completes for this reason: whatever has happened and happens in a scheduler
with that limit, as long as nobody interrupts the cast it has been reported so when enough ticks have passed. -/
def CompletesWith (behaviour : Behaviour κ) (context : Context κ) (limit : Nat) (reason : Option CancelReason) :
    Prop :=
  ∀ (rules sparing : Rules κ) (scheduler : Scheduler κ) (realm : Realm) (before : History κ),
    scheduler.Made →
    Reaches rules behaviour (.start scheduler realm) before →
    before.scheduler.maxForks = limit →
    sparing.Spare before.scheduler.nextCast →
    ∃ ticks, ∀ after, Reaches sparing behaviour (before.cast context) after →
      before.scheduler.ticks + ticks ≤ after.scheduler.ticks →
      ∃ outcome ∈ after.completed, outcome.id = before.scheduler.nextCast ∧ outcome.cancelReason = reason

section CompletesWith

variable {context : Context κ} {limit : Nat}

theorem completesWith_reference
    (carries : behaviour.Carries embed)
    (fresh : context.Fresh)
    (standard : ∀ instruction ∈ context.program.instructions, Glyph.IsStandard embed instruction)
    (limit : Nat) :
    CompletesWith behaviour context limit (reference limit context.program.instructions).reason := by
  intro rules sparing scheduler realm before made reached limited spare
  subst limited
  refine ⟨(reference before.scheduler.maxForks context.program.instructions).ticks before.scheduler.maxSteps, ?_⟩
  intro after further elapsed
  obtain ⟨_, sameSteps, performs⟩ := reached.performs carries made fresh standard spare further
  obtain ⟨outcome, member, same, gives⟩ := performs.exists_outcome (sameSteps ▸ elapsed)
  exact ⟨outcome, member, same, gives.cancelReason⟩

/-- A standard cast completes for no other reason than the reference run has. -/
theorem CompletesWith.reason_eq
    {reason : Option CancelReason}
    (completes : CompletesWith behaviour context limit reason)
    (carries : behaviour.Carries embed)
    (fresh : context.Fresh)
    (standard : ∀ instruction ∈ context.program.instructions, Glyph.IsStandard embed instruction) :
    reason = (reference limit context.program.instructions).reason := by
  let rules : Rules κ := ⟨fun call => call = .tick, fun _ _ => False⟩
  let before : History κ := .start (Scheduler.empty.withMaxForks limit) .empty
  have made : before.scheduler.Made := .withMaxForks limit .empty
  have reached : Reaches rules behaviour before before := .origin
  have spare : rules.Spare before.scheduler.nextCast := by
    rintro call rfl
    exact id
  obtain ⟨ticks, reported⟩ := completes rules rules _ _ before made reached rfl spare
  have ticking : rules.calls .tick := rfl
  obtain ⟨after, further, counted⟩ := Reaches.exists_later ticking behaviour (before.cast context) ticks
  obtain ⟨outcome, member, same, because⟩ := reported after further (Nat.le_of_eq counted.symm)
  obtain ⟨accounts, _, performs⟩ := reached.performs carries made fresh standard spare further
  exact because.symm.trans (performs.gives accounts member same).2.cancelReason

end CompletesWith

/-- A delay and an echo, twice: each fork leaves the same program to the child, so no fork limit lets it run to its
end. -/
theorem delayEchoTwiceNeverEnds :
    let delay : Instruction Glyph := Glyph.instruction id 0 Glyph.delayId (.delay Glyph.defaultDelay)
    let echo : Instruction Glyph := Glyph.instruction id 1 Glyph.echoId (.echo Glyph.echoId Glyph.defaultTimes)
    let context : Context Glyph := .ofProgram (.ofInstructions [delay, echo, delay, echo])
    context.Fresh ∧ (∀ instruction ∈ context.program.instructions, Glyph.IsStandard id instruction) ∧
      ¬ ∃ limit, CompletesWith Glyph.behaviour context limit none := by
  intro delay echo context
  have fresh : context.Fresh := ⟨rfl, rfl, rfl⟩
  have once : ∀ instruction ∈ [delay, echo], Glyph.IsStandard id instruction :=
    List.forall_mem_cons.mpr ⟨Glyph.isStandard_delay 0, List.forall_mem_singleton.mpr (Glyph.isStandard_echo 1)⟩
  have standard : ∀ instruction ∈ context.program.instructions, Glyph.IsStandard id instruction :=
    List.forall_mem_append.mpr ⟨once, once⟩
  have endless : Blocks.Endless (delayBlocks context.program.instructions) := by decide
  refine ⟨fresh, standard, ?_⟩
  rintro ⟨limit, completes⟩
  have reason := completes.reason_eq Glyph.behaviour_carries fresh standard
  rw [Account.reason, stopped_of_endless endless limit] at reason
  exact absurd reason (by decide)

/-- A standard program whose blocks are not endless has a fork limit under which its casts run to their end; one whose
blocks are endless is stopped under every fork limit. -/
theorem standardCastsEndUnlessEndless
    {context : Context κ}
    (carries : behaviour.Carries embed)
    (fresh : context.Fresh)
    (standard : ∀ instruction ∈ context.program.instructions, Glyph.IsStandard embed instruction) :
    (¬ Blocks.Endless (delayBlocks context.program.instructions) →
      ∃ limit, CompletesWith behaviour context limit none) ∧
    (Blocks.Endless (delayBlocks context.program.instructions) →
      ∀ limit, CompletesWith behaviour context limit (some .terminated)) := by
  constructor
  · intro notEndless
    have ends := (Blocks.endless_or_ends _).resolve_left notEndless
    obtain ⟨limit, ended⟩ := runsOut_of_ends ends rfl
    have completes := completesWith_reference carries fresh standard limit
    rw [Account.reason, ended] at completes
    exact ⟨limit, completes⟩
  · intro endless limit
    have completes := completesWith_reference carries fresh standard limit
    rw [Account.reason, stopped_of_endless endless limit] at completes
    exact completes

/-- A delay and an echo run to their end under some fork limit, and twice in a row they are stopped under each. -/
theorem standardCastsEndUnlessEndless_delayEcho :
    let delay : Instruction Glyph := Glyph.instruction id 0 Glyph.delayId (.delay Glyph.defaultDelay)
    let echo : Instruction Glyph := Glyph.instruction id 1 Glyph.echoId (.echo Glyph.echoId Glyph.defaultTimes)
    let once : Context Glyph := .ofProgram (.ofInstructions [delay, echo])
    let twice : Context Glyph := .ofProgram (.ofInstructions [delay, echo, delay, echo])
    once.Fresh ∧ (∀ instruction ∈ once.program.instructions, Glyph.IsStandard id instruction) ∧
      twice.Fresh ∧ (∀ instruction ∈ twice.program.instructions, Glyph.IsStandard id instruction) ∧
      (∃ limit, CompletesWith Glyph.behaviour once limit none) ∧
      ∀ limit, CompletesWith Glyph.behaviour twice limit (some .terminated) := by
  intro delay echo once twice
  have fresh : once.Fresh ∧ twice.Fresh := ⟨⟨rfl, rfl, rfl⟩, ⟨rfl, rfl, rfl⟩⟩
  have standard : ∀ instruction ∈ once.program.instructions, Glyph.IsStandard id instruction :=
    List.forall_mem_cons.mpr ⟨Glyph.isStandard_delay 0, List.forall_mem_singleton.mpr (Glyph.isStandard_echo 1)⟩
  have standardTwice : ∀ instruction ∈ twice.program.instructions, Glyph.IsStandard id instruction :=
    List.forall_mem_append.mpr ⟨standard, standard⟩
  exact ⟨fresh.1, standard, fresh.2, standardTwice,
    (standardCastsEndUnlessEndless Glyph.behaviour_carries fresh.1 standard).1 (by decide),
    (standardCastsEndUnlessEndless Glyph.behaviour_carries fresh.2 standardTwice).2 (by decide)⟩

end Spellcast
