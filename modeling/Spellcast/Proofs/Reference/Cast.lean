import Spellcast.Proofs.Reference.Turn

/-!
# Standard casts follow the reference run

Between two ticks a standard cast that nobody interrupts has done a first part of the account that the reference run
gives, and what it stands before is the rest (`Follows`). Every turn takes it further or ends it with the outcome of
the whole account, whatever else is registered, interrupted or run in the meantime.
-/

namespace Spellcast

variable {κ : Type} {behaviour : Behaviour κ} {embed : Glyph → κ} {maxSteps maxForks : Nat}

def Context.wait (context : Context κ) : Nat :=
  match context.suspension with
  | none => 0
  | some suspension => (suspension.remaining - 1).toNat

/-- A context that has not run yet. -/
structure Context.Fresh (context : Context κ) : Prop where
  counter : context.counter = 0
  running : context.canceled = false
  awake : context.suspension = none

/-- A cast has done the first part of an account and stands before the rest of it. -/
structure Follows (embed : Glyph → κ) (maxSteps maxForks : Nat) (total : Account κ) (done : List (Instruction κ))
    (cast : InFlight) (context : Context κ) (left : Account κ) : Prop where
  stands : Stands embed maxForks cast context left
  executed : total.executed = done ++ left.executed
  stopped : total.stopped = left.stopped
  forks : total.forks = cast.forks + left.forks
  ticks : total.ticks maxSteps = cast.ticks + context.wait + left.ticks maxSteps
  steps : cast.steps = done.length

/-- The outcome of a cast that has done what the account says. -/
structure Outcome.Gives (outcome : Outcome κ) (maxSteps : Nat) (total : Account κ) : Prop where
  steps : outcome.steps = total.executed.length
  forks : outcome.forks = total.forks
  ticks : outcome.ticks = total.ticks maxSteps
  cancelReason : outcome.cancelReason = total.reason

theorem Stands.ahead_ne_nil
    {cast : InFlight}
    {context : Context κ}
    {account : Account κ}
    (stands : Stands embed maxForks cast context account)
    (nonempty : account.first ≠ []) :
    context.ahead ≠ [] := by
  intro exhausted
  apply nonempty
  rw [stands.account, exhausted, reference_nil]

/-- Where a cast stands does not depend on what has been counted for it, nor on how long it waits. -/
theorem Stands.recount
    {cast : InFlight}
    {context : Context κ}
    {account : Account κ}
    (stands : Stands embed maxForks cast context account)
    (after : InFlight)
    (suspension : Option Suspension)
    (forks : after.forks = cast.forks) :
    Stands embed maxForks after { context with suspension } account := by
  refine ⟨stands.running, stands.standard, ?_, ?_⟩
  · rw [forks]
    exact stands.granted
  · rw [forks]
    exact stands.account

namespace Turn

variable {turn woken : Turn κ} {cast : InFlight} {context : Context κ} {total left : Account κ}
  {done : List (Instruction κ)} {others : List InFlight}

/-- A context that need not wait in a tick runs in it, awake, where it stands. -/
theorem wake_of_no_wait
    (owns : Owns turn.arena (turn.cast :: others))
    (live : turn.arena.get? turn.cast.active = some context)
    (running : context.canceled = false)
    (due : context.wait = 0) :
    ∃ woken, turn.announced.wake context = (woken, false) ∧ Keeps others turn woken ∧ woken.cast = turn.cast ∧
      woken.steps = turn.steps ∧
      woken.arena.get? woken.cast.active = some { context with suspension := none } := by
  have announced : Keeps others turn turn.announced := keeps_announced owns
  have keeps := announced.trans (keeps_wake announced.owns context)
  cases suspended : context.suspension with
  | none =>
      have awake : turn.announced.wake context = (turn.announced, false) := by
        simp [wake, running, suspended]
      have same : { context with suspension := none } = context := by
        rw [← suspended]
      rw [awake] at keeps
      exact ⟨turn.announced, awake, keeps, rfl, rfl, by rw [same]; exact live⟩
  | some suspension =>
      have ended : suspension.remaining ≤ 1 := by
        rw [Context.wait, suspended] at due
        have spent : (suspension.remaining - 1).toNat = 0 := due
        omega
      have woke : turn.announced.wake context = (turn.announced.resumed context, false) :=
        wake_of_due running suspended ended
      rw [woke] at keeps
      exact ⟨_, woke, keeps, rfl, rfl, Arena.get?_set_self live⟩

theorem verdict_of_end
    (live : turn.arena.get? turn.cast.active = some context)
    (awake : context.suspension = none)
    (atEnd : context.ahead = []) :
    turn.verdict = .finished := by
  have exhausted : context.hasNext = false := by
    rw [Bool.eq_false_iff]
    exact fun next => Nat.not_lt.mpr (Context.ahead_eq_nil_iff.mp atEnd) (Context.hasNext_iff.mp next).2.2
  exact verdict_of_exhausted live exhausted (Context.isSuspended_of_none awake)

/-- After a turn a standard cast stands further on in its account, or the turn has ended it with the outcome of the
whole account. -/
inductive Followed (embed : Glyph → κ) (maxSteps maxForks : Nat) (total : Account κ) (done : List (Instruction κ))
    (after : Turn κ) : Verdict → Prop
  | further {context : Context κ} {left : Account κ} :
      after.arena.get? after.cast.active = some context →
      Follows embed maxSteps maxForks total done after.cast context left →
      Followed embed maxSteps maxForks total done after .running
  | ended :
      done = total.executed →
      (Scheduler.outcome after.cast (after.arena.get? after.cast.active)).Gives maxSteps total →
      Followed embed maxSteps maxForks total done after .finished

section Followed

variable {before after : Turn κ} {final : Context κ}

theorem counted_steps
    (counted : after.steps = min maxSteps left.first.length) :
    after.counted.left.cast.steps = after.cast.steps + min maxSteps left.first.length := by
  rw [← counted]
  rfl

theorem Followed.of_partway
    (positive : 0 < maxSteps)
    (follows : Follows embed maxSteps maxForks total done cast context left)
    (due : context.wait = 0)
    (short : maxSteps < left.first.length)
    (same : after.cast = { cast with ticks := cast.ticks + 1 })
    (counted : after.steps = min maxSteps left.first.length)
    (live : after.arena.get? after.cast.active = some final)
    (stands : Stands embed maxForks after.cast final { left with first := left.first.drop maxSteps })
    (awake : final.suspension = none) :
    Followed embed maxSteps maxForks total (done ++ left.first.take maxSteps) after.counted.left .running := by
  have forks := follows.forks
  have ticks := follows.ticks
  have steps := follows.steps
  have stepsBefore : after.cast.steps = cast.steps := by rw [same]
  have dropped := Account.ticks_drop positive short
  have standsAfter :
      Stands embed maxForks after.counted.left.cast final { left with first := left.first.drop maxSteps } :=
    stands.recount after.counted.left.cast final.suspension rfl
  refine .further live ⟨standsAfter, ?_, follows.stopped, ?_, ?_, ?_⟩
  · rw [follows.executed, List.append_assoc]
    congr 1
    simp only [Account.executed, Account.contexts, List.flatten_cons]
    rw [← List.append_assoc, List.take_append_drop]
  · simp only [Turn.left, Turn.counted, same]
    exact forks
  · simp only [Turn.left, Turn.counted, same, Context.wait, awake]
    omega
  · rw [counted_steps counted, stepsBefore, List.length_append, List.length_take]
    omega

/-- A turn that has run the last context of the account ends the cast with the outcome of the whole account. -/
theorem Followed.of_last
    (follows : Follows embed maxSteps maxForks total done cast context left)
    (due : context.wait = 0)
    (fits : left.first.length ≤ maxSteps)
    (last : left.further = [])
    (same : after.cast = { cast with ticks := cast.ticks + 1 })
    (counted : after.steps = min maxSteps left.first.length)
    (live : after.arena.get? after.cast.active = some final)
    (reason : (Scheduler.outcome after.counted.left.cast (some final)).cancelReason = left.reason) :
    Followed embed maxSteps maxForks total (done ++ left.first.take maxSteps) after.counted.left .finished := by
  have whole : left.executed = left.first := by
    simp [Account.executed, Account.contexts, last]
  have noForks : left.forks = 0 := by
    simp [Account.forks, last]
  have oneTick : left.ticks maxSteps = 1 := by
    obtain ⟨first, further, stopped⟩ := left
    subst last
    exact Account.ticks_of_le fits
  have executed : total.executed = done ++ left.first := by
    rw [follows.executed, whole]
  have steps : after.counted.left.cast.steps = cast.steps + left.first.length := by
    rw [counted_steps counted, same, Nat.min_eq_right fits]
  have outcomeOfFinal :
      Scheduler.outcome after.counted.left.cast (after.counted.left.arena.get? after.counted.left.cast.active) =
        Scheduler.outcome after.counted.left.cast (some final) :=
    congrArg _ live
  refine .ended (by rw [List.take_of_length_le fits, executed]) ?_
  rw [outcomeOfFinal]
  constructor
  · rw [Scheduler.outcome, steps, follows.steps, executed, List.length_append]
  · simp only [Scheduler.outcome, Turn.left, Turn.counted, same]
    rw [follows.forks, noForks, Nat.add_zero]
  · simp only [Scheduler.outcome, Turn.left, Turn.counted, same]
    rw [follows.ticks, due, oneTick, Nat.add_zero]
  · rw [reason, Account.reason, Account.reason, follows.stopped]

theorem Followed.of_waits
    {next : List (Instruction κ)}
    {further : List (List (Instruction κ))}
    (follows : Follows embed maxSteps maxForks total done cast context left)
    (due : context.wait = 0)
    (fits : left.first.length ≤ maxSteps)
    (more : left.further = next :: further)
    (same : after.cast = InFlight.moved { cast with ticks := cast.ticks + 1 } after.cast.active)
    (counted : after.steps = min maxSteps left.first.length)
    (live : after.arena.get? after.cast.active = some final)
    (stands : Stands embed maxForks after.cast final ⟨next, further, left.stopped⟩)
    (suspended : final.suspension = some ⟨Glyph.defaultDelay⟩) :
    Followed embed maxSteps maxForks total (done ++ left.first.take maxSteps) after.counted.left .running := by
  have forks := follows.forks
  have ticks := follows.ticks
  have steps := follows.steps
  have waiting : final.wait = 19 := by
    rw [Context.wait, suspended]
    rfl
  have forksAfter : after.counted.left.cast.forks = cast.forks + 1 := by
    change after.cast.forks = _
    rw [same]
    rfl
  have ticksAfter : after.counted.left.cast.ticks = cast.ticks + 1 := by
    change after.cast.ticks = _
    rw [same]
    rfl
  have stepsBefore : after.cast.steps = cast.steps := by
    rw [same]
    rfl
  have moved :
      Account.ticks maxSteps ⟨left.first, next :: further, left.stopped⟩ =
        Account.turns maxSteps left.first + 19 + Account.ticks maxSteps ⟨next, further, left.stopped⟩ :=
    Account.ticks_moved
  have oneTurn := Account.turns_of_le fits
  have whole : left = ⟨left.first, next :: further, left.stopped⟩ := by
    rw [← more]
  have standsAfter : Stands embed maxForks after.counted.left.cast final ⟨next, further, left.stopped⟩ :=
    stands.recount after.counted.left.cast final.suspension rfl
  refine .further live ⟨standsAfter, ?_, follows.stopped, ?_, ?_, ?_⟩
  · rw [follows.executed, whole, List.append_assoc, List.take_of_length_le fits]
    rfl
  · rw [whole] at forks
    simp only [Account.forks, List.length_cons] at forks ⊢
    omega
  · rw [whole, due] at ticks
    omega
  · rw [counted_steps counted, stepsBefore, List.length_append, List.length_take]
    omega

/-- How a run ends decides how the turn does. -/
theorem Ran.followed
    (positive : 0 < maxSteps)
    (follows : Follows embed maxSteps maxForks total done cast context left)
    (due : context.wait = 0)
    (started : before.cast = { cast with ticks := cast.ticks + 1 })
    (counted : after.steps = min maxSteps left.first.length)
    (ran : Ran embed maxForks maxSteps left before after) :
    Followed embed maxSteps maxForks total (done ++ left.first.take maxSteps) after.counted.left after.verdict := by
  cases ran with
  | partway short same live stands awake =>
      have notNil : left.first.drop maxSteps ≠ [] := by
        rw [Ne, List.drop_eq_nil_iff]
        exact Nat.not_le.mpr short
      have next := Context.hasNext_of_ahead stands.running awake (stands.ahead_ne_nil notNil)
      rw [verdict_of_more live stands.running (.inl next)]
      exact .of_partway positive follows due short (same.trans started) counted live stands awake
  | ended fits further stopped same live running awake ahead =>
      rw [verdict_of_end live awake ahead]
      refine .of_last follows due fits further (same.trans started) counted live ?_
      simp [Scheduler.outcome, running, Account.reason, stopped]
  | stopped fits further stopped same live canceled terminated =>
      rw [verdict_of_canceled live canceled]
      refine .of_last follows due fits further (same.trans started) counted live ?_
      simp [Scheduler.outcome, Option.filter, canceled, terminated, Account.reason, stopped]
  | @waits final next rest fits further same live stands suspended =>
      have pending : final.isSuspended = true := by
        simp [Context.isSuspended, suspended, Suspension.isPending, Glyph.defaultDelay]
      rw [verdict_of_more live stands.running (.inr pending)]
      rw [started] at same
      exact .of_waits follows due fits further same counted live stands suspended

end Followed

/-- A turn takes a standard cast further in its account or ends it with the outcome of the whole account. -/
theorem take_follows
    (carries : behaviour.Carries embed)
    (positive : 0 < maxSteps)
    (owns : Owns turn.arena (turn.cast :: others))
    (live : turn.arena.get? turn.cast.active = some context)
    (started : turn.cast = { cast with ticks := cast.ticks + 1 })
    (uncounted : turn.steps = 0)
    (follows : Follows embed maxSteps maxForks total done cast context left) :
    Followed embed maxSteps maxForks total (done ++ turn.taken behaviour maxSteps maxForks)
      (turn.take behaviour maxSteps maxForks).1 (turn.take behaviour maxSteps maxForks).2 := by
  cases waits : context.wait with
  | zero =>
      obtain ⟨woken, woke, keeps, sameCast, sameSteps, awake⟩ :=
        wake_of_no_wait owns live follows.stands.running waits
      have stands : Stands embed maxForks woken.cast { context with suspension := none } left :=
        follows.stands.recount woken.cast none (by rw [sameCast, started])
      obtain ⟨executed, counted, ran⟩ := run_reference carries keeps.owns awake stands rfl maxSteps
      rw [take_of_wakes live woke, taken_of_wakes live woke, executed]
      refine ran.followed positive follows waits (sameCast.trans started) ?_
      rw [counted, sameSteps, uncounted, Nat.zero_add]
  | succ rest =>
      cases suspended : context.suspension with
      | none =>
          simp [Context.wait, suspended] at waits
      | some suspension =>
          have more : (suspension.remaining - 1).toNat = rest + 1 := by
            rw [Context.wait, suspended] at waits
            exact waits
          have long : 1 < suspension.remaining := by omega
          have woke :
              turn.announced.wake context = (turn.announced.waited context (suspension.remaining - 1), true) :=
            wake_of_waiting follows.stands.running suspended long
          rw [take_of_waits live woke, taken_of_waits live woke, List.append_nil]
          have later : Follows embed maxSteps maxForks total done turn.cast
              { context with suspension := some ⟨suspension.remaining - 1⟩ } left := by
            have shorter : (suspension.remaining - 1 - 1).toNat = rest := by omega
            have ticks := follows.ticks
            have stands :
                Stands embed maxForks { cast with ticks := cast.ticks + 1 }
                  { context with suspension := some ⟨suspension.remaining - 1⟩ } left :=
              follows.stands.recount _ _ rfl
            rw [started]
            refine ⟨stands, follows.executed, follows.stopped, follows.forks, ?_, follows.steps⟩
            simp only [Context.wait, suspended] at ticks ⊢
            omega
          exact .further (Arena.get?_set_self live) later

end Turn

end Spellcast
