import Mathlib.Logic.Function.Iterate
import Spellcast.Proofs.Focus
import Spellcast.Proofs.Standard

/-!
# Schedulers become idle

A fork may replace the program of a cast by a longer one, and an effect may suspend it for any time. Still every turn
brings a cast nearer to its end as long as effects do not rewrite programs and do not go back: it uses up one of the
forks that are left, or else runs some of the instructions that are left, or else waits one tick less. So every cast
is completed some time, and the loops that tick until nothing is in flight come to their end.
-/

namespace Spellcast

variable {κ : Type} {behaviour : Behaviour κ} {maxSteps maxForks : Nat} {others : List InFlight}

/-- The effect of a code leaves the program of its context alone and never moves the counter backwards. -/
def Behaviour.Onward (behaviour : Behaviour κ) (code : κ) : Prop :=
  ∀ context realm,
    (behaviour.cast code context realm).2.1.program = context.program ∧
      context.counter ≤ (behaviour.cast code context realm).2.1.counter

theorem Behaviour.Carries.onward
    {embed : Glyph → κ}
    (carries : behaviour.Carries embed)
    (glyph : Glyph) :
    behaviour.Onward (embed glyph) := by
  intro context realm
  rw [carries.cast]
  cases glyph with
  | delay ticks =>
      by_cases atEnd : context.program.length ≤ context.counter
      · rw [Glyph.cast_delay_of_end atEnd]
        exact ⟨rfl, Nat.le_refl _⟩
      · rw [Glyph.cast_delay_of_rest (Nat.not_le.mp atEnd)]
        exact ⟨rfl, Nat.le_refl _⟩
  | jump strength => exact ⟨rfl, Nat.le_refl _⟩
  | mark counter => exact ⟨rfl, Nat.le_refl _⟩
  | ward => exact ⟨rfl, Nat.le_refl _⟩
  | echo id times => exact ⟨rfl, Nat.le_refl _⟩

/-- What a cast with this active context has left: forks, instructions of the context, and ticks to wait. -/
def InFlight.left (maxForks : Nat) (cast : InFlight) (context : Context κ) : Nat × Nat × Nat :=
  (maxForks - cast.forks, context.program.length - context.counter,
    match context.suspension with
    | none => 0
    | some suspension => suspension.remaining.toNat)

/-- Fewer forks, or as many forks and fewer instructions, or as many of both and a shorter wait. -/
def Less : Nat × Nat × Nat → Nat × Nat × Nat → Prop := Prod.Lex (· < ·) (Prod.Lex (· < ·) (· < ·))

theorem less_wellFounded : WellFounded Less :=
  (Prod.lex Nat.lt_wfRel (Prod.lex Nat.lt_wfRel Nat.lt_wfRel)).wf

namespace Turn

variable {turn middle after : Turn κ} {context later : Context κ}

/-- A cast with this active context has come further: it has moved into a child, or it stands at a later instruction of
the same program. -/
inductive Advanced (maxForks : Nat) (turn : Turn κ) (context : Context κ) (after : Turn κ) : Prop
  | forked :
      turn.cast.forks < maxForks →
      turn.cast.forks < after.cast.forks →
      Advanced maxForks turn context after
  | further {later : Context κ} :
      after.cast = turn.cast →
      after.arena.get? after.cast.active = some later →
      later.program = context.program →
      context.counter < later.counter →
      Advanced maxForks turn context after

theorem Advanced.trans
    (earlier : Advanced maxForks turn context middle)
    (live : middle.arena.get? middle.cast.active = some later)
    (further : Advanced maxForks middle later after) :
    Advanced maxForks turn context after := by
  cases earlier with
  | forked granted fewer =>
      cases further with
      | forked _ again => exact .forked granted (Nat.lt_trans fewer again)
      | further cast _ _ _ => exact .forked granted (cast ▸ fewer)
  | further cast found program counter =>
      have same := Option.some.inj (live.symm.trans found)
      subst same
      cases further with
      | forked granted again =>
          rw [cast] at granted again
          exact .forked granted again
      | further castAgain liveAfter programAgain counterAgain =>
          exact .further (castAgain.trans cast) liveAfter (programAgain.trans program)
            (Nat.lt_trans counter counterAgain)

/-- How a cast waits at the start does not matter for how far it has come. -/
theorem Advanced.of_same
    (advanced : Advanced maxForks middle later after)
    (cast : middle.cast = turn.cast)
    (program : later.program = context.program)
    (counter : later.counter = context.counter) :
    Advanced maxForks turn context after := by
  cases advanced with
  | forked granted fewer =>
      rw [cast] at granted fewer
      exact .forked granted fewer
  | further sameCast live sameProgram greater =>
      rw [counter] at greater
      exact .further (sameCast.trans cast) live (sameProgram.trans program) greater

/-- A step that runs an instruction brings the cast further. -/
theorem step_advances
    (owns : Owns turn.arena (turn.cast :: others))
    (live : turn.arena.get? turn.cast.active = some context)
    (next : context.hasNext = true)
    (onward : ∀ instruction ∈ turn.next?, behaviour.Onward instruction.effect.code) :
    Advanced maxForks turn context (turn.step behaviour maxForks).1 := by
  have cases := step_cases behaviour maxForks live (known owns)
  generalize (turn.step behaviour maxForks).1 = after at cases ⊢
  generalize (turn.step behaviour maxForks).2 = goesOn at cases
  -- an instruction that runs leaves the context at a later place of the same program
  have moves {instruction : Instruction κ} {resolution : Resolution} {before left : Context κ} {realm : Realm}
      (runs : turn.Runs behaviour before instruction resolution left realm) :
      left.program = context.program ∧ context.counter < left.counter := by
    have same : before = context := Option.some.inj (runs.live.symm.trans live)
    have kept := onward instruction (next?_eq runs.live runs.next runs.found) before.stepped
      (turn.castingRealm behaviour instruction)
    rw [runs.cast, same] at kept
    exact ⟨kept.1, kept.2⟩
  cases cases with
  | exhausted found exhausted =>
      rw [Option.some.inj (found.symm.trans live), next] at exhausted
      contradiction
  | proceed runs =>
      exact .further rfl (ran_live live) (moves runs).1 (moves runs).2
  | @limit _ left _ realm runs _ =>
      have stopped :
          ((turn.ran left realm).stoppedAtLimit maxForks left).arena.get? turn.cast.active = some left.stopped :=
        Arena.get?_set_self (ran_live live)
      exact .further rfl stopped (moves runs).1 (moves runs).2
  | fork _ below =>
      exact .forked below (Nat.lt_succ_self _)

/-- A run brings the cast further if it runs anything at all. -/
theorem run_advances
    {budget : Nat}
    (positive : 0 < budget)
    (owns : Owns turn.arena (turn.cast :: others))
    (live : turn.arena.get? turn.cast.active = some context)
    (next : context.hasNext = true)
    (onward : ∀ instruction ∈ turn.executed behaviour maxForks budget, behaviour.Onward instruction.effect.code) :
    Advanced maxForks turn context (turn.run behaviour maxForks budget) := by
  induction budget generalizing turn context with
  | zero =>
      exact absurd positive (Nat.lt_irrefl 0)
  | succ budget inductionHypothesis =>
      have keeps := keeps_step behaviour maxForks owns
      rcases stepped : turn.step behaviour maxForks with ⟨middle, goesOn⟩
      have first : Advanced maxForks turn context (turn.step behaviour maxForks).1 := by
        refine step_advances owns live next ?_
        intro instruction isNext
        apply onward instruction
        cases goesOn with
        | false =>
            rw [executed_of_stop stepped]
            exact Option.mem_toList.mpr isNext
        | true =>
            rw [executed_of_go stepped]
            exact List.mem_append_left _ (Option.mem_toList.mpr isNext)
      rw [stepped] at keeps first
      cases goesOn with
      | false =>
          rw [run_of_stop stepped]
          exact first
      | true =>
          obtain ⟨later, middleLive⟩ := active_live keeps.owns
          rw [run_of_go stepped]
          by_cases more : 0 < budget ∧ later.hasNext = true
          · refine first.trans middleLive (inductionHypothesis more.1 keeps.owns middleLive more.2 ?_)
            intro instruction member
            apply onward instruction
            rw [executed_of_go stepped]
            exact List.mem_append_right _ member
          · have stays : middle.run behaviour maxForks budget = middle := by
              by_cases spent : budget = 0
              · rw [spent, run]
              · have exhausted : later.hasNext = false := by
                  rw [Bool.eq_false_iff]
                  exact fun next => more ⟨Nat.pos_of_ne_zero spent, next⟩
                exact (run_of_exhausted behaviour maxForks middleLive exhausted budget).1
            rw [stays]
            exact first

/-- Who has come further has less left. -/
theorem Advanced.less
    (advanced : Advanced maxForks turn context after)
    (inside : context.counter < context.program.length)
    (live : after.arena.get? after.cast.active = some later) :
    Less (after.cast.left maxForks later) (turn.cast.left maxForks context) := by
  cases advanced with
  | forked granted fewer =>
      apply Prod.Lex.left
      omega
  | further cast found program counter =>
      have same := Option.some.inj (live.symm.trans found)
      subst same
      rw [InFlight.left, InFlight.left, cast, program]
      apply Prod.Lex.right
      apply Prod.Lex.left
      omega

/-- After waking up a cast that need not wait stands where it stood, and nothing suspends it unless it is canceled. -/
theorem exists_woken
    {woken : Turn κ}
    (live : turn.arena.get? turn.cast.active = some context)
    (woke : turn.announced.wake context = (woken, false)) :
    woken.cast = turn.cast ∧
      ∃ awake, woken.arena.get? woken.cast.active = some awake ∧ awake.program = context.program ∧
        awake.counter = context.counter ∧ (awake.canceled = true ∨ awake.suspension = none) := by
  have cases := wake_cases turn.announced context
  rw [woke] at cases
  cases cases with
  | awake settled =>
      exact ⟨rfl, context, live, rfl, rfl, settled⟩
  | resumes _ _ _ =>
      exact ⟨rfl, { context with suspension := none }, Arena.get?_set_self live, rfl, rfl, .inr rfl⟩

/-- After its turn a cast has less left than before, or it is finished. -/
theorem take_less
    (positive : 0 < maxSteps)
    (owns : Owns turn.arena (turn.cast :: others))
    (live : turn.arena.get? turn.cast.active = some context)
    (onward : ∀ instruction ∈ turn.taken behaviour maxSteps maxForks, behaviour.Onward instruction.effect.code)
    (goesOn : turn.take behaviour maxSteps maxForks = (after, .running)) :
    ∃ later, after.arena.get? after.cast.active = some later ∧
      Less (after.cast.left maxForks later) (turn.cast.left maxForks context) := by
  have announced := keeps_announced owns
  have woken := announced.trans (keeps_wake announced.owns context)
  rcases woke : turn.announced.wake context with ⟨next, waits⟩
  rw [woke] at woken
  cases waits with
  | true =>
      rw [take_of_waits live woke] at goesOn
      obtain ⟨rfl, -⟩ := Prod.mk.inj goesOn
      have cases := wake_cases turn.announced context
      rw [woke] at cases
      cases cases with
      | @waits suspension _ suspended long =>
          refine ⟨_, Arena.get?_set_self live, ?_⟩
          rw [InFlight.left, InFlight.left, suspended]
          apply Prod.Lex.right
          apply Prod.Lex.right
          change (suspension.remaining - 1).toNat < suspension.remaining.toNat
          omega
  | false =>
      obtain ⟨sameCast, awake, awakeLive, program, counter, settled⟩ := exists_woken live woke
      rw [take_of_wakes live woke] at goesOn
      rw [taken_of_wakes live woke] at onward
      obtain ⟨rfl, running⟩ := Prod.mk.inj goesOn
      cases next : awake.hasNext with
      | true =>
          have inside := (Context.hasNext_iff.mp next).2.2
          rw [program, counter] at inside
          have ran := run_advances positive woken.owns awakeLive next onward
          obtain ⟨later, laterLive⟩ := active_live (keeps_run behaviour maxForks maxSteps woken.owns).owns
          exact ⟨later, laterLive, (ran.of_same sameCast program counter).less inside laterLive⟩
      | false =>
          rw [(run_of_exhausted behaviour maxForks awakeLive next maxSteps).1] at running
          by_cases canceled : awake.canceled = true
          · rw [verdict_of_canceled awakeLive canceled] at running
            contradiction
          · rw [verdict_of_exhausted awakeLive next
              (Context.isSuspended_of_none (settled.resolve_left canceled))] at running
            contradiction

end Turn

namespace History

variable {history : History κ} {cast : InFlight} {context : Context κ} {id : CastId}

def afterTicks (behaviour : Behaviour κ) (ticks : Nat) (history : History κ) : History κ :=
  (History.tick behaviour)^[ticks] history

/-- Every instruction that comes to run in the ticks from now on has an effect that leaves programs alone and never
moves counters backwards. -/
def GoesOnward (behaviour : Behaviour κ) (history : History κ) : Prop :=
  ∀ ticks, ∀ entry ∈ (history.afterTicks behaviour ticks).scheduler.executed behaviour
    (history.afterTicks behaviour ticks).realm, behaviour.Onward entry.2.effect.code

theorem GoesOnward.tick
    (onward : history.GoesOnward behaviour) :
    (history.tick behaviour).GoesOnward behaviour :=
  fun ticks => onward (ticks + 1)

theorem tick_castIds
    (owns : history.Owns) :
    (history.tick behaviour).scheduler.castIds.Sublist history.scheduler.castIds :=
  (Scheduler.tick_ids behaviour owns history.realm).1

theorem afterTicks_owns
    (owns : history.Owns)
    (ticks : Nat) :
    (history.afterTicks behaviour ticks).Owns := by
  induction ticks generalizing history with
  | zero =>
      exact owns
  | succ ticks inductionHypothesis =>
      exact inductionHypothesis (Scheduler.tick_owns owns history.realm)

theorem afterTicks_castIds
    (owns : history.Owns)
    (ticks : Nat) :
    (history.afterTicks behaviour ticks).scheduler.castIds.Sublist history.scheduler.castIds := by
  induction ticks generalizing history with
  | zero =>
      exact List.Sublist.refl _
  | succ ticks inductionHypothesis =>
      have next : (history.tick behaviour).Owns := Scheduler.tick_owns owns history.realm
      exact (inductionHypothesis next).trans (tick_castIds owns)

/-- A tick completes a cast or leaves it less to do. -/
theorem tick_less
    (positive : 0 < history.scheduler.maxSteps)
    (owns : history.Owns)
    (accounts : history.Accounts)
    (onward : history.GoesOnward behaviour)
    (member : cast ∈ history.scheduler.casts)
    (live : history.scheduler.arena.get? cast.active = some context) :
    cast.id ∉ (history.tick behaviour).scheduler.castIds ∨
      ∃ after ∈ (history.tick behaviour).scheduler.casts, after.id = cast.id ∧
        ∃ later, (history.tick behaviour).scheduler.arena.get? after.active = some later ∧
          Less (after.left history.scheduler.maxForks later) (cast.left history.scheduler.maxForks context) := by
  obtain ⟨turn, turned⟩ := Scheduler.exists_turned behaviour owns accounts.castIds_nodup member history.realm
  obtain ⟨others, turnOwns⟩ := turned.owns
  have keeps := Turn.keeps_take behaviour history.scheduler.maxSteps history.scheduler.maxForks turnOwns
  rcases taken : turn.take behaviour history.scheduler.maxSteps history.scheduler.maxForks with ⟨after, verdict⟩
  rw [taken] at keeps
  have sameId : after.cast.id = cast.id := by
    rw [keeps.sameId, turned.started]
  cases verdict with
  | finished =>
      left
      have reported : cast.id ∈ (history.tick behaviour).completedIds := by
        have outcome := turned.finished after taken
        refine List.mem_flatMap.mpr ⟨_, List.mem_append_right _ (List.mem_singleton_self _), ?_⟩
        exact sameId ▸ List.mem_map_of_mem outcome
      exact (accounts.tick owns).not_mem_castIds reported
  | running =>
      right
      obtain ⟨stays, sameContexts⟩ := turned.running after taken
      have active : cast.active ∈ cast.contexts := (owns.coherent _ member).active_mem
      have turnLive : turn.arena.get? turn.cast.active = some context := by
        rw [turned.started]
        exact (turned.same _ active).trans live
      have ranOnward : ∀ instruction ∈ turn.taken behaviour history.scheduler.maxSteps history.scheduler.maxForks,
          behaviour.Onward instruction.effect.code := by
        intro instruction ran
        have own : (cast.id, instruction) ∈
            (history.scheduler.executed behaviour history.realm).filter (·.1 == cast.id) := by
          rw [turned.executed]
          exact List.mem_map_of_mem ran
        exact onward 0 _ (List.mem_filter.mp own).1
      obtain ⟨later, laterLive, less⟩ := Turn.take_less positive turnOwns turnLive ranOnward taken
      have afterActive := (keeps.owns.coherent _ List.mem_cons_self).active_mem
      rw [turned.started] at less
      exact ⟨after.cast, stays, sameId, later, (sameContexts _ afterActive).trans laterLive, less⟩

/-- Every cast in flight is gone after some ticks. -/
theorem exists_gone
    (positive : 0 < history.scheduler.maxSteps)
    (owns : history.Owns)
    (accounts : history.Accounts)
    (onward : history.GoesOnward behaviour)
    (member : cast ∈ history.scheduler.casts)
    (live : history.scheduler.arena.get? cast.active = some context) :
    ∃ ticks, cast.id ∉ (history.afterTicks behaviour ticks).scheduler.castIds := by
  -- on what the cast has left, which gets less with every tick
  generalize isLeft : cast.left history.scheduler.maxForks context = left
  induction left using less_wellFounded.induction generalizing history cast context with
  | _ left inductionHypothesis =>
  rcases tick_less positive owns accounts onward member live with
    gone | ⟨after, stays, sameId, later, laterLive, less⟩
  · exact ⟨1, gone⟩
  · have next : (history.tick behaviour).Owns := Scheduler.tick_owns owns history.realm
    have stillPositive : 0 < (history.tick behaviour).scheduler.maxSteps := positive
    rw [isLeft] at less
    obtain ⟨ticks, gone⟩ :=
      inductionHypothesis _ less stillPositive next (accounts.tick owns) onward.tick stays laterLive rfl
    rw [sameId] at gone
    exact ⟨ticks + 1, gone⟩

/-- After some ticks none of some casts in flight is left. -/
theorem exists_all_gone
    (positive : 0 < history.scheduler.maxSteps)
    (owns : history.Owns)
    (accounts : history.Accounts)
    (onward : history.GoesOnward behaviour)
    (casts : List InFlight)
    (inFlight : ∀ cast ∈ casts, cast ∈ history.scheduler.casts) :
    ∃ ticks, ∀ cast ∈ casts, cast.id ∉ (history.afterTicks behaviour ticks).scheduler.castIds := by
  induction casts with
  | nil =>
      exact ⟨0, fun _ member => absurd member List.not_mem_nil⟩
  | cons first casts inductionHypothesis =>
      have firstInFlight := inFlight first List.mem_cons_self
      obtain ⟨context, live⟩ := owns.active_live firstInFlight
      obtain ⟨firstTicks, firstGone⟩ := exists_gone positive owns accounts onward firstInFlight live
      obtain ⟨ticks, gone⟩ := inductionHypothesis fun cast member => inFlight cast (List.mem_cons_of_mem _ member)
      have afterFirst :
          history.afterTicks behaviour (ticks + firstTicks) =
            (history.afterTicks behaviour firstTicks).afterTicks behaviour ticks :=
        Function.iterate_add_apply _ _ _ _
      have afterRest :
          history.afterTicks behaviour (ticks + firstTicks) =
            (history.afterTicks behaviour ticks).afterTicks behaviour firstTicks := by
        rw [Nat.add_comm]
        exact Function.iterate_add_apply _ _ _ _
      refine ⟨ticks + firstTicks, ?_⟩
      intro cast member back
      rcases List.mem_cons.mp member with isFirst | isLater
      · rw [afterFirst] at back
        rw [isFirst] at back
        exact firstGone ((afterTicks_castIds (afterTicks_owns owns firstTicks) ticks).subset back)
      · rw [afterRest] at back
        exact gone cast isLater ((afterTicks_castIds (afterTicks_owns owns ticks) firstTicks).subset back)

end History

namespace Scheduler

variable {history : History κ} {scheduler : Scheduler κ} {realm : Realm}

/-- A scheduler that is idle after so many ticks is idle when it has run until then. -/
theorem runUntilIdle_isIdle
    (ticks : Nat)
    (idle : (history.afterTicks behaviour ticks).scheduler.isIdle = true) :
    (history.scheduler.runUntilIdle behaviour ticks history.realm).2.1.isIdle = true := by
  induction ticks generalizing history with
  | zero =>
      exact idle
  | succ ticks inductionHypothesis =>
      by_cases already : history.scheduler.isIdle = true
      · rw [runUntilIdle, if_pos already]
        exact already
      · have next : ((history.tick behaviour).afterTicks behaviour ticks).scheduler.isIdle = true := idle
        rw [runUntilIdle, if_neg already]
        exact inductionHypothesis next

/-- Driving with enough patience ends where running ends. -/
theorem drive_eq_runUntilIdle
    (ticks patience : Nat)
    (enough : ticks ≤ patience)
    (idle : (scheduler.runUntilIdle behaviour ticks realm).2.1.isIdle = true) :
    (scheduler.drive behaviour patience realm).2 = (scheduler.runUntilIdle behaviour ticks realm).2 := by
  induction ticks generalizing patience scheduler realm with
  | zero =>
      have already : scheduler.isIdle = true := idle
      rw [drive, if_pos already, runUntilIdle]
  | succ ticks inductionHypothesis =>
      by_cases already : scheduler.isIdle = true
      · rw [drive, if_pos already, runUntilIdle, if_pos already]
      · obtain ⟨less, rfl⟩ : ∃ less, patience = less + 1 := ⟨patience - 1, by omega⟩
        rcases ticked : scheduler.tick behaviour realm with ⟨report, next, after⟩
        have run : (scheduler.runUntilIdle behaviour (ticks + 1) realm).2 =
            (next.runUntilIdle behaviour ticks after).2 := by
          simp [runUntilIdle, already, ticked]
        rw [run] at idle ⊢
        rw [drive, if_neg already]
        simp only [ticked]
        split
        · exact inductionHypothesis (less + 1) (by omega) idle
        · exact inductionHypothesis less (by omega) idle

end Scheduler

/-- Whatever has happened to a scheduler: if every instruction that comes to run has an effect that leaves programs
alone and never moves counters backwards, then the scheduler is idle after some ticks, however long the programs are
that children are supplied with and however long effects suspend them. So the loops that tick until nothing is in
flight end. -/
theorem schedulersBecomeIdle
    {rules : Rules κ}
    {scheduler : Scheduler κ}
    {realm : Realm}
    {history : History κ}
    (made : scheduler.Made)
    (reached : Reaches rules behaviour (.start scheduler realm) history)
    (onward : history.GoesOnward behaviour) :
    ∃ limit, ∀ longer, limit ≤ longer →
      let final := (history.scheduler.runUntilIdle behaviour longer history.realm).2
      final.1.isIdle = true ∧ (history.scheduler.drive behaviour longer history.realm).2 = final := by
  have owns := reached.owns made
  have positive := reached.maxSteps_pos made
  obtain ⟨limit, gone⟩ := History.exists_all_gone positive owns (reached.accounts made) onward
    history.scheduler.casts fun _ member => member
  refine ⟨limit, ?_⟩
  intro longer enough final
  have idle : (history.afterTicks behaviour longer).scheduler.isIdle = true := by
    have split : history.afterTicks behaviour longer =
        (history.afterTicks behaviour limit).afterTicks behaviour (longer - limit) := by
      rw [History.afterTicks, History.afterTicks, History.afterTicks, ← Function.iterate_add_apply,
        Nat.sub_add_cancel enough]
    have nobody : (history.afterTicks behaviour longer).scheduler.castIds = [] := by
      rw [List.eq_nil_iff_forall_not_mem]
      intro id inFlight
      have registered := (History.afterTicks_castIds owns longer).subset inFlight
      obtain ⟨cast, member, rfl⟩ := List.mem_map.mp registered
      rw [split] at inFlight
      exact gone cast member
        ((History.afterTicks_castIds (History.afterTicks_owns owns limit) (longer - limit)).subset inFlight)
    exact List.isEmpty_iff.mpr (List.map_eq_nil_iff.mp nobody)
  have final_idle := Scheduler.runUntilIdle_isIdle longer idle
  exact ⟨final_idle, Scheduler.drive_eq_runUntilIdle longer longer (Nat.le_refl _) final_idle⟩

/-- A program whose first child is longer than itself, with no instructions allowed per tick, which is raised to one. -/
theorem schedulersBecomeIdle_longerChild :
    let delay : Instruction Glyph := Glyph.instruction id 0 Glyph.delayId (.delay 2)
    let first : Instruction Glyph := Glyph.instruction id 1 Glyph.echoId (.echo Glyph.echoId 3)
    let second : Instruction Glyph := Glyph.instruction id 2 Glyph.marksId (.echo Glyph.marksId 3)
    let fresh : History Glyph := .start (Scheduler.empty.withMaxSteps 0) .empty
    let history := fresh.cast (.ofProgram (.ofInstructions [delay, first, delay, second]))
    Scheduler.Made fresh.scheduler ∧
      Reaches ⟨fun _ => True, fun _ _ => True⟩ Glyph.behaviour fresh history ∧
      history.GoesOnward Glyph.behaviour ∧
      ((history.tick Glyph.behaviour).scheduler.context? 1).map (·.program.length) = some 6 ∧
      ∃ limit, (history.scheduler.runUntilIdle Glyph.behaviour limit history.realm).2.1.isIdle = true := by
  intro delay first second fresh history
  have made : Scheduler.Made fresh.scheduler := .withMaxSteps 0 .empty
  have reached : Reaches ⟨fun _ => True, fun _ _ => True⟩ Glyph.behaviour fresh history :=
    .call (.cast _) .origin trivial
  have onward : history.GoesOnward Glyph.behaviour :=
    fun _ entry _ => Glyph.behaviour_carries.onward entry.2.effect.code
  obtain ⟨limit, idle⟩ := schedulersBecomeIdle made reached onward
  exact ⟨made, reached, onward, by decide, limit, (idle limit (Nat.le_refl limit)).1⟩

end Spellcast
