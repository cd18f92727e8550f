import Spellcast.Proofs.Active
import Spellcast.Proofs.Making

/-!
# Outcomes

A cast is reported when its turn leaves its active context canceled, or at the end of its program with nothing to wait
for. As contexts are never canceled without a reason, the outcome has a reason exactly when the context is canceled.
-/

namespace Spellcast

variable {κ : Type} {behaviour : Behaviour κ} {maxSteps maxForks : Nat} {others : List InFlight}

/-- Whatever happens to a context comes about by the operations on contexts. -/
theorem Behaviour.KeepsMade.preserves
    (keeps : behaviour.KeepsMade) :
    behaviour.Preserves Context.Made where
  registered _ made := made.altered rfl rfl
  suspended _ _ made := made.altered rfl rfl
  ran context instruction _ realm made :=
    keeps.cast instruction.effect.code context.stepped realm (made.altered rfl rfl)
  stopped _ made := made.marked .terminated
  canceled _ reason realm made := made.cancel keeps reason realm
  child _ self realm made := made.makeChild keeps self realm

namespace Turn

variable {turn : Turn κ} {context : Context κ}

/-- The active context is canceled, or it is at its end and does not wait. -/
theorem verdict_eq_finished_iff
    (live : turn.arena.get? turn.cast.active = some context) :
    turn.verdict = .finished ↔
      context.canceled = true ∨ (context.program.length ≤ context.counter ∧ context.isSuspended = false) := by
  cases canceled : context.canceled with
  | true =>
      simp [verdict_of_canceled live canceled]
  | false =>
      cases waits : context.isSuspended with
      | true =>
          simp [verdict_of_more live canceled (.inr waits)]
      | false =>
          by_cases inside : context.counter < context.program.length
          · have next : context.hasNext = true := Context.hasNext_iff.mpr ⟨canceled, waits, inside⟩
            simp [verdict_of_more live canceled (.inl next), inside]
          · have exhausted : context.hasNext = false := by
              rw [Bool.eq_false_iff]
              exact fun next => inside (Context.hasNext_iff.mp next).2.2
            have past : context.program.length ≤ context.counter := Nat.not_lt.mp inside
            simp [verdict_of_exhausted live exhausted waits, past]

/-- Whether a turn is the last one can be seen from the context that it leaves. -/
theorem take_verdict_iff
    (behaviour : Behaviour κ)
    (maxSteps maxForks : Nat)
    (owns : Owns turn.arena (turn.cast :: others)) :
    let after := (turn.take behaviour maxSteps maxForks).1
    ∃ final, after.arena.get? after.cast.active = some final ∧
      ((turn.take behaviour maxSteps maxForks).2 = .finished ↔
        final.canceled = true ∨ (final.program.length ≤ final.counter ∧ final.isSuspended = false)) := by
  intro after
  obtain ⟨final, live⟩ := active_live (keeps_take behaviour maxSteps maxForks owns).owns
  refine ⟨final, live, ?_⟩
  obtain ⟨context, started⟩ := active_live owns
  have cases := wake_cases turn.announced context
  rcases woke : turn.announced.wake context with ⟨woken, waits⟩
  rw [woke] at cases
  cases waits with
  | false =>
      rw [take_of_wakes started woke] at live ⊢
      exact verdict_eq_finished_iff live
  | true =>
      rw [take_of_waits started woke] at live ⊢
      cases cases with
      | @waits suspension running _ long =>
          obtain rfl := Option.some.inj ((Arena.get?_set_self started).symm.trans live)
          simp [running, Context.isSuspended, Suspension.isPending, long]

def ActiveMade (turn : Turn κ) : Prop :=
  ∀ context, turn.arena.get? turn.cast.active = some context → context.Made

theorem activeMade_of_live
    (live : turn.arena.get? turn.cast.active = some context)
    (made : context.Made) :
    turn.ActiveMade :=
  active_of_live live made

theorem activeMade_lasting
    (keeps : behaviour.KeepsMade)
    (maxForks : Nat)
    (others : List InFlight) :
    Lasting behaviour maxForks others ActiveMade :=
  active_lasting keeps.preserves maxForks others

end Turn

/-- An outcome has the reason of its context if this is canceled, and none otherwise. -/
theorem Scheduler.outcome_cancelReason
    (cast : InFlight)
    (final : Context κ) :
    (outcome cast (some final)).cancelReason = if final.canceled then final.cancelReason else none := by
  rw [outcome, Option.filter_some]
  split
  · rfl
  · rfl

namespace History

variable {rules : Rules κ} {history : History κ}

/-- The active contexts of all casts in flight come about by operations on contexts. -/
def ActiveMade (history : History κ) : Prop :=
  ∀ cast ∈ history.scheduler.casts, ∀ context, history.scheduler.arena.get? cast.active = some context → context.Made

/-- A cast is reported if and only if its turn has finished it, and then with what the turn has left. -/
theorem reported_iff_finished
    {cast : InFlight}
    {turn : Turn κ}
    (owns : history.Owns)
    (accounts : history.Accounts)
    (turned : Scheduler.Turned behaviour history.scheduler history.realm cast turn) :
    let report := (history.scheduler.tick behaviour history.realm).1
    let taken := turn.take behaviour history.scheduler.maxSteps history.scheduler.maxForks
    (cast.id ∈ report.completedIds ↔ taken.2 = .finished) ∧
      ∀ outcome ∈ report.completed, outcome.id = cast.id →
        outcome = Scheduler.outcome taken.1.cast (taken.1.arena.get? taken.1.cast.active) := by
  intro report taken
  obtain ⟨others, turnOwns⟩ := turned.owns
  have keeps := Turn.keeps_take behaviour history.scheduler.maxSteps history.scheduler.maxForks turnOwns
  have sameId : taken.1.cast.id = cast.id := by
    rw [keeps.sameId, turned.started]
  have alone {outcome : Outcome κ} (reported : outcome ∈ report.completed) :=
    Scheduler.reported_alone owns accounts.castIds_nodup reported
  rcases answer : turn.take behaviour history.scheduler.maxSteps history.scheduler.maxForks with ⟨after, verdict⟩
  simp only [taken, answer] at sameId ⊢
  cases verdict with
  | finished =>
      have reported := turned.finished after answer
      have completed : cast.id ∈ report.completedIds := sameId ▸ List.mem_map_of_mem reported
      refine ⟨⟨fun _ => rfl, fun _ => completed⟩, ?_⟩
      intro outcome otherReported otherId
      have listed : Scheduler.outcome after.cast (after.arena.get? after.cast.active) ∈
          report.completed.filter (·.id == outcome.id) :=
        List.mem_filter.mpr ⟨reported, by simpa [Scheduler.outcome, otherId] using sameId⟩
      rw [(alone otherReported).1] at listed
      exact (List.mem_singleton.mp listed).symm
  | running =>
      have notReported {outcome : Outcome κ} (reported : outcome ∈ report.completed) : outcome.id ≠ cast.id := by
        intro isOwn
        have stays : after.cast.id ∈ (history.scheduler.tick behaviour history.realm).2.1.castIds :=
          List.mem_map_of_mem (turned.running after answer).1
        rw [sameId, ← isOwn] at stays
        exact (alone reported).2 stays
      refine ⟨⟨?_, ?_⟩, ?_⟩
      · intro completed
        obtain ⟨outcome, reported, isOwn⟩ := List.mem_map.mp completed
        exact absurd isOwn (notReported reported)
      · intro finished
        cases finished
      · intro outcome reported isOwn
        exact absurd isOwn (notReported reported)

end History

/-- If only such contexts are cast as the operations on contexts can make, then all active contexts are such. -/
theorem Reaches.activeMade
    {rules : Rules κ}
    {scheduler : Scheduler κ}
    {realm : Realm}
    {history : History κ}
    (keeps : behaviour.KeepsMade)
    (made : scheduler.Made)
    (allowed : ∀ context, rules.calls (.cast context) → context.Made)
    (reached : Reaches rules behaviour (.start scheduler realm) history) :
    history.ActiveMade :=
  reached.active keeps.preserves made allowed

/-- In every tick of a reachable scheduler, each cast is reported if and only if its active context is, at the end of
its turn, canceled, or at the end of its program with nothing to wait for. The outcome holds this context, and a reason
if and only if the context is canceled; then it is the reason that the context holds. -/
theorem outcomesTellTheTruth
    {rules : Rules κ}
    {scheduler : Scheduler κ}
    {realm : Realm}
    {history : History κ}
    (keeps : behaviour.KeepsMade)
    (made : scheduler.Made)
    (allowed : ∀ context, rules.calls (.cast context) → context.Made)
    (reached : Reaches rules behaviour (.start scheduler realm) history) :
    let current := history.scheduler
    let report := (current.tick behaviour history.realm).1
    ∀ earlier cast later, current.casts = earlier ++ cast :: later →
      let turn := (current.roundAfter behaviour history.realm earlier).turn cast
      let after := (turn.take behaviour current.maxSteps current.maxForks).1
      ∃ final, after.arena.get? after.cast.active = some final ∧
        (cast.id ∈ report.completedIds ↔
          final.canceled = true ∨ (final.program.length ≤ final.counter ∧ final.isSuspended = false)) ∧
        ∀ outcome ∈ report.completed, outcome.id = cast.id →
          outcome.finalContext = some final ∧
          (∀ reason, outcome.cancelReason = some reason ↔ final.canceled = true ∧ final.cancelReason = some reason) ∧
          (final.canceled = true → outcome.cancelReason.isSome) := by
  intro current report earlier cast later split turn after
  have owns : history.Owns := reached.owns made
  have accounts : history.Accounts := reached.accounts made
  have member : cast ∈ current.casts := by
    rw [split]
    exact List.mem_append_right _ List.mem_cons_self
  have turned := Scheduler.turned_of_split behaviour owns accounts.castIds_nodup split history.realm
  obtain ⟨others, turnOwns⟩ := turned.owns
  obtain ⟨final, live, finished⟩ := Turn.take_verdict_iff behaviour current.maxSteps current.maxForks turnOwns
  obtain ⟨reported, outcomes⟩ := History.reported_iff_finished owns accounts turned
  refine ⟨final, live, reported.trans finished, ?_⟩
  intro outcome listed isOwn
  obtain rfl := outcomes outcome listed isOwn
  have finalMade : final.Made := by
    obtain ⟨held, heldLive⟩ := owns.active_live member
    have started := Turn.activeMade_of_live (History.turned_live turned owns member heldLive)
      (reached.activeMade keeps made allowed cast member held heldLive)
    exact (Turn.activeMade_lasting keeps current.maxForks others).take current.maxSteps turnOwns started final live
  rw [live, Scheduler.outcome_cancelReason]
  refine ⟨rfl, ?_, ?_⟩
  · intro reason
    cases final.canceled with
    | true => simp
    | false => simp
  · intro canceled
    obtain ⟨reason, isReason⟩ := finalMade.exists_reason canceled
    rw [if_pos canceled, isReason, Option.isSome_some]

/-- A script cancels its context, makes it ready again and goes to its end: the cast is reported without a reason,
though its context holds the one that the reset has left behind. -/
theorem outcomesTellTheTruth_afterReset :
    let script : Instruction Session.Part :=
      .plain Glyph.marksId ⟨0, .scriptEffect "retry" [.cancel .newContext, .reset, .setCounter 1] false⟩
    let rules : Rules Session.Part := ⟨fun call => ∀ context, call = .cast context → context.Made, fun _ _ => True⟩
    let fresh : History Session.Part := .start .empty .empty
    let context : Context Session.Part := .ofProgram (.ofInstructions [script])
    let history := fresh.cast context
    let report := (history.scheduler.tick Session.Part.behaviour history.realm).1
    Session.Part.behaviour.KeepsMade ∧ fresh.scheduler.Made ∧
      (∀ context, rules.calls (.cast context) → context.Made) ∧
      Reaches rules Session.Part.behaviour fresh history ∧
      1 ∈ report.completedIds ∧
      ∀ outcome ∈ report.completed, outcome.id = 1 →
        outcome.cancelReason = none ∧ outcome.finalContext.bind (·.cancelReason) = some .newContext := by
  intro script rules fresh context history report
  have allowed : ∀ context, rules.calls (.cast context) → context.Made := fun context isAllowed => isAllowed context rfl
  have reached : Reaches rules Session.Part.behaviour fresh history := by
    refine .call (.cast context) .origin ?_
    rintro _ ⟨⟩
    exact .ofProgram _
  let registered : InFlight := { id := 1, active := 0, contexts := [0], steps := 0, forks := 0, ticks := 0 }
  obtain ⟨final, live, reported, outcomes⟩ :=
    outcomesTellTheTruth Session.Part.behaviour_keepsMade .empty allowed reached [] registered [] rfl
  have state : some (final.canceled, final.cancelReason, final.counter, final.program.length, final.isSuspended) =
      some (false, some .newContext, 1, 1, false) :=
    (congrArg (Option.map fun final : Context Session.Part =>
      (final.canceled, final.cancelReason, final.counter, final.program.length, final.isSuspended)) live).symm.trans
      (by decide +kernel)
  simp only [Option.some.injEq, Prod.mk.injEq] at state
  obtain ⟨running, reason, counter, length, awake⟩ := state
  refine ⟨Session.Part.behaviour_keepsMade, .empty, allowed, reached, ?_, ?_⟩
  · exact reported.mpr (.inr ⟨by omega, awake⟩)
  · intro outcome listed isOwn
    obtain ⟨holds, reasons, -⟩ := outcomes outcome listed isOwn
    refine ⟨?_, by rw [holds, Option.bind_some, reason]⟩
    cases given : outcome.cancelReason with
    | none => rfl
    | some reason => simp [(reasons reason).mp given |>.1] at running

end Spellcast
