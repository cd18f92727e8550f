import Mathlib.Data.List.Forall2
import Spellcast.Proofs.Ownership.Tick

/-!
# Two casts that run alike

Two casts, in the same scheduler or in different ones, run alike as long as their active contexts are related by a
relation that effects, observers and manipulators keep. `Simulates` names what such a relation has to satisfy. It is
kept by steps and by runs then, which run the same instructions on both sides, as far as a view of instructions tells
them apart. What is logged never matters.
-/

namespace Spellcast

variable {κ : Type} {behaviour : Behaviour κ} {maxForks : Nat}

/-- Two realms agree in all that a run can see; what is logged in them may differ. -/
structure Realm.SameWorld (first second : Realm) : Prop where
  world : second.world = first.world
  cells : second.cells = first.cells
  journal : second.journal = first.journal

namespace Realm.SameWorld

variable {first second third : Realm}

theorem refl (realm : Realm) : realm.SameWorld realm := ⟨rfl, rfl, rfl⟩

theorem symm
    (same : first.SameWorld second) :
    second.SameWorld first :=
  ⟨same.world.symm, same.cells.symm, same.journal.symm⟩

theorem trans
    (same : first.SameWorld second)
    (further : second.SameWorld third) :
    first.SameWorld third :=
  ⟨further.world.trans same.world, further.cells.trans same.cells, further.journal.trans same.journal⟩

theorem emit
    (same : first.SameWorld second)
    (event : Event) :
    first.SameWorld (second.emit event) :=
  ⟨same.world, same.cells, same.journal⟩

theorem enter
    (same : first.SameWorld second)
    (span : String) :
    first.SameWorld (second.enter span) :=
  ⟨same.world, same.cells, same.journal⟩

theorem leave
    (same : first.SameWorld second) :
    first.SameWorld second.leave :=
  ⟨same.world, same.cells, same.journal⟩

end Realm.SameWorld

/-- The suspension of a context after the start of a tick, and whether the context still has to wait: a pending
suspension is counted down, and one that is over is taken away. -/
def Context.rousing (context : Context κ) : Option Suspension × Bool :=
  if context.canceled then (context.suspension, false)
  else
    match context.suspension with
    | none => (none, false)
    | some suspension =>
      let left := if suspension.isPending then suspension.tick else suspension
      if left.isPending then (some left, true) else (none, false)

/-- The context after the start of a tick, and whether it still has to wait. -/
def Context.roused (context : Context κ) : Context κ × Bool :=
  ({ context with suspension := context.rousing.1 }, context.rousing.2)

/-- Nothing else happens when a turn wakes up. -/
theorem Turn.wake_roused
    {turn : Turn κ}
    {context : Context κ}
    (live : turn.arena.get? turn.cast.active = some context) :
    let woken := (turn.wake context).1
    (turn.wake context).2 = context.roused.2 ∧ woken.cast = turn.cast ∧ woken.steps = turn.steps ∧
      woken.arena.nextId = turn.arena.nextId ∧ turn.realm.SameWorld woken.realm ∧
      woken.arena.get? woken.cast.active = some context.roused.1 := by
  have logged (event : Event) : turn.realm.SameWorld (turn.realm.emit event) := (Realm.SameWorld.refl _).emit _
  cases stopped : context.canceled with
  | true =>
      have unchanged : turn.wake context = (turn, false) := by simp [Turn.wake, stopped]
      have same : context.rousing = (context.suspension, false) := by simp [Context.rousing, stopped]
      rw [unchanged, Context.roused, same]
      exact ⟨rfl, rfl, rfl, rfl, .refl _, live⟩
  | false =>
      cases suspended : context.suspension with
      | none =>
          have unchanged : turn.wake context = (turn, false) := by simp [Turn.wake, stopped, suspended]
          have same : context.rousing = (context.suspension, false) := by simp [Context.rousing, stopped, suspended]
          rw [unchanged, Context.roused, same]
          exact ⟨rfl, rfl, rfl, rfl, .refl _, live⟩
      | some suspension =>
          simp only [Turn.wake, Context.roused, Context.rousing, stopped, suspended, Bool.false_eq_true, if_false]
          cases (if suspension.isPending then suspension.tick else suspension).isPending with
          | true => exact ⟨rfl, rfl, rfl, rfl, logged _, Arena.get?_set_self live⟩
          | false => exact ⟨rfl, rfl, rfl, rfl, logged _, Arena.get?_set_self live⟩

/-- Two contexts stand at the same instruction of the same program, and may run it or not. -/
structure Context.SamePlace (first second : Context κ) : Prop where
  program : second.program = first.program
  counter : second.counter = first.counter
  canceled : second.canceled = first.canceled
  suspended : second.isSuspended = first.isSuspended

/-- Two contexts stand at the same place of programs that look the same, and may run on or not. -/
structure Context.SameView (look : Instruction κ → Instruction κ) (first second : Context κ) : Prop where
  program : second.program.instructions.map look = first.program.instructions.map look
  counter : second.counter = first.counter
  canceled : second.canceled = first.canceled
  suspended : second.isSuspended = first.isSuspended

section

variable {first second : Context κ} {look : Instruction κ → Instruction κ}

theorem Context.SamePlace.sameView
    (same : first.SamePlace second)
    (look : Instruction κ → Instruction κ) :
    first.SameView look second :=
  ⟨by rw [same.program], same.counter, same.canceled, same.suspended⟩

theorem Context.SameView.length
    (same : first.SameView look second) :
    second.program.length = first.program.length := by
  have lengths := congrArg List.length same.program
  rwa [List.length_map, List.length_map] at lengths

theorem Context.SameView.hasNext
    (same : first.SameView look second) :
    second.hasNext = first.hasNext := by
  rw [Bool.eq_iff_iff, hasNext_iff, hasNext_iff, same.canceled, same.suspended, same.counter, same.length]

theorem Context.SameView.exists_get?
    {instruction : Instruction κ}
    (same : first.SameView look second)
    (found : first.program.get? first.counter = some instruction) :
    ∃ instruction', second.program.get? second.counter = some instruction' ∧ look instruction' = look instruction := by
  have looked : (second.program.instructions.map look)[second.counter]? = some (look instruction) := by
    rw [same.program, same.counter, List.getElem?_map]
    exact congrArg (Option.map look) found
  rw [List.getElem?_map] at looked
  exact Option.map_eq_some_iff.mp looked

theorem Context.SamePlace.hasNext
    (same : first.SamePlace second) :
    second.hasNext = first.hasNext :=
  (same.sameView id).hasNext

end

/-- A relation between contexts, each in its realm, that lasts while they run: they stand at the same place of programs
that look the same, the next instruction answers the same on both sides, and so does a fork. It does not look at what is
logged. Numbers of contexts are compared by a relation of their own. -/
structure Simulates (behaviour : Behaviour κ) (look : Instruction κ → Instruction κ)
    (ids : ContextId → ContextId → Prop) (related : Context κ → Realm → Context κ → Realm → Prop) : Prop where
  logged {first second : Context κ} {realm realm' logged logged' : Realm} :
    related first realm second realm' → realm.SameWorld logged → realm'.SameWorld logged' →
      related first logged second logged'
  place {first second : Context κ} {realm realm' : Realm} :
    related first realm second realm' → first.SameView look second
  cast {first second : Context κ} {realm realm' : Realm} {instruction instruction' : Instruction κ} :
    related first realm second realm' → first.program.get? first.counter = some instruction →
      second.program.get? second.counter = some instruction' → look instruction' = look instruction →
      let answer := behaviour.cast instruction.effect.code first.stepped realm
      let answer' := behaviour.cast instruction'.effect.code second.stepped realm'
      answer'.1 = answer.1 ∧ related answer.2.1 answer.2.2 answer'.2.1 answer'.2.2
  roused {first second : Context κ} {realm realm' : Realm} :
    related first realm second realm' →
      second.roused.2 = first.roused.2 ∧ related first.roused.1 realm second.roused.1 realm'
  stopped {first second : Context κ} {realm realm' : Realm} :
    related first realm second realm' → related first.stopped realm second.stopped realm'
  child {first second : Context κ} {realm realm' : Realm} {self self' : ContextId} :
    related first realm second realm' → ids self self' →
      let made := first.makeChild behaviour self realm
      let made' := second.makeChild behaviour self' realm'
      related first made.2 second made'.2 ∧ related made.1.context made.2 made'.1.context made'.2
  left {first second child child' : Context κ} {realm realm' : Realm} :
    related first realm second realm' → related child realm child' realm' →
      related child (first.cancel behaviour .newContext realm).2 child' (second.cancel behaviour .newContext realm').2
  next {id id' : ContextId} : ids id id' → ids (id + 1) (id' + 1)

/-- A relation between contexts, each in its realm, that is kept when one of these instructions is told of a
cancellation on both sides. -/
def KeptByObservers (behaviour : Behaviour κ) (related : Context κ → Realm → Context κ → Realm → Prop)
    (instructions : List (Instruction κ)) : Prop :=
  ∀ instruction ∈ instructions, ∀ observer, instruction.observer = some observer →
    ∀ {first second : Context κ} {realm realm' : Realm}, related first realm second realm' →
      let answer := behaviour.notify observer first realm
      let answer' := behaviour.notify observer second realm'
      answer'.1 = answer.1 ∧ related answer.2.1 answer.2.2 answer'.2.1 answer'.2.2

section Canceling

variable {related : Context κ → Realm → Context κ → Realm → Prop} {instructions : List (Instruction κ)}
  {first second : Context κ} {realm realm' : Realm}

theorem Context.walk_related
    (kept : KeptByObservers behaviour related instructions)
    (state state' : Walk κ)
    (start : related state.context state.realm state'.context state'.realm) :
    related (walk behaviour instructions state).context (walk behaviour instructions state).realm
      (walk behaviour instructions state').context (walk behaviour instructions state').realm := by
  induction instructions generalizing state state' with
  | nil =>
      exact start
  | cons instruction rest inductionHypothesis =>
      have later := inductionHypothesis fun other member => kept other (List.mem_cons_of_mem _ member)
      cases observes : instruction.observer with
      | none =>
          simp only [walk, observes]
          exact later state state' start
      | some observer =>
          have told := kept instruction List.mem_cons_self observer observes start
          rcases answer : behaviour.notify observer state.context state.realm with ⟨goesOn, after, realm⟩
          rcases answer' : behaviour.notify observer state'.context state'.realm with ⟨goesOn', after', realm'⟩
          rw [answer, answer'] at told
          obtain ⟨same, stillRelated⟩ := told
          have same : goesOn' = goesOn := same
          subst same
          cases goesOn' with
          | false =>
              simp only [walk, observes, answer, answer']
              exact stillRelated
          | true =>
              simp only [walk, observes, answer, answer', if_true]
              exact later _ _ stillRelated

/-- Contexts that are related once they are marked as canceled are related when they have been canceled. -/
theorem Context.cancel_related
    (reason : CancelReason)
    (sameRemainder : second.remainder = first.remainder)
    (kept : KeptByObservers behaviour related first.remainder.instructions)
    (marked : related { first with canceled := true, cancelReason := some reason } realm
      { second with canceled := true, cancelReason := some reason } realm') :
    ∃ noted noted', related (first.cancel behaviour reason realm).1 noted
        (second.cancel behaviour reason realm').1 noted' ∧
      noted.SameWorld (first.cancel behaviour reason realm).2 ∧
      noted'.SameWorld (second.cancel behaviour reason realm').2 := by
  let mark (context : Context κ) : Context κ := { context with canceled := true, cancelReason := some reason }
  have sameAhead : (mark second).remainder.instructions = (mark first).remainder.instructions :=
    congrArg Program.instructions sameRemainder
  have walked := walk_related kept ⟨mark first, realm, 0, false⟩ ⟨mark second, realm', 0, false⟩ marked
  refine ⟨_, _, ?_, (Realm.SameWorld.refl _).emit _, (Realm.SameWorld.refl _).emit _⟩
  change related _ _ (walk behaviour (mark second).remainder.instructions ⟨mark second, realm', 0, false⟩).context
    (walk behaviour (mark second).remainder.instructions ⟨mark second, realm', 0, false⟩).realm
  rw [sameAhead]
  exact walked

end Canceling

/-- A relation between contexts, each in its realm, does not look at what is logged. -/
structure IgnoresLog (related : Context κ → Realm → Context κ → Realm → Prop) : Prop where
  logged {first second : Context κ} {realm realm' logged logged' : Realm} :
    related first realm second realm' → realm.SameWorld logged → realm'.SameWorld logged' →
      related first logged second logged'

/-- Two manipulators, each of its context, wish the same and propose children that are related. -/
structure AnswerAlike (behaviour : Behaviour κ) (related : Context κ → Realm → Context κ → Realm → Prop)
    (first second : Context κ) (code code' : κ) : Prop where
  wantsPush {realm realm' : Realm} :
    related first realm second realm' →
      let answer := behaviour.wantsPush code first realm
      let answer' := behaviour.wantsPush code' second realm'
      answer'.1 = answer.1 ∧ related first answer.2 second answer'.2
  propose {realm realm' : Realm} :
    related first realm second realm' →
      let answer := behaviour.propose code first realm
      let answer' := behaviour.propose code' second realm'
      related first answer.2 second answer'.2 ∧
        Option.Rel (fun child child' => related child answer.2 child' answer'.2) answer.1 answer'.1

section Forking

variable {related : Context κ → Realm → Context κ → Realm → Prop} {instructions instructions' : List (Instruction κ)}
  {first second : Context κ} {realm realm' : Realm} {self self' : ContextId}

theorem Context.consult_related
    (ignores : IgnoresLog related)
    (answers : List.Forall₂ (fun instruction instruction' : Instruction κ =>
      Option.Rel (AnswerAlike behaviour related first second) instruction.manipulator instruction'.manipulator)
      instructions instructions')
    (start : related first realm second realm')
    (position : Nat) :
    let answer := consult behaviour first position instructions realm
    let answer' := consult behaviour second position instructions' realm'
    related first answer.2 second answer'.2 ∧
      Option.Rel (fun chosen chosen' => related chosen.2 answer.2 chosen'.2 answer'.2) answer.1 answer'.1 := by
  induction answers generalizing position realm realm' with
  | nil =>
      exact ⟨start, .none⟩
  | @cons instruction instruction' rest rest' manipulators _ inductionHypothesis =>
      generalize manipulates : instruction.manipulator = held at manipulators
      generalize manipulates' : instruction'.manipulator = held' at manipulators
      cases manipulators with
      | none =>
          simp only [consult, manipulates, manipulates']
          exact inductionHypothesis start (position + 1)
      | @some code code' alike =>
          have asked := alike.wantsPush start
          rcases answer : behaviour.wantsPush code first realm with ⟨wants, askedRealm⟩
          rcases answer' : behaviour.wantsPush code' second realm' with ⟨wants', askedRealm'⟩
          rw [answer, answer'] at asked
          obtain ⟨sameWish, askedRelated⟩ := asked
          have sameWish : wants' = wants := sameWish
          subst sameWish
          have offered := alike.propose askedRelated
          rcases offer : behaviour.propose code first askedRealm with ⟨proposed, offeredRealm⟩
          rcases offer' : behaviour.propose code' second askedRealm' with ⟨proposed', offeredRealm'⟩
          rw [offer, offer'] at offered
          obtain ⟨stillRelated, children⟩ := offered
          have later := inductionHypothesis stillRelated (position + 1)
          simp only [consult, manipulates, manipulates', answer, answer', offer, offer']
          generalize isProposed : proposed = child at children
          generalize isProposed' : proposed' = child' at children
          cases children with
          | none =>
              simp only
              exact later
          | some childRelated =>
              cases wants' with
              | true =>
                  have noted (realm : Realm) (event : Event) : realm.SameWorld (realm.emit event) :=
                    (Realm.SameWorld.refl realm).emit event
                  exact ⟨ignores.logged stillRelated (noted _ _) (noted _ _),
                    .some (ignores.logged childRelated (noted _ _) (noted _ _))⟩
              | false =>
                  exact later

/-- Related contexts fork into related contexts, if copies of them are related and manipulators answer alike. -/
theorem Context.makeChild_related
    (ignores : IgnoresLog related)
    (answers : List.Forall₂ (fun instruction instruction' : Instruction κ =>
      Option.Rel (AnswerAlike behaviour related first second) instruction.manipulator instruction'.manipulator)
      first.remainder.instructions second.remainder.instructions)
    (continued : ∀ {realm realm' : Realm}, related first realm second realm' →
      related { first.continuation with parent := some self } realm
        { second.continuation with parent := some self' } realm')
    (adopted : ∀ {child child' : Context κ} {realm realm' : Realm}, related child realm child' realm' →
      related { child with parent := some self } realm { child' with parent := some self' } realm')
    (start : related first realm second realm') :
    let made := first.makeChild behaviour self realm
    let made' := second.makeChild behaviour self' realm'
    related first made.2 second made'.2 ∧ related made.1.context made.2 made'.1.context made'.2 := by
  have consulted := consult_related ignores answers start 0
  rcases chosen : consult behaviour first 0 first.remainder.instructions realm with ⟨choice, after⟩
  rcases chosen' : consult behaviour second 0 second.remainder.instructions realm' with ⟨choice', after'⟩
  rw [chosen, chosen'] at consulted
  obtain ⟨stillRelated, choices⟩ := consulted
  simp only [makeChild, chosen, chosen']
  generalize isChoice : choice = taken at choices
  generalize isChoice' : choice' = taken' at choices
  cases choices with
  | none =>
      exact ⟨stillRelated, continued stillRelated⟩
  | some childRelated =>
      exact ⟨stillRelated, adopted childRelated⟩

end Forking

namespace Turn

variable {look : Instruction κ → Instruction κ} {ids : ContextId → ContextId → Prop}
  {related : Context κ → Realm → Context κ → Realm → Prop}
  {turn turn' : Turn κ} {others others' : List InFlight} {context context' : Context κ} {realm realm' : Realm}

/-- The casts of two turns are at related contexts and have forked as often. -/
structure Twin (ids : ContextId → ContextId → Prop) (related : Context κ → Realm → Context κ → Realm → Prop)
    (turn turn' : Turn κ) : Prop where
  contexts : ∃ context context', turn.arena.get? turn.cast.active = some context ∧
    turn'.arena.get? turn'.cast.active = some context' ∧ related context turn.realm context' turn'.realm
  forks : turn'.cast.forks = turn.cast.forks
  active : ids turn.cast.active turn'.cast.active
  nextId : ids turn.arena.nextId turn'.arena.nextId

/-- Twins wait both, or none of them does. -/
theorem Twin.wake
    (simulates : Simulates behaviour look ids related)
    (twin : Twin ids related turn turn')
    (live : turn.arena.get? turn.cast.active = some context)
    (live' : turn'.arena.get? turn'.cast.active = some context') :
    (turn'.announced.wake context').2 = (turn.announced.wake context).2 ∧
      Twin ids related (turn.announced.wake context).1 (turn'.announced.wake context').1 := by
  obtain ⟨first, second, firstLive, secondLive, still⟩ := twin.contexts
  obtain rfl : first = context := Option.some.inj (firstLive.symm.trans live)
  obtain rfl : second = context' := Option.some.inj (secondLive.symm.trans live')
  have announced (turn : Turn κ) : turn.realm.SameWorld turn.announced.realm :=
    ((Realm.SameWorld.refl _).enter _).emit _
  have announcedLive : turn.announced.arena.get? turn.announced.cast.active = some first := live
  have announcedLive' : turn'.announced.arena.get? turn'.announced.cast.active = some second := live'
  obtain ⟨flag, cast, -, nextId, realm, rousedLive⟩ := wake_roused announcedLive
  obtain ⟨flag', cast', -, nextId', realm', rousedLive'⟩ := wake_roused announcedLive'
  obtain ⟨sameFlag, roused⟩ := simulates.roused still
  refine ⟨by rw [flag, flag', sameFlag], ⟨_, _, rousedLive, rousedLive', ?_⟩, ?_, ?_, ?_⟩
  · exact simulates.logged roused ((announced turn).trans realm) ((announced turn').trans realm')
  · rw [cast, cast']
    exact twin.forks
  · rw [cast, cast']
    exact twin.active
  · rw [nextId, nextId']
    exact twin.nextId

theorem Twin.verdict
    (simulates : Simulates behaviour look ids related)
    (twin : Twin ids related turn turn') :
    turn'.verdict = turn.verdict := by
  obtain ⟨context, context', live, live', still⟩ := twin.contexts
  have place := simulates.place still
  simp only [Turn.verdict, live, live', place.canceled, place.hasNext, place.suspended]

theorem movedOn_live
    (known : turn.cast.active ≠ turn.arena.nextId)
    (context : Context κ) :
    (turn.movedOn behaviour context).arena.get? (turn.movedOn behaviour context).cast.active =
      some (turn.madeChild behaviour context).1 :=
  (Arena.get?_set_of_ne (Ne.symm known)).trans Arena.get?_insert_self

theorem Twin.ran
    (twin : Twin ids related turn turn')
    (live : turn.arena.get? turn.cast.active = some context)
    (live' : turn'.arena.get? turn'.cast.active = some context')
    {after after' : Context κ}
    (still : related after realm after' realm') :
    Twin ids related (turn.ran after realm) (turn'.ran after' realm') :=
  ⟨⟨after, after', ran_live live, ran_live live', still⟩, twin.forks, twin.active, twin.nextId⟩

theorem Twin.stoppedAtLimit
    (simulates : Simulates behaviour look ids related)
    (twin : Twin ids related turn turn')
    (live : turn.arena.get? turn.cast.active = some context)
    (live' : turn'.arena.get? turn'.cast.active = some context')
    (still : related context turn.realm context' turn'.realm) :
    Twin ids related (turn.stoppedAtLimit maxForks context) (turn'.stoppedAtLimit maxForks context') := by
  refine ⟨⟨context.stopped, context'.stopped, Arena.get?_set_self live, Arena.get?_set_self live', ?_⟩, twin.forks,
    twin.active, twin.nextId⟩
  exact simulates.logged (simulates.stopped still) (((Realm.SameWorld.refl _).emit _).emit _)
    (((Realm.SameWorld.refl _).emit _).emit _)

theorem Twin.movedOn
    (simulates : Simulates behaviour look ids related)
    (twin : Twin ids related turn turn')
    (known : turn.cast.active ≠ turn.arena.nextId)
    (known' : turn'.cast.active ≠ turn'.arena.nextId)
    (still : related context turn.realm context' turn'.realm) :
    Twin ids related (turn.movedOn behaviour context) (turn'.movedOn behaviour context') := by
  have forks : (turn'.cast.moved turn'.arena.nextId).forks = (turn.cast.moved turn.arena.nextId).forks :=
    congrArg (· + 1) twin.forks
  refine ⟨⟨_, _, movedOn_live known context, movedOn_live known' context', ?_⟩, forks, twin.nextId,
    simulates.next twin.nextId⟩
  obtain ⟨parent, child⟩ := simulates.child still twin.active
  -- what is logged between making the child and canceling its parent does not matter
  have logs (realm : Realm) (first second third : Event) :
      realm.SameWorld (((realm.emit first).enter second.spanName).emit third) :=
    (((Realm.SameWorld.refl realm).emit first).enter second.spanName).emit third
  change related _ (Realm.leave _) _ (Realm.leave _)
  refine simulates.logged ?_ (Realm.SameWorld.refl _).leave (Realm.SameWorld.refl _).leave
  refine simulates.left ?_ ?_
  · exact simulates.logged parent (logs _ _ _ _) (logs _ _ _ _)
  · exact simulates.logged child (logs _ _ _ _) (logs _ _ _ _)

/-- Steps keep twins: they run instructions that look the same, and either both or none of them lets the turn go on. -/
theorem Twin.step
    (simulates : Simulates behaviour look ids related)
    (twin : Twin ids related turn turn')
    (owns : Owns turn.arena (turn.cast :: others))
    (owns' : Owns turn'.arena (turn'.cast :: others')) :
    (turn'.step behaviour maxForks).2 = (turn.step behaviour maxForks).2 ∧
      turn'.next?.map look = turn.next?.map look ∧
      Twin ids related (turn.step behaviour maxForks).1 (turn'.step behaviour maxForks).1 := by
  obtain ⟨context, context', live, live', still⟩ := twin.contexts
  have place := simulates.place still
  cases next : context.hasNext with
  | false =>
      have next' : context'.hasNext = false := place.hasNext.trans next
      rw [step_of_exhausted behaviour maxForks live next, step_of_exhausted behaviour maxForks live' next']
      exact ⟨rfl, by simp [next?, live, live', next, next'], twin⟩
  | true =>
      have next' : context'.hasNext = true := place.hasNext.trans next
      obtain ⟨instruction, resolution, after, realm, runs⟩ := exists_runs behaviour live next
      obtain ⟨instruction', found', sameLook⟩ := place.exists_get? runs.found
      have casting : related context (turn.castingRealm behaviour instruction) context'
          (turn'.castingRealm behaviour instruction') :=
        simulates.logged still ((Realm.SameWorld.refl _).emit _) ((Realm.SameWorld.refl _).emit _)
      have answers := simulates.cast casting runs.found found' sameLook
      rw [runs.cast] at answers
      rcases answer' : behaviour.cast instruction'.effect.code context'.stepped
        (turn'.castingRealm behaviour instruction') with ⟨resolution', after', realm'⟩
      rw [answer'] at answers
      obtain ⟨rfl, stillAfter⟩ := answers
      have runs' : turn'.Runs behaviour context' instruction' resolution' after' realm' :=
        ⟨live', next', found', answer'⟩
      have ran : Twin ids related (turn.ran after realm) (turn'.ran after' realm') := twin.ran live live' stillAfter
      have sameNext : turn'.next?.map look = turn.next?.map look := by
        simp [next?, live, live', next, next', runs.found, found', sameLook]
      cases resolution' with
      | proceed =>
          rw [step_of_proceed maxForks runs, step_of_proceed maxForks runs']
          exact ⟨rfl, sameNext, ran⟩
      | fork =>
          by_cases limit : maxForks ≤ turn.cast.forks
          · have limit' : maxForks ≤ turn'.cast.forks := twin.forks ▸ limit
            rw [step_of_fork_at_limit runs limit, step_of_fork_at_limit runs' limit']
            exact ⟨rfl, sameNext, ran.stoppedAtLimit simulates (ran_live live) (ran_live live') stillAfter⟩
          · have below := Nat.not_le.mp limit
            have below' : turn'.cast.forks < maxForks := twin.forks ▸ below
            rw [step_of_fork_below_limit runs (known owns) below, step_of_fork_below_limit runs' (known owns') below']
            have ranOwns : Owns (turn.ran after realm).arena ((turn.ran after realm).cast :: others) := owns.set _ _
            have ranOwns' : Owns (turn'.ran after' realm').arena ((turn'.ran after' realm').cast :: others') :=
              owns'.set _ _
            exact ⟨rfl, sameNext, ran.movedOn simulates (known ranOwns) (known ranOwns') stillAfter⟩

/-- Runs of as many instructions keep twins and run what looks the same. -/
theorem Twin.run
    (simulates : Simulates behaviour look ids related)
    (budget : Nat)
    (twin : Twin ids related turn turn')
    (owns : Owns turn.arena (turn.cast :: others))
    (owns' : Owns turn'.arena (turn'.cast :: others')) :
    (turn'.executed behaviour maxForks budget).map look = (turn.executed behaviour maxForks budget).map look ∧
      Twin ids related (turn.run behaviour maxForks budget) (turn'.run behaviour maxForks budget) := by
  induction budget generalizing turn turn' with
  | zero =>
      exact ⟨rfl, twin⟩
  | succ budget inductionHypothesis =>
      have keeps := keeps_step behaviour maxForks owns
      have keeps' := keeps_step behaviour maxForks owns'
      obtain ⟨sameAnswer, sameNext, stepTwin⟩ := twin.step simulates owns owns'
      rcases stepped : turn.step behaviour maxForks with ⟨after, goesOn⟩
      rcases stepped' : turn'.step behaviour maxForks with ⟨after', goesOn'⟩
      rw [stepped, stepped'] at sameAnswer stepTwin
      rw [stepped] at keeps
      rw [stepped'] at keeps'
      have same : goesOn' = goesOn := sameAnswer
      subst same
      have sameList : turn'.next?.toList.map look = turn.next?.toList.map look := by
        rw [← Option.toList_map, ← Option.toList_map, sameNext]
      cases goesOn' with
      | false =>
          rw [run_of_stop stepped, run_of_stop stepped', executed_of_stop stepped, executed_of_stop stepped']
          exact ⟨sameList, stepTwin⟩
      | true =>
          obtain ⟨sameRest, runTwin⟩ := inductionHypothesis stepTwin keeps.owns keeps'.owns
          rw [run_of_go stepped, run_of_go stepped', executed_of_go stepped, executed_of_go stepped', List.map_append,
            List.map_append, sameList, sameRest]
          exact ⟨rfl, runTwin⟩

/-- Turns keep twins: they run what looks the same, and both go on after it or none of them does. -/
theorem Twin.take
    (simulates : Simulates behaviour look ids related)
    (maxSteps maxForks : Nat)
    (twin : Twin ids related turn turn')
    (owns : Owns turn.arena (turn.cast :: others))
    (owns' : Owns turn'.arena (turn'.cast :: others')) :
    (turn'.take behaviour maxSteps maxForks).2 = (turn.take behaviour maxSteps maxForks).2 ∧
      (turn'.taken behaviour maxSteps maxForks).map look = (turn.taken behaviour maxSteps maxForks).map look ∧
      Twin ids related (turn.take behaviour maxSteps maxForks).1 (turn'.take behaviour maxSteps maxForks).1 := by
  obtain ⟨context, context', live, live', -⟩ := twin.contexts
  obtain ⟨sameAnswer, wokenTwin⟩ := twin.wake simulates live live'
  have keeps := keeps_wake (keeps_announced owns).owns context
  have keeps' := keeps_wake (keeps_announced owns').owns context'
  -- what is counted and logged at the end of a turn does not matter
  have left {turn turn' : Turn κ} (twin : Twin ids related turn turn') : Twin ids related turn.left turn'.left := by
    obtain ⟨context, context', live, live', still⟩ := twin.contexts
    exact ⟨⟨context, context', live, live', simulates.logged still (Realm.SameWorld.refl _).leave
      (Realm.SameWorld.refl _).leave⟩, twin.forks, twin.active, twin.nextId⟩
  rcases woke : turn.announced.wake context with ⟨woken, waits⟩
  rcases woke' : turn'.announced.wake context' with ⟨woken', waits'⟩
  rw [woke, woke'] at sameAnswer wokenTwin
  rw [woke] at keeps
  rw [woke'] at keeps'
  have same : waits' = waits := sameAnswer
  subst same
  cases waits' with
  | true =>
      rw [take_of_waits live woke, take_of_waits live' woke', taken_of_waits live woke, taken_of_waits live' woke']
      exact ⟨rfl, rfl, left wokenTwin⟩
  | false =>
      obtain ⟨sameRun, ranTwin⟩ := wokenTwin.run simulates maxSteps keeps.owns keeps'.owns
      rw [take_of_wakes live woke, take_of_wakes live' woke', taken_of_wakes live woke, taken_of_wakes live' woke']
      refine ⟨ranTwin.verdict simulates, sameRun, ?_⟩
      have counted : Twin ids related (woken.run behaviour maxForks maxSteps).counted
          (woken'.run behaviour maxForks maxSteps).counted :=
        ⟨ranTwin.contexts, ranTwin.forks, ranTwin.active, ranTwin.nextId⟩
      exact left counted

end Turn

end Spellcast
