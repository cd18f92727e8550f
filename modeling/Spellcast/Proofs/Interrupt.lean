import Spellcast.Proofs.Isolation.Shelter
import Spellcast.Proofs.Suspension

/-!
# Interrupts

Between two ticks a cast may be interrupted any number of times, and other things may happen in between. Each interrupt
changes the active context of the cast alone. `History.Halts` says what is left of the interrupts so far: the context
has the same instructions ahead, and is canceled with the last reason. In the next tick nothing runs then, whether there
is a suspension or not.
-/

namespace Spellcast

variable {κ : Type} {behaviour : Behaviour κ}

namespace Context

variable {context held : Context κ} {reason : CancelReason}

/-- The observers among the instructions that remain change neither whether and why the context is canceled nor what
remains. -/
def ObserversLeave (behaviour : Behaviour κ) (context : Context κ) : Prop :=
  ∀ instruction ∈ context.remainder.instructions, ∀ observer, instruction.observer = some observer →
    ∀ told realm,
      let answer := (behaviour.notify observer told realm).2.1
      (answer.canceled, answer.cancelReason, answer.counter, answer.program) =
        (told.canceled, told.cancelReason, told.counter, told.program)

/-- One context is what another one has become through interrupts, the last of them with this reason. -/
structure InterruptedWith (context held : Context κ) (last : Option CancelReason) : Prop where
  counter : held.counter = context.counter
  program : held.program = context.program
  canceled : ∀ reason ∈ last, held.canceled = true ∧ held.cancelReason = some reason

variable {last : Option CancelReason}

theorem InterruptedWith.remainder
    (interrupted : context.InterruptedWith held last) :
    held.remainder = context.remainder := by
  rw [Context.remainder, interrupted.counter, interrupted.program, Context.remainder]

theorem InterruptedWith.cancel
    (leave : context.ObserversLeave behaviour)
    (interrupted : context.InterruptedWith held last)
    (reason : CancelReason)
    (realm : Realm) :
    context.InterruptedWith (held.cancel behaviour reason realm).1 (some reason) := by
  have leaveHeld : held.ObserversLeave behaviour := by
    intro instruction member
    rw [interrupted.remainder] at member
    exact leave instruction member
  let marked : Context κ := { held with canceled := true, cancelReason := some reason }
  have same := walk_field (fun context => (context.canceled, context.cancelReason, context.counter, context.program))
    leaveHeld { context := marked, realm, told := 0, absorbed := false }
  obtain ⟨canceled, reasoned, counter, program⟩ := by simpa only [Prod.mk.injEq] using same
  refine ⟨counter.trans interrupted.counter, program.trans interrupted.program, ?_⟩
  intro other isReason
  obtain rfl := Option.some.inj isReason
  exact ⟨canceled, reasoned⟩

theorem InterruptedWith.stop
    (interrupted : context.InterruptedWith held last) :
    context.InterruptedWith held.stopped (some .terminated) := by
  refine ⟨interrupted.counter, interrupted.program, ?_⟩
  intro other isReason
  obtain rfl := Option.some.inj isReason
  exact ⟨rfl, rfl⟩

end Context

/-- The reason with which a deed interrupts the cast with the number, if it does. -/
def Deed.interrupt? (id : CastId) : Deed κ → Option CancelReason
  | .cancel other reason => if other = id then some reason else none
  | .terminate other => if other = id then some .terminated else none
  | .cast _ | .tick | .outside _ => none

namespace History

variable {history : History κ} {cast : InFlight} {context held : Context κ} {last : Option CancelReason}

/-- The cast is in flight and has become this through interrupts, the last of them with this reason. -/
structure Halts (history : History κ) (cast : InFlight) (context : Context κ) (last : Option CancelReason) : Prop where
  owns : history.Owns
  accounts : history.Accounts
  member : cast ∈ history.scheduler.casts
  live : ∃ held, history.scheduler.arena.get? cast.active = some held ∧ context.InterruptedWith held last

/-- What is neither a tick nor an interrupt of the cast leaves the cast and its contexts as they are. -/
theorem after_apart
    {deed : Deed κ}
    (behaviour : Behaviour κ)
    (owns : history.Owns)
    (member : cast ∈ history.scheduler.casts)
    (between : deed ≠ .tick)
    (foreign : deed.interrupt? cast.id = none) :
    cast ∈ (history.after behaviour deed).scheduler.casts ∧
      ∀ id ∈ cast.contexts,
        (history.after behaviour deed).scheduler.arena.get? id = history.scheduler.arena.get? id := by
  cases deed with
  | tick =>
      contradiction
  | cast added =>
      exact ⟨List.mem_append_left _ member, Scheduler.cast_apart owns member added history.realm⟩
  | cancel id reason =>
      have different : cast.id ≠ id := by
        rintro rfl
        simp [Deed.interrupt?] at foreign
      obtain ⟨arena, same⟩ := Scheduler.cancelCast_arena behaviour history.scheduler id reason history.realm
      refine ⟨?_, Scheduler.cancelCast_apart owns member different reason history.realm⟩
      simp only [History.after, cancel, same]
      exact member
  | terminate id =>
      have different : cast.id ≠ id := by
        rintro rfl
        simp [Deed.interrupt?] at foreign
      obtain ⟨arena, same⟩ := Scheduler.terminateCast_arena history.scheduler id history.realm
      refine ⟨?_, Scheduler.terminateCast_apart owns member different history.realm⟩
      simp only [History.after, terminate, same]
      exact member
  | outside realm =>
      exact ⟨member, fun _ _ => rfl⟩

theorem Halts.after
    {deed : Deed κ}
    (leave : context.ObserversLeave behaviour)
    (halts : history.Halts cast context last)
    (between : deed ≠ .tick) :
    (history.after behaviour deed).Halts cast context ((deed.interrupt? cast.id).or last) := by
  obtain ⟨held, live, interrupted⟩ := halts.live
  obtain ⟨owns, accounts⟩ := accounts_after halts.owns halts.accounts behaviour deed
  cases interrupts : deed.interrupt? cast.id with
  | none =>
      obtain ⟨member, contexts⟩ := after_apart behaviour halts.owns halts.member between interrupts
      have active : cast.active ∈ cast.contexts := (halts.owns.coherent _ halts.member).active_mem
      exact ⟨owns, accounts, member, held, (contexts _ active).trans live, interrupted⟩
  | some reason =>
      cases deed with
      | cancel id reason =>
          obtain ⟨rfl, rfl⟩ : id = cast.id ∧ _ := by
            simpa [Deed.interrupt?] using interrupts
          obtain ⟨noted, -, answer⟩ :=
            Scheduler.cancelCast_of_mem behaviour halts.accounts.castIds_nodup halts.member live reason history.realm
          refine ⟨owns, accounts, ?_, (held.cancel behaviour reason noted).1, ?_, interrupted.cancel leave reason noted⟩
          · simp only [History.after, History.cancel, answer]
            exact halts.member
          · simp only [History.after, History.cancel, answer]
            exact Arena.get?_set_self live
      | terminate id =>
          obtain ⟨rfl, rfl⟩ : id = cast.id ∧ _ := by
            simpa [Deed.interrupt?] using interrupts
          obtain ⟨noted, -, answer⟩ :=
            Scheduler.terminateCast_of_mem halts.accounts.castIds_nodup halts.member live history.realm
          refine ⟨owns, accounts, ?_, held.stopped, ?_, interrupted.stop⟩
          · simp only [History.after, History.terminate, answer]
            exact halts.member
          · simp only [History.after, History.terminate, answer]
            exact Arena.get?_set_self live
      | cast _ | tick | outside _ =>
          cases interrupts

theorem Halts.afterAll
    {deeds : List (Deed κ)}
    (leave : context.ObserversLeave behaviour)
    (halts : history.Halts cast context none)
    (between : ∀ deed ∈ deeds, deed ≠ .tick) :
    (history.afterAll behaviour deeds).Halts cast context (deeds.filterMap (·.interrupt? cast.id)).getLast? := by
  -- from the end, since it is the last interrupt that counts
  induction deeds using List.reverseRecOn with
  | nil =>
      exact halts
  | append_singleton earlier deed inductionHypothesis =>
      have before := inductionHypothesis fun other member => between other (List.mem_append_left _ member)
      have next := before.after leave (between deed (List.mem_append_right _ (List.mem_singleton_self _)))
      have reasons : ((earlier ++ [deed]).filterMap (·.interrupt? cast.id)).getLast? =
          (deed.interrupt? cast.id).or (earlier.filterMap (·.interrupt? cast.id)).getLast? := by
        rw [List.filterMap_append, List.getLast?_append]
        cases single : deed.interrupt? cast.id with
        | none =>
            simp [single]
        | some reason =>
            simp [single]
      rw [reasons, History.afterAll, List.foldl_append]
      exact next

/-- Stopping the cast answers that it was in flight. Its active context is marked, and nobody is notified. -/
def StopsSilently (history : History κ) (cast : InFlight) : Prop :=
  ∃ (held : Context κ) (left : Realm), history.scheduler.arena.get? cast.active = some held ∧
    history.realm.SameWorld left ∧
      history.scheduler.terminateCast cast.id history.realm =
        (true, { history.scheduler with arena := history.scheduler.arena.set cast.active held.stopped }, left)

theorem Halts.stops
    (halts : history.Halts cast context last) :
    history.StopsSilently cast := by
  obtain ⟨held, live, -⟩ := halts.live
  obtain ⟨noted, sameWorld, answer⟩ := Scheduler.terminateCast_of_mem halts.accounts.castIds_nodup halts.member live
    history.realm
  exact ⟨held, noted, live, sameWorld, answer⟩

/-- An interrupt of the cast touches no context of another cast. -/
theorem Halts.spares
    {deed : Deed κ}
    {other : InFlight}
    (behaviour : Behaviour κ)
    (halts : history.Halts cast context last)
    (interrupts : deed.interrupt? cast.id ≠ none)
    (member : other ∈ history.scheduler.casts)
    (different : other.id ≠ cast.id) :
    ∀ id ∈ other.contexts,
      (history.after behaviour deed).scheduler.arena.get? id = history.scheduler.arena.get? id := by
  have notTick : deed ≠ .tick := by
    rintro rfl
    exact interrupts rfl
  have foreign : deed.interrupt? other.id = none := by
    cases deed with
    | cancel id reason =>
        obtain rfl : id = cast.id := by
          simpa [Deed.interrupt?] using interrupts
        exact if_neg different.symm
    | terminate id =>
        obtain rfl : id = cast.id := by
          simpa [Deed.interrupt?] using interrupts
        exact if_neg different.symm
    | cast _ | tick | outside _ =>
        rfl
  exact (after_apart behaviour halts.owns member notTick foreign).2

end History

end Spellcast
