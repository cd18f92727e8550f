import Spellcast.Proofs.Accounting
import Spellcast.Proofs.Log.Chronicle

/-!
# The log tells the story of each cast

Since a scheduler was made the log tells of registered casts only (`History.Faithful`), and what it tells of one of them is
its chronicle (`History.Recounts`). Each tick adds the turns of the casts in flight, an interrupt adds one event about its
cast, and a registration begins a new chronicle, so that in every history the log and the scheduler agree.
-/

namespace Spellcast

variable {κ : Type} {behaviour : Behaviour κ} {rules : Rules κ}

namespace Scheduler

variable {scheduler : Scheduler κ} {id : CastId}

theorem cast_logs
    (scheduler : Scheduler κ)
    (context : Context κ)
    (realm : Realm) :
    realm.Logs [.castStarted scheduler.nextCast context.program.describe (context.describeCaster realm.world)]
      (scheduler.cast context realm).2.2 :=
  (Realm.logs_enter_emit realm "cast" rfl rfl).quiet (.of_events_eq rfl)

/-- What an interrupt logs: nothing, or that the cast in flight with the number is interrupted. -/
def Interrupted (scheduler : Scheduler κ) (id : CastId) (entries : List Event) : Prop :=
  entries = [] ∨ id ∈ scheduler.castIds ∧ ∃ reason notify, entries = [.castInterrupted id reason notify]

theorem mem_castIds_of_active
    {active : ContextId}
    (found : scheduler.activeContext? id = some active) :
    id ∈ scheduler.castIds := by
  obtain ⟨target, isTarget, -⟩ := Option.map_eq_some_iff.mp found
  obtain ⟨member, rfl⟩ := find?_mem isTarget
  exact List.mem_map_of_mem member

theorem cancelCast_logs
    (silent : behaviour.ReportsNoCasts)
    (scheduler : Scheduler κ)
    (id : CastId)
    (reason : CancelReason)
    (realm : Realm) :
    ∃ entries, scheduler.Interrupted id entries ∧
      realm.Logs entries (scheduler.cancelCast behaviour id reason realm).2.2 := by
  unfold cancelCast
  split
  · exact ⟨[], .inl rfl, (Realm.Quiet.refl _).logs⟩
  · next active found =>
    split
    · exact ⟨[], .inl rfl, (Realm.Quiet.refl _).logs⟩
    · next context live =>
      refine ⟨_, .inr ⟨mem_castIds_of_active found, reason.text, true, rfl⟩, ?_⟩
      exact (Realm.logs_enter_emit realm "cast_interrupt" rfl rfl).quiet
        ((Context.cancel_quiet silent reason context _).trans (.of_events_eq rfl))

theorem terminateCast_logs
    (scheduler : Scheduler κ)
    (id : CastId)
    (realm : Realm) :
    ∃ entries, scheduler.Interrupted id entries ∧ realm.Logs entries (scheduler.terminateCast id realm).2.2 := by
  unfold terminateCast
  split
  · exact ⟨[], .inl rfl, (Realm.Quiet.refl _).logs⟩
  · next active found =>
    split
    · exact ⟨[], .inl rfl, (Realm.Quiet.refl _).logs⟩
    · next context live =>
      refine ⟨_, .inr ⟨mem_castIds_of_active found, "external", false, rfl⟩, ?_⟩
      exact (Realm.logs_enter_emit realm "cast_interrupt" rfl rfl).quiet
        ((context.terminate_quiet _).trans (.of_events_eq rfl))

end Scheduler

namespace History

variable {history later : History κ} {id : CastId} {root : ContextId} {since : Nat} {entries : List Event}

/-- Since the log had so many events it tells of no cast but those that are registered, and each move stands behind the
fork that made the child. -/
structure Faithful (since : Nat) (history : History κ) : Prop where
  old : since ≤ history.realm.events.length
  follow : MovesFollowForks (history.realm.events.drop since)
  unheard : ∀ id, id ∉ history.registered → history.realm.told since id = []

theorem Faithful.logs
    (later : History κ)
    (faithful : Faithful since history)
    (logs : history.realm.Logs entries later.realm)
    (registered : history.registered ⊆ later.registered)
    (about : ∀ event ∈ entries, ∃ id ∈ later.registered, event.cast? = some id) :
    Faithful since later where
  old := logs.old faithful.old
  follow := by
    obtain ⟨added, grown, -, follow⟩ := logs
    rw [grown, List.drop_append_of_le_length faithful.old]
    exact faithful.follow.append follow
  unheard id unknown := by
    have others : ∀ event ∈ entries, event.cast? ≠ some id := by
      intro event member same
      obtain ⟨other, known, aboutOther⟩ := about event member
      exact unknown (Option.some.inj (aboutOther.symm.trans same) ▸ known)
    rw [logs.told_other faithful.old others]
    exact faithful.unheard id fun known => unknown (registered known)

theorem Faithful.cast
    (faithful : Faithful since history)
    (context : Context κ) :
    Faithful since (history.cast context) := by
  refine Faithful.logs (history.cast context) faithful
    (Scheduler.cast_logs history.scheduler context history.realm) (List.subset_append_left _ _) ?_
  intro event member
  rw [List.mem_singleton.mp member]
  exact ⟨history.scheduler.nextCast, List.mem_append_right _ (List.mem_singleton_self _), rfl⟩

theorem Faithful.tick
    (silent : behaviour.ReportsNoCasts)
    (owns : history.Owns)
    (accounts : history.Accounts)
    (faithful : Faithful since history) :
    Faithful since (history.tick behaviour) := by
  obtain ⟨entries, logged, about⟩ := Scheduler.tick_logs silent owns history.realm
  refine Faithful.logs (history.tick behaviour) faithful logged (List.Subset.refl _) ?_
  intro event member
  obtain ⟨cast, inFlight, aboutCast⟩ := about event member
  exact ⟨cast.id, accounts.inFlight.subset (List.mem_map_of_mem inFlight), aboutCast⟩

theorem Faithful.interrupted
    {scheduler : Scheduler κ}
    {realm : Realm}
    (accounts : history.Accounts)
    (faithful : Faithful since history)
    (interrupted : history.scheduler.Interrupted id entries)
    (logs : history.realm.Logs entries realm) :
    Faithful since { history with scheduler, realm } := by
  refine Faithful.logs { history with scheduler, realm } faithful logs (List.Subset.refl _) ?_
  intro event member
  rcases interrupted with rfl | ⟨inFlight, reason, notify, rfl⟩
  · exact absurd member List.not_mem_nil
  · rw [List.mem_singleton.mp member]
    exact ⟨id, accounts.inFlight.subset inFlight, rfl⟩

/-- What the log tells of the cast with the number is what the scheduler keeps of it, and what its outcome says. -/
structure Recounts (since : Nat) (id : CastId) (root : ContextId) (history : History κ) : Prop where
  given : id < history.scheduler.nextCast
  inFlight : ∀ cast ∈ history.scheduler.casts, cast.id = id →
    ∃ contexts children, Ongoing cast root contexts children (history.realm.told since id)
  reported : ∀ outcome ∈ history.completed, outcome.id = id →
    ∃ contexts children, Closed outcome root contexts children (history.realm.told since id)

theorem recounts_cast
    (accounts : history.Accounts)
    (faithful : Faithful since history)
    (context : Context κ) :
    Recounts since history.scheduler.nextCast history.scheduler.arena.nextId (history.cast context) where
  given := Nat.lt_succ_self _
  inFlight cast member same := by
    rcases List.mem_append.mp member with old | new
    · exact absurd (same ▸ accounts.inFlight.subset (List.mem_map_of_mem old)) accounts.nextCast_unknown
    · have logged := Scheduler.cast_logs history.scheduler context history.realm
      generalize isStarted : Event.castStarted history.scheduler.nextCast _ _ = started at logged
      have about : ∀ event ∈ [started], event.cast? = some history.scheduler.nextCast := by
        intro event member
        rw [List.mem_singleton.mp member, ← isStarted]
        rfl
      have told : (history.cast context).realm.told since history.scheduler.nextCast = [started] := by
        have appended := logged.told_own faithful.old about
        rwa [faithful.unheard _ accounts.nextCast_unknown, List.nil_append] at appended
      rw [told, ← isStarted, List.mem_singleton.mp new]
      exact ⟨[], [], chronicle_started _ _ _ _, rfl, rfl, rfl, rfl⟩
  reported outcome member same :=
    absurd (same ▸ accounts.registered_of_completed member) accounts.nextCast_unknown

theorem Accounts.not_in_flight
    {outcome : Outcome κ}
    (accounts : history.Accounts)
    (completed : outcome ∈ history.completed) :
    outcome.id ∉ history.scheduler.castIds := by
  apply accounts.not_mem_castIds
  rw [completedIds_eq]
  exact List.mem_map_of_mem completed

theorem Recounts.cast
    (faithful : Faithful since history)
    (recounts : Recounts since id root history)
    (context : Context κ) :
    Recounts since id root (history.cast context) := by
  have told : (history.cast context).realm.told since id = history.realm.told since id := by
    apply (Scheduler.cast_logs history.scheduler context history.realm).told_other faithful.old
    intro event member same
    rw [List.mem_singleton.mp member] at same
    exact Nat.ne_of_gt recounts.given (Option.some.inj same)
  refine ⟨Nat.lt_succ_of_lt recounts.given, ?_, ?_⟩
  · intro cast member same
    rw [told]
    rcases List.mem_append.mp member with old | new
    · exact recounts.inFlight cast old same
    · rw [List.mem_singleton.mp new] at same
      exact absurd same (Nat.ne_of_gt recounts.given)
  · intro outcome member same
    rw [told]
    exact recounts.reported outcome member same

theorem Recounts.tick
    (silent : behaviour.ReportsNoCasts)
    (owns : history.Owns)
    (accounts : history.Accounts)
    (faithful : Faithful since history)
    (recounts : Recounts since id root history) :
    Recounts since id root (history.tick behaviour) := by
  have distinct := accounts.castIds_nodup
  obtain ⟨kept, done, -⟩ := Scheduler.tick_ids behaviour owns history.realm
  by_cases inFlight : id ∈ history.scheduler.castIds
  · obtain ⟨cast, member, rfl⟩ := List.mem_map.mp inFlight
    obtain ⟨contexts, children, ongoing⟩ := recounts.inFlight cast member rfl
    obtain ⟨turn, after, verdict, moved, own, narrated⟩ :=
      Scheduler.exists_narrated silent owns distinct member faithful.old
    obtain ⟨turned, taken, reports, sameTicks, -, told⟩ := narrated
    have sameId : after.cast.id = cast.id := by
      rw [reports.sameId, turned.started]
    have told : (history.tick behaviour).realm.told since cast.id = _ := told
    have coherent := owns.coherent cast member
    cases verdict with
    | running =>
        obtain ⟨onlyOne, unreported⟩ := turned.alone_of_running owns distinct taken
        have stays := ongoing.stays coherent turned.started sameTicks reports
        rw [Turn.closing, List.append_nil] at told
        refine ⟨recounts.given, ?_, ?_⟩
        · intro other otherMember same
          rw [onlyOne other otherMember (same.trans sameId.symm), told]
          exact ⟨_, _, stays⟩
        · intro outcome outcomeMember same
          rw [completed_tick] at outcomeMember
          rcases List.mem_append.mp outcomeMember with old | new
          · exact absurd (same ▸ inFlight) (accounts.not_in_flight old)
          · exact absurd (same.trans sameId.symm) (unreported outcome new)
    | finished =>
        obtain ⟨gone, onlyOne⟩ := turned.alone_of_finished owns distinct taken
        have closed := ongoing.finishes coherent turned.started sameTicks reports
        refine ⟨recounts.given, ?_, ?_⟩
        · intro other otherMember same
          exact absurd (sameId.trans same.symm ▸ List.mem_map_of_mem otherMember) gone
        · intro outcome outcomeMember same
          rw [completed_tick] at outcomeMember
          rcases List.mem_append.mp outcomeMember with old | new
          · exact absurd (same ▸ inFlight) (accounts.not_in_flight old)
          · rw [onlyOne outcome new (same.trans sameId.symm), told]
            exact ⟨_, _, closed⟩
  · have told : (history.tick behaviour).realm.told since id = history.realm.told since id :=
      Scheduler.tick_told_of_absent silent owns inFlight faithful.old
    refine ⟨recounts.given, ?_, ?_⟩
    · intro cast member same
      exact absurd (kept.subset (same ▸ List.mem_map_of_mem member)) inFlight
    · intro outcome member same
      rw [completed_tick] at member
      rcases List.mem_append.mp member with old | new
      · rw [told]
        exact recounts.reported outcome old same
      · exact absurd (done.subset (same ▸ List.mem_map_of_mem new)) inFlight

/-- Interrupts change nothing that the scheduler keeps of a cast, and what they log is no part of its turns. -/
theorem Recounts.interrupted
    {scheduler : Scheduler κ}
    {realm : Realm}
    {other : CastId}
    (accounts : history.Accounts)
    (faithful : Faithful since history)
    (recounts : Recounts since id root history)
    (unchanged : ∃ arena, scheduler = { history.scheduler with arena })
    (interrupted : history.scheduler.Interrupted other entries)
    (logs : history.realm.Logs entries realm) :
    Recounts since id root { history with scheduler, realm } := by
  obtain ⟨arena, rfl⟩ := unchanged
  have apart (others : ∀ event ∈ entries, event.cast? ≠ some id) :
      Recounts since id root
        { history with scheduler := { history.scheduler with arena }, realm } := by
    have told := logs.told_other faithful.old others
    exact ⟨recounts.given, told ▸ recounts.inFlight, told ▸ recounts.reported⟩
  rcases interrupted with rfl | ⟨inFlight, reason, notify, rfl⟩
  · exact apart fun _ nothing => absurd nothing List.not_mem_nil
  · by_cases same : other = id
    · subst same
      have about : ∀ event ∈ [Event.castInterrupted other reason notify], event.cast? = some other := by
        intro event member
        rw [List.mem_singleton.mp member]
        rfl
      have told := logs.told_own faithful.old about
      refine ⟨recounts.given, ?_, ?_⟩
      · intro cast member same
        obtain ⟨contexts, children, ongoing⟩ := recounts.inFlight cast member same
        have interrupted := ongoing.interrupt reason notify
        rw [same, ← told] at interrupted
        exact ⟨contexts, children, interrupted⟩
      · intro outcome member same
        exact absurd (same ▸ inFlight) (accounts.not_in_flight member)
    · apply apart
      intro event member about
      rw [List.mem_singleton.mp member] at about
      exact same (Option.some.inj about)

/-- The log is faithful, and it recounts some casts, each with its root. -/
structure Tells (since : Nat) (roots : CastId → ContextId → Prop) (history : History κ) : Prop where
  accounts : history.Owns ∧ history.Accounts
  faithful : Faithful since history
  recounts : ∀ id root, roots id root → Recounts since id root history

theorem Tells.interrupted
    {roots : CastId → ContextId → Prop}
    {scheduler : Scheduler κ}
    {realm : Realm}
    (tells : history.Tells since roots)
    (accounts : { history with scheduler, realm }.Owns ∧ { history with scheduler, realm }.Accounts)
    (unchanged : ∃ arena, scheduler = { history.scheduler with arena })
    (interrupted : history.scheduler.Interrupted id entries)
    (logs : history.realm.Logs entries realm) :
    Tells since roots { history with scheduler, realm } where
  accounts := accounts
  faithful := tells.faithful.interrupted tells.accounts.2 interrupted logs
  recounts id root tracked :=
    (tells.recounts id root tracked).interrupted tells.accounts.2 tells.faithful unchanged interrupted logs

end History

/-- On the way to a history a registration has answered this number, and this context was the root of the cast. -/
def RegisteredWith (rules : Rules κ) (behaviour : Behaviour κ) (origin history : History κ) (id : CastId)
    (root : ContextId) : Prop :=
  ∃ earlier context, Reaches rules behaviour origin earlier ∧ rules.calls (.cast context) ∧
    Reaches rules behaviour (earlier.cast context) history ∧
    (earlier.scheduler.cast context earlier.realm).1 = id ∧ (earlier.cast context).scheduler.activeContext? id = some root

section Reached

variable {scheduler : Scheduler κ} {realm : Realm} {origin history : History κ} {id : CastId} {root : ContextId}
  {since : Nat}

theorem Reaches.tells
    {roots : CastId → ContextId → Prop}
    (silent : behaviour.ReportsNoCasts)
    (quiet : ∀ before after, rules.outside before after → before.Quiet after)
    (initial : origin.Tells since roots)
    (reached : Reaches rules behaviour origin history) :
    history.Tells since roots := by
  have stable := History.accounts_stable behaviour rules
  refine reached.obeys _ initial ?_ ?_ ?_ ?_ ?_
  · intro history context _ tells
    exact ⟨stable.cast history context tells.accounts, tells.faithful.cast context,
      fun id root tracked => (tells.recounts id root tracked).cast tells.faithful context⟩
  · intro history tells
    obtain ⟨owns, accounts⟩ := tells.accounts
    exact ⟨stable.tick history tells.accounts, tells.faithful.tick silent owns accounts,
      fun id root tracked => (tells.recounts id root tracked).tick silent owns accounts tells.faithful⟩
  · intro history other reason allowed tells
    obtain ⟨entries, interrupted, logs⟩ := history.scheduler.cancelCast_logs silent other reason history.realm
    exact tells.interrupted (stable.cancel history other reason allowed tells.accounts)
      (history.scheduler.cancelCast_arena behaviour other reason history.realm) interrupted logs
  · intro history other allowed tells
    obtain ⟨entries, interrupted, logs⟩ := history.scheduler.terminateCast_logs other history.realm
    exact tells.interrupted (stable.terminate history other allowed tells.accounts)
      (history.scheduler.terminateCast_arena other history.realm) interrupted logs
  · intro history realm allowed tells
    have nothing : history.scheduler.Interrupted 0 [] := .inl rfl
    exact tells.interrupted (stable.outside history realm tells.accounts) ⟨_, rfl⟩ nothing
      (quiet history.realm realm allowed).logs

theorem Reaches.tells_of_made
    (silent : behaviour.ReportsNoCasts)
    (quiet : ∀ before after, rules.outside before after → before.Quiet after)
    (made : scheduler.Made)
    (reached : Reaches rules behaviour (.start scheduler realm) history) :
    history.Tells realm.events.length fun _ _ => False := by
  have nothing : (History.start scheduler realm).realm.events.drop realm.events.length = [] := List.drop_length
  have faithful : History.Faithful realm.events.length (.start scheduler realm) := by
    refine ⟨Nat.le_refl _, ?_, ?_⟩
    · rw [nothing]
      exact movesFollowForks_of_notMove fun _ member => absurd member List.not_mem_nil
    · intro id _
      rw [Realm.told, nothing, List.filter_nil]
  have started : Reaches rules behaviour (.start scheduler realm) (.start scheduler realm) := .origin
  have initial : (History.start scheduler realm).Tells realm.events.length fun _ _ => False :=
    ⟨⟨started.owns made, started.accounts made⟩, faithful, fun _ _ untracked => untracked.elim⟩
  exact reached.tells silent quiet initial

theorem Reaches.recounts
    (silent : behaviour.ReportsNoCasts)
    (quiet : ∀ before after, rules.outside before after → before.Quiet after)
    (made : scheduler.Made)
    (reached : Reaches rules behaviour (.start scheduler realm) history)
    (registered : id ∈ history.registered) :
    ∃ root, RegisteredWith rules behaviour (.start scheduler realm) history id root ∧
      history.Recounts realm.events.length id root := by
  obtain ⟨-, earlier, context, before, allowed, between, rfl, -⟩ := reached.exists_registeredAfter rfl registered
  have told := before.tells_of_made silent quiet made
  obtain ⟨owns, accounts⟩ := told.accounts
  let roots : CastId → ContextId → Prop := fun id root =>
    id = earlier.scheduler.nextCast ∧ root = earlier.scheduler.arena.nextId
  have initial : (earlier.cast context).Tells realm.events.length roots := by
    refine ⟨(History.accounts_stable behaviour rules).cast earlier context told.accounts, told.faithful.cast context, ?_⟩
    rintro id root ⟨rfl, rfl⟩
    exact History.recounts_cast accounts told.faithful context
  refine ⟨earlier.scheduler.arena.nextId, ?_, (between.tells silent quiet initial).recounts _ _ ⟨rfl, rfl⟩⟩
  have unknown : earlier.scheduler.find? earlier.scheduler.nextCast = none :=
    Scheduler.find?_eq_none fun inFlight => accounts.nextCast_unknown (accounts.inFlight.subset inFlight)
  rw [Scheduler.find?] at unknown
  have active : (earlier.cast context).scheduler.activeContext? earlier.scheduler.nextCast =
      some earlier.scheduler.arena.nextId := by
    simp [History.cast, Scheduler.cast, Scheduler.activeContext?, Scheduler.find?, List.find?_append, unknown,
      Arena.insert]
  exact ⟨earlier, context, before, allowed, between, rfl, active⟩

/-- What a tick adds to what is told about a cast in flight: one turn in the context that is active at its start, and one
event for each suspension that is taken away. -/
theorem History.Tells.tick
    {cast : InFlight}
    {roots : CastId → ContextId → Prop}
    (silent : behaviour.ReportsNoCasts)
    (tells : history.Tells since roots)
    (member : cast ∈ history.scheduler.casts) :
    ∃ own, (history.tick behaviour).realm.told since cast.id = history.realm.told since cast.id ++ own ∧
      own.filter (·.tells .stepping) = [.castStepping cast.id cast.active (cast.ticks + 1)] ∧
      own.filter (·.tells .resumed) =
        ((history.scheduler.releases behaviour history.realm).filter (·.1 == cast.id)).map
          fun release => .castResumed release.1 release.2 := by
  obtain ⟨owns, accounts⟩ := tells.accounts
  obtain ⟨turn, after, verdict, children, own, narrated⟩ :=
    Scheduler.exists_narrated silent owns accounts.castIds_nodup member tells.faithful.old
  obtain ⟨turned, -, reports, -, released, told⟩ := narrated
  have stepping := reports.tells.stepping
  have resumed := reports.tells.resumed
  rw [turned.started] at stepping resumed
  have closing (kind : Event.Kind) (other : kind ≠ .completed) : (after.closing verdict).filter (·.tells kind) = [] := by
    cases verdict with
    | running => rfl
    | finished => simpa [Turn.closing, Event.tells, Event.about?] using other.symm
  refine ⟨own ++ after.closing verdict, told, ?_, ?_⟩
  · rw [List.filter_append, stepping, closing _ (by decide), List.append_nil]
  · rw [List.filter_append, resumed, closing _ (by decide), List.append_nil, released, List.map_map]
    rfl

/-- What is no tick tells of a cast at most that it is started or interrupted. -/
theorem History.Tells.perform
    {roots : CastId → ContextId → Prop}
    {call : Call κ}
    {kind : Event.Kind}
    (silent : behaviour.ReportsNoCasts)
    (tells : history.Tells since roots)
    (noTick : call ≠ .tick ∧ ∀ limit, call ≠ .runUntilIdle limit)
    (other : kind ≠ .started ∧ kind ≠ .interrupted)
    (id : CastId) :
    ((history.perform behaviour call).realm.told since id).filter (·.tells kind) =
      (history.realm.told since id).filter (·.tells kind) := by
  have old := tells.faithful.old
  have interrupts {number : CastId} {entries : List Event}
      (interrupted : history.scheduler.Interrupted number entries) :
      ∀ event ∈ entries, event.tells kind = false := by
    intro event member
    rcases interrupted with rfl | ⟨-, reason, notify, rfl⟩
    · exact absurd member List.not_mem_nil
    · rw [List.mem_singleton.mp member]
      simpa [Event.tells, Event.about?] using other.2.symm
  cases call with
  | tick => exact absurd rfl noTick.1
  | runUntilIdle limit => exact absurd rfl (noTick.2 limit)
  | cast context =>
      refine (Scheduler.cast_logs history.scheduler context history.realm).told_filter old ?_ id
      intro event member
      rw [List.mem_singleton.mp member]
      simpa [Event.tells, Event.about?] using other.1.symm
  | cancel number reason =>
      obtain ⟨entries, interrupted, logs⟩ := history.scheduler.cancelCast_logs silent number reason history.realm
      exact logs.told_filter old (interrupts interrupted) id
  | terminate number =>
      obtain ⟨entries, interrupted, logs⟩ := history.scheduler.terminateCast_logs number history.realm
      exact logs.told_filter old (interrupts interrupted) id

/-- The log tells the story of each cast. Every move stands behind the fork that made the child, and of a cast that is not
registered nothing is told. Of a registered one a chronicle from its root on is told, with the ticks and the contexts that
the scheduler keeps of it; that the limit of forks is exceeded, at most once; and if it is completed, and only then, that
it is, at the end and with what the outcome says. Each tick adds one turn for every cast in flight, in the context that is
active then, and one event for each suspension that it takes away, and nothing about other casts; calls between the ticks
add at most that a cast is started or interrupted. -/
theorem logsTellEachCast
    (silent : behaviour.ReportsNoCasts)
    (quiet : ∀ before after, rules.outside before after → before.Quiet after)
    (made : scheduler.Made)
    (reached : Reaches rules behaviour (.start scheduler realm) history)
    (id : CastId) :
    let since := realm.events.length
    let told := history.realm.told since id
    let toldNext := (history.tick behaviour).realm.told since id
    MovesFollowForks (history.realm.events.drop since) ∧
    (id ∉ history.registered → told = []) ∧
    (id ∈ history.registered → ∃ root contexts children,
      RegisteredWith rules behaviour (.start scheduler realm) history id root ∧
      Chronicle id root contexts children told ∧ (told.filter (·.tells .limited)).length ≤ 1 ∧
      (∀ cast ∈ history.scheduler.casts, cast.id = id →
        cast.ticks = contexts.length ∧ cast.contexts = root :: children) ∧
      (∀ outcome ∈ history.completed, outcome.id = id →
        outcome.ticks = contexts.length ∧ outcome.forks = children.length ∧
        ∃ earlier, earlier.filter (·.tells .completed) = [] ∧
          told = earlier ++ [.castCompleted id outcome.steps outcome.forks outcome.ticks
            (outcome.cancelReason.map CancelReason.text)]) ∧
      (told.filter (·.tells .completed) ≠ [] ↔ id ∈ history.completedIds)) ∧
    (∀ cast ∈ history.scheduler.casts, cast.id = id → ∃ own, toldNext = told ++ own ∧
      own.filter (·.tells .stepping) = [.castStepping id cast.active (cast.ticks + 1)] ∧
      own.filter (·.tells .resumed) = ((history.scheduler.releases behaviour history.realm).filter (·.1 == id)).map
        fun release => .castResumed release.1 release.2) ∧
    (id ∉ history.scheduler.castIds → toldNext = told) ∧
    ∀ call kind, call ≠ .tick ∧ (∀ limit, call ≠ .runUntilIdle limit) → kind ≠ .started ∧ kind ≠ .interrupted →
      ((history.perform behaviour call).realm.told since id).filter (·.tells kind) = told.filter (·.tells kind) := by
  have tells := reached.tells_of_made silent quiet made
  obtain ⟨owns, accounts⟩ := tells.accounts
  refine ⟨tells.faithful.follow, tells.faithful.unheard id, ?_, ?_, ?_, ?_⟩
  · intro registered
    obtain ⟨root, isRoot, recounts⟩ := reached.recounts silent quiet made registered
    rcases List.mem_append.mp (accounts.divided.mem_iff.mpr registered) with inFlight | completed
    · obtain ⟨cast, member, rfl⟩ := List.mem_map.mp inFlight
      obtain ⟨contexts, children, ongoing⟩ := recounts.inFlight cast member rfl
      refine ⟨root, contexts, children, isRoot, ongoing.chronicle, ?_, ?_, ?_, ?_⟩
      · rw [ongoing.unlimited]
        exact Nat.zero_le _
      · intro other otherMember same
        rw [List.inj_on_of_nodup_map accounts.castIds_nodup otherMember member same]
        exact ⟨ongoing.ticks, ongoing.contexts⟩
      · intro outcome reported same
        exact absurd (same ▸ inFlight) (accounts.not_in_flight reported)
      · apply iff_of_false
        · exact not_not_intro ongoing.uncompleted
        · exact fun completed => accounts.not_mem_castIds completed inFlight
    · have isCompleted := completed
      have distinct := (List.nodup_append.mp accounts.nodup).2.1
      rw [History.completedIds_eq] at completed distinct
      obtain ⟨outcome, reported, rfl⟩ := List.mem_map.mp completed
      obtain ⟨contexts, children, closed⟩ := recounts.reported outcome reported rfl
      refine ⟨root, contexts, children, isRoot, closed.chronicle, closed.limited, ?_, ?_, ?_⟩
      · intro cast member same
        exact absurd (same ▸ List.mem_map_of_mem member) (accounts.not_in_flight reported)
      · intro other otherReported same
        rw [List.inj_on_of_nodup_map distinct otherReported reported same]
        exact ⟨closed.ticks, closed.forks, closed.ends⟩
      · apply iff_of_true _ isCompleted
        obtain ⟨before, -, isLast⟩ := closed.ends
        rw [isLast, List.filter_append]
        exact List.append_ne_nil_of_right_ne_nil _ (List.cons_ne_nil _ [])
  · rintro cast member rfl
    exact tells.tick silent member
  · intro absent
    exact Scheduler.tick_told_of_absent silent owns absent tells.faithful.old
  · intro call kind noTick other
    exact tells.perform silent noTick other id

end Reached

/-- A mark behind a delay of two ticks: a fork in the first tick, a wait in the second one, and in the third one the
suspension is over and the cast is completed. -/
theorem logsTellEachCast_delayedMark :
    let delay : Instruction Glyph := .plain Glyph.marksId ⟨0, .delay 2⟩
    let mark : Instruction Glyph := .plain Glyph.marksId ⟨1, .mark Glyph.marksId⟩
    let rules : Rules Glyph := ⟨fun _ => True, Realm.Quiet⟩
    let fresh : History Glyph := .start .empty .empty
    let begun := fresh.cast (.ofProgram (.ofInstructions [delay, mark]))
    let history := ((begun.tick Glyph.behaviour).tick Glyph.behaviour).tick Glyph.behaviour
    Glyph.behaviour.ReportsNoCasts ∧ (∀ before after, rules.outside before after → before.Quiet after) ∧
      Scheduler.Made fresh.scheduler ∧ Reaches rules Glyph.behaviour fresh history ∧
      (history.realm.told 0 1).drop 1 =
        [.castStepping 1 0 1, .castForked 1 0 1 1, .castStepping 1 1 2, .castSuspended 1 1, .castStepping 1 1 3,
          .castResumed 1 0, .castCompleted 1 2 1 3 none] ∧
      ∃ root contexts children, RegisteredWith rules Glyph.behaviour fresh history 1 root ∧
        Chronicle 1 root contexts children (history.realm.told 0 1) := by
  intro delay mark rules fresh begun history
  have quiet : ∀ before after, rules.outside before after → before.Quiet after := fun _ _ quiet => quiet
  have reached : Reaches rules Glyph.behaviour fresh history :=
    .call .tick (.call .tick (.call .tick (.call (.cast _) .origin trivial) trivial) trivial) trivial
  obtain ⟨-, -, registered, -⟩ := logsTellEachCast Glyph.behaviour_reportsNoCasts quiet .empty reached 1
  obtain ⟨root, contexts, children, isRoot, chronicle, -⟩ := registered (by decide)
  exact ⟨Glyph.behaviour_reportsNoCasts, quiet, .empty, reached, by decide +kernel, root, contexts, children, isRoot,
    chronicle⟩

end Spellcast
