import Spellcast.Proofs.Log
import Spellcast.Proofs.Ownership.Tick

/-!
# What a turn logs

A turn logs that the cast is stepping, then whether it waits or has stopped waiting, then its moves into children one
after the other, and at last that the limit of forks is exceeded, if it is: then the turn ends with a canceled context,
and the cast is completed. `Turn.Goes` says so of the part of a turn in which instructions run; it is composed step by
step.
-/

namespace Spellcast

variable {κ : Type} {behaviour : Behaviour κ} {maxSteps maxForks : Nat} {others : List InFlight}

namespace Event

/-- The events of the moves of a cast from a context into one child after the other, after so many forks. -/
def moves (id : CastId) : ContextId → Nat → List ContextId → List Event
  | _, _, [] => []
  | parent, forks, child :: rest => .castForked id parent child (forks + 1) :: moves id child (forks + 1) rest

theorem moves_append
    (id : CastId)
    (parent : ContextId)
    (forks : Nat)
    (first second : List ContextId) :
    moves id parent forks (first ++ second) =
      moves id parent forks first ++ moves id (first.getLast?.getD parent) (forks + first.length) second := by
  induction first generalizing parent forks with
  | nil => rfl
  | cons child rest inductionHypothesis =>
      have sameForks : forks + 1 + rest.length = forks + (child :: rest).length := by
        rw [List.length_cons, Nat.add_assoc, Nat.add_comm 1]
      rw [List.cons_append, moves, moves, inductionHypothesis, sameForks, List.getLast?_cons, Option.getD_some,
        List.cons_append]

/-- The parent of each child is the one before it, and the forks are counted on. -/
theorem moves_eq
    (id : CastId)
    (parent : ContextId)
    (forks : Nat)
    (children : List ContextId) :
    moves id parent forks children =
      ((parent :: children).zip children).mapIdx fun index link =>
        .castForked id link.1 link.2 (forks + index + 1) := by
  induction children generalizing parent forks with
  | nil => rfl
  | cons child rest inductionHypothesis =>
      rw [moves, inductionHypothesis, List.zip_cons_cons, List.mapIdx_cons]
      simp only [Nat.add_zero, Nat.add_assoc, Nat.add_comm 1]

theorem about?_of_mem_moves
    {id : CastId}
    {parent : ContextId}
    {forks : Nat}
    {children : List ContextId}
    {event : Event}
    (member : event ∈ moves id parent forks children) :
    event.about? = some (id, .forked) := by
  induction children generalizing parent forks with
  | nil => exact absurd member List.not_mem_nil
  | cons child rest inductionHypothesis =>
      rcases List.mem_cons.mp member with first | later
      · rw [first]
        rfl
      · exact inductionHypothesis later

theorem filter_moves
    (id : CastId)
    (parent : ContextId)
    (forks : Nat)
    (children : List ContextId)
    (kind : Kind) :
    (moves id parent forks children).filter (·.tells kind) =
      if kind = .forked then moves id parent forks children else [] := by
  have tells : ∀ event ∈ moves id parent forks children, event.tells kind = decide (kind = .forked) := by
    intro event member
    rw [Event.tells, about?_of_mem_moves member]
    cases kind with
    | forked => rfl
    | _ => rfl
  by_cases isMove : kind = .forked
  · rw [if_pos isMove]
    apply List.filter_eq_self.mpr
    intro event member
    rw [tells event member, decide_eq_true isMove]
  · rw [if_neg isMove]
    apply List.filter_eq_nil_iff.mpr
    intro event member
    rw [tells event member, decide_eq_false isMove]
    exact Bool.false_ne_true

end Event

namespace Turn

variable {turn before middle after : Turn κ} {context : Context κ} {children more : List ContextId}
  {limit : List Event}

/-- Instructions have run, and the cast has moved through these children. If the limit of forks was exceeded, that is
the last event, and the active context is canceled. -/
structure Goes (maxForks : Nat) (before : Turn κ) (children : List ContextId) (limit : List Event)
    (after : Turn κ) : Prop where
  logs : before.realm.Logs (Event.moves before.cast.id before.cast.active before.cast.forks children ++ limit)
    after.realm
  sameId : after.cast.id = before.cast.id
  active : after.cast.active = children.getLast?.getD before.cast.active
  forks : after.cast.forks = before.cast.forks + children.length
  contexts : after.cast.contexts = before.cast.contexts ++ children
  stopped : limit = [] ∨ limit = [.forkLimitExceeded before.cast.id maxForks] ∧
    ∃ context, after.arena.get? after.cast.active = some context ∧ context.canceled = true

theorem Goes.of_quiet
    (quiet : before.realm.Quiet after.realm)
    (sameCast : after.cast = before.cast) :
    Goes maxForks before [] [] after where
  logs := quiet.logs
  sameId := by rw [sameCast]
  active := by rw [sameCast]; rfl
  forks := by rw [sameCast]; rfl
  contexts := by rw [sameCast, List.append_nil]
  stopped := .inl rfl

theorem Goes.trans
    (earlier : Goes maxForks before children [] middle)
    (further : Goes maxForks middle more limit after) :
    Goes maxForks before (children ++ more) limit after where
  logs := by
    rw [Event.moves_append, ← earlier.active, ← earlier.forks, ← earlier.sameId, List.append_assoc]
    have first := earlier.logs
    rw [List.append_nil, ← earlier.sameId] at first
    exact first.trans further.logs
  sameId := further.sameId.trans earlier.sameId
  active := by
    rw [further.active, earlier.active, List.getLast?_append]
    cases more.getLast? with
    | none => rfl
    | some last => rfl
  forks := by rw [further.forks, earlier.forks, List.length_append, Nat.add_assoc]
  contexts := by rw [further.contexts, earlier.contexts, List.append_assoc]
  stopped := by
    rw [← earlier.sameId]
    exact further.stopped

theorem Runs.quiet
    {instruction : Instruction κ}
    {resolution : Resolution}
    {next : Context κ}
    {realm : Realm}
    (silent : behaviour.ReportsNoCasts)
    (runs : turn.Runs behaviour context instruction resolution next realm) :
    turn.realm.Quiet realm := by
  have casting : turn.realm.Quiet (turn.castingRealm behaviour instruction) := Realm.quiet_emit _ rfl
  have answered := silent.cast instruction.effect.code context.stepped (turn.castingRealm behaviour instruction)
  rw [runs.cast] at answered
  exact casting.trans answered

theorem goes_stoppedAtLimit
    (maxForks : Nat)
    (live : turn.arena.get? turn.cast.active = some context) :
    Goes maxForks turn [] [.forkLimitExceeded turn.cast.id maxForks] (turn.stoppedAtLimit maxForks context) where
  logs := (Realm.logs_emit turn.realm rfl rfl).quiet (context.terminate_quiet _)
  sameId := rfl
  active := rfl
  forks := rfl
  contexts := (List.append_nil _).symm
  stopped := .inr ⟨rfl, context.stopped, Arena.get?_set_self live, rfl⟩

theorem goes_movedOn
    (silent : behaviour.ReportsNoCasts)
    (maxForks : Nat)
    (turn : Turn κ)
    (context : Context κ) :
    Goes maxForks turn [turn.arena.nextId] [] (turn.movedOn behaviour context) where
  logs := by
    have made := context.makeChild_quiet silent turn.cast.active turn.realm
    exact (made.logs_trans (Realm.logs_move _ _ _ _ _ _ _ _)).quiet
      ((Context.cancel_quiet silent _ _ _).trans (.of_events_eq rfl))
  sameId := rfl
  active := rfl
  forks := rfl
  contexts := rfl
  stopped := .inl rfl

theorem goes_step
    (silent : behaviour.ReportsNoCasts)
    (maxForks : Nat)
    (owns : Owns turn.arena (turn.cast :: others)) :
    ∃ children limit, Goes maxForks turn children limit (turn.step behaviour maxForks).1 ∧
      ((turn.step behaviour maxForks).2 = true → limit = []) := by
  obtain ⟨context, live⟩ := active_live owns
  have cases := step_cases behaviour maxForks live (known owns)
  generalize (turn.step behaviour maxForks).1 = after at cases ⊢
  generalize (turn.step behaviour maxForks).2 = goesOn at cases ⊢
  cases cases with
  | exhausted _ _ =>
      exact ⟨[], [], .of_quiet (.refl _) rfl, fun _ => rfl⟩
  | proceed runs =>
      exact ⟨[], [], .of_quiet (runs.quiet silent) rfl, fun _ => rfl⟩
  | @limit _ next _ realm runs _ =>
      have ran : Goes maxForks turn [] [] (turn.ran next realm) := .of_quiet (runs.quiet silent) rfl
      exact ⟨_, _, ran.trans (goes_stoppedAtLimit maxForks (ran_live runs.live)), fun goesOn => by cases goesOn⟩
  | @fork _ next _ realm runs _ =>
      have ran : Goes maxForks turn [] [] (turn.ran next realm) := .of_quiet (runs.quiet silent) rfl
      exact ⟨_, _, ran.trans (goes_movedOn silent maxForks _ next), fun _ => rfl⟩

theorem goes_run
    (silent : behaviour.ReportsNoCasts)
    (maxForks budget : Nat)
    (owns : Owns turn.arena (turn.cast :: others)) :
    ∃ children limit, Goes maxForks turn children limit (turn.run behaviour maxForks budget) := by
  induction budget generalizing turn with
  | zero =>
      exact ⟨[], [], .of_quiet (.refl _) rfl⟩
  | succ budget inductionHypothesis =>
      have keeps := keeps_step behaviour maxForks owns
      obtain ⟨children, limit, goes, unlimited⟩ := goes_step silent maxForks owns
      rcases stepped : turn.step behaviour maxForks with ⟨next, goesOn⟩
      rw [stepped] at keeps goes unlimited
      cases goesOn with
      | false =>
          rw [run_of_stop stepped]
          exact ⟨children, limit, goes⟩
      | true =>
          obtain ⟨more, last, further⟩ := inductionHypothesis keeps.owns
          rw [unlimited rfl] at goes
          rw [run_of_go stepped]
          exact ⟨children ++ more, last, goes.trans further⟩

/-- The counter of the active context, if waking up takes its suspension away. -/
def released (turn : Turn κ) : Option Nat :=
  (turn.arena.get? turn.cast.active).bind fun context =>
    let woken := (turn.announced.wake context).1.arena.get? turn.cast.active
    if context.suspension.isSome && woken.any (·.suspension.isNone) then some context.counter else none

/-- What is logged when the active context wakes up: that its suspension was taken away, if it was, and else at most that
the cast waits. -/
def Wakes (turn : Turn κ) (waking : List Event) : Prop :=
  waking = turn.released.toList.map (.castResumed turn.cast.id) ∨
    turn.released = none ∧ ∃ left, waking = [.castSuspended turn.cast.id left]

theorem wake_logs
    (live : turn.arena.get? turn.cast.active = some context) :
    (turn.announced.wake context).1.cast = turn.cast ∧
      ∃ waking, turn.Wakes waking ∧ turn.announced.realm.Logs waking (turn.announced.wake context).1.realm := by
  have stillLive : turn.announced.arena.get? turn.announced.cast.active = some context := live
  have released : turn.released =
      if context.suspension.isSome &&
          ((turn.announced.wake context).1.arena.get? turn.cast.active).any (·.suspension.isNone) then
        some context.counter
      else none := by
    rw [Turn.released, live, Option.bind_some]
  have cases := wake_cases turn.announced context
  generalize (turn.announced.wake context).1 = woken at cases released ⊢
  generalize (turn.announced.wake context).2 = waits at cases
  cases cases with
  | awake nothing =>
      have unreleased : turn.released = none := by
        rw [released, show turn.announced.arena.get? turn.cast.active = _ from live]
        cases suspended : context.suspension with
        | none => rfl
        | some suspension => simp [suspended]
      exact ⟨rfl, [], .inl (by rw [unreleased]; rfl), (Realm.Quiet.refl _).logs⟩
  | @waits suspension running suspended long =>
      have held : (turn.announced.waited context (suspension.remaining - 1)).arena.get? turn.cast.active = _ :=
        Arena.get?_set_self stillLive
      have unreleased : turn.released = none := by
        rw [released, held, suspended]
        rfl
      exact ⟨rfl, _, .inr ⟨unreleased, _, rfl⟩, Realm.logs_emit _ rfl rfl⟩
  | resumes running suspended due =>
      have held : (turn.announced.resumed context).arena.get? turn.cast.active = _ := Arena.get?_set_self stillLive
      have released : turn.released = some context.counter := by
        rw [released, held, suspended]
        rfl
      exact ⟨rfl, _, .inl (by rw [released]; rfl), Realm.logs_emit _ rfl rfl⟩

theorem Wakes.about
    {waking : List Event}
    (wakes : turn.Wakes waking) :
    ∀ event ∈ waking,
      event.about? = some (turn.cast.id, .suspended) ∨ event.about? = some (turn.cast.id, .resumed) := by
  intro event member
  rcases wakes with rfl | ⟨-, left, rfl⟩
  · obtain ⟨counter, -, rfl⟩ := List.mem_map.mp member
    exact .inr rfl
  · rw [List.mem_singleton.mp member]
    exact .inl rfl

theorem Wakes.filter
    {waking : List Event}
    (wakes : turn.Wakes waking)
    {kind : Event.Kind}
    (other : kind ≠ .suspended ∧ kind ≠ .resumed) :
    waking.filter (·.tells kind) = [] := by
  apply List.filter_eq_nil_iff.mpr
  intro event member
  rcases wakes.about event member with waits | resumes
  · simpa [Event.tells, waits] using other.1.symm
  · simpa [Event.tells, resumes] using other.2.symm

theorem Wakes.filter_resumed
    {waking : List Event}
    (wakes : turn.Wakes waking) :
    waking.filter (·.tells .resumed) = turn.released.toList.map (.castResumed turn.cast.id) := by
  rcases wakes with rfl | ⟨unreleased, left, rfl⟩
  · apply List.filter_eq_self.mpr
    intro event member
    obtain ⟨counter, -, rfl⟩ := List.mem_map.mp member
    rfl
  · rw [unreleased]
    rfl

/-- What a turn says about its cast: that it is stepping, once; that it has stopped waiting, if its suspension was taken
away; its moves; and at most once that the limit of forks is exceeded, and then the cast is finished. -/
structure Tells (turn : Turn κ) (verdict : Verdict) (children : List ContextId) (own : List Event) : Prop where
  about : ∀ event ∈ own, event.cast? = some turn.cast.id
  started : own.filter (·.tells .started) = []
  stepping : own.filter (·.tells .stepping) = [.castStepping turn.cast.id turn.cast.active turn.cast.ticks]
  resumed : own.filter (·.tells .resumed) = turn.released.toList.map (.castResumed turn.cast.id)
  forked : own.filter (·.tells .forked) = Event.moves turn.cast.id turn.cast.active turn.cast.forks children
  limited : own.filter (·.tells .limited) = [] ∨ verdict = .finished ∧ (own.filter (·.tells .limited)).length = 1
  completed : own.filter (·.tells .completed) = []

theorem Wakes.tells
    {waking : List Event}
    {verdict : Verdict}
    (wakes : turn.Wakes waking)
    (maxForks : Nat)
    (children : List ContextId)
    (stopped : limit = [] ∨ limit = [.forkLimitExceeded turn.cast.id maxForks] ∧ verdict = .finished) :
    turn.Tells verdict children
      ([.castStepping turn.cast.id turn.cast.active turn.cast.ticks] ++ waking ++
        (Event.moves turn.cast.id turn.cast.active turn.cast.forks children ++ limit)) := by
  generalize isStepping : Event.castStepping turn.cast.id turn.cast.active turn.cast.ticks = stepping
  generalize isMoves : Event.moves turn.cast.id turn.cast.active turn.cast.forks children = moves
  -- the events of one kind, part by part
  have split (kind : Event.Kind) : ([stepping] ++ waking ++ (moves ++ limit)).filter (·.tells kind) =
      (if kind = .stepping then [stepping] else []) ++ waking.filter (·.tells kind) ++
        ((if kind = .forked then moves else []) ++ limit.filter (·.tells kind)) := by
    have first : [stepping].filter (·.tells kind) = if kind = .stepping then [stepping] else [] := by
      rw [← isStepping]
      cases kind with
      | stepping => rfl
      | _ => rfl
    rw [← first, ← isMoves, ← Event.filter_moves]
    simp only [List.filter_append]
  have stops {kind : Event.Kind} (other : kind ≠ .limited) : limit.filter (·.tells kind) = [] := by
    rcases stopped with rfl | ⟨rfl, -⟩
    · rfl
    · simpa [Event.tells, Event.about?] using other.symm
  refine ⟨?_, ?_, ?_, ?_, ?_, ?_, ?_⟩
  · intro event member
    rw [List.append_assoc, List.mem_append, List.mem_append, List.mem_append] at member
    rcases member with isFirst | woken | moved | limited
    · rw [List.mem_singleton.mp isFirst, ← isStepping]
      rfl
    · rcases wakes.about event woken with about | about
      · rw [Event.cast?, about]
        rfl
      · rw [Event.cast?, about]
        rfl
    · rw [← isMoves] at moved
      rw [Event.cast?, Event.about?_of_mem_moves moved]
      rfl
    · rcases stopped with rfl | ⟨rfl, -⟩
      · exact absurd limited List.not_mem_nil
      · rw [List.mem_singleton.mp limited]
        rfl
  · rw [split, wakes.filter (by decide), stops (by decide)]
    rfl
  · rw [split, wakes.filter (by decide), stops (by decide), isStepping]
    rfl
  · rw [split, wakes.filter_resumed, stops (by decide)]
    exact List.append_nil _
  · rw [split, wakes.filter (by decide), stops (by decide), isMoves]
    exact List.append_nil _
  · rw [split, wakes.filter (by decide)]
    rcases stopped with rfl | ⟨rfl, finished⟩
    · exact .inl rfl
    · exact .inr ⟨finished, rfl⟩
  · rw [split, wakes.filter (by decide), stops (by decide)]
    rfl

/-- What a turn logs, with the children that the cast moves through. -/
structure Reports (turn after : Turn κ) (verdict : Verdict) (children : List ContextId) (own : List Event) :
    Prop where
  logs : turn.realm.Logs own after.realm
  tells : turn.Tells verdict children own
  sameId : after.cast.id = turn.cast.id
  forks : after.cast.forks = turn.cast.forks + children.length
  contexts : after.cast.contexts = turn.cast.contexts ++ children

theorem take_reports
    (silent : behaviour.ReportsNoCasts)
    (maxSteps maxForks : Nat)
    (owns : Owns turn.arena (turn.cast :: others)) :
    ∃ children own, turn.Reports (turn.take behaviour maxSteps maxForks).1 (turn.take behaviour maxSteps maxForks).2
      children own := by
  obtain ⟨context, live⟩ := active_live owns
  have announced : turn.realm.Logs [.castStepping turn.cast.id turn.cast.active turn.cast.ticks] turn.announced.realm :=
    Realm.logs_enter_emit turn.realm _ rfl rfl
  obtain ⟨sameCast, waking, wakes, woke⟩ := wake_logs live
  have keeps := (keeps_announced owns).trans (keeps_wake (keeps_announced owns).owns context)
  rcases woken : turn.announced.wake context with ⟨next, waits⟩
  rw [woken] at sameCast woke keeps
  cases waits with
  | true =>
      rw [take_of_waits live woken]
      refine ⟨[], _, ?_, wakes.tells maxForks [] (.inl rfl), congrArg InFlight.id sameCast,
        congrArg InFlight.forks sameCast, ?_⟩
      · exact (announced.trans woke).trans (Realm.Quiet.logs (.of_events_eq rfl))
      · rw [List.append_nil]
        exact congrArg InFlight.contexts sameCast
  | false =>
      obtain ⟨children, limit, goes⟩ := goes_run silent maxForks maxSteps keeps.owns
      rw [take_of_wakes live woken]
      obtain ⟨logged, sameId, -, forks, contexts, stopped⟩ := goes
      rw [sameCast] at logged sameId forks contexts stopped
      refine ⟨children, _, ?_, wakes.tells maxForks children (stopped.imp_right ?_), sameId, forks, contexts⟩
      · exact (announced.trans woke).trans (logged.quiet (.of_events_eq rfl))
      · rintro ⟨isLimit, final, stillLive, canceled⟩
        exact ⟨isLimit, verdict_of_canceled stillLive canceled⟩

end Turn

end Spellcast
