import Spellcast.Glyph
import Spellcast.Proofs.Lineage

/-!
# Lineages in histories

In every history the contexts of each cast in flight are a chain of parents. A context that is no longer active is
retired: it never becomes active again, no instruction runs in it, and nothing changes it until its cast is completed.
-/

namespace Spellcast

variable {κ : Type} {behaviour : Behaviour κ} {rules : Rules κ}

namespace Turn

variable {turn : Turn κ} {others : List InFlight} {maxSteps maxForks : Nat}

/-- The instructions that `run` runs, in order, each with the number of the context that it runs in. -/
def executedIn (behaviour : Behaviour κ) (maxForks : Nat) : Nat → Turn κ → List (ContextId × Instruction κ)
  | 0, _ => []
  | budget + 1, turn =>
    let first := turn.next?.toList.map (turn.cast.active, ·)
    match turn.step behaviour maxForks with
    | (after, true) => first ++ executedIn behaviour maxForks budget after
    | (_, false) => first

/-- The instructions that `take` runs, in order, each with the number of the context that it runs in. -/
def takenIn (behaviour : Behaviour κ) (maxSteps maxForks : Nat) (turn : Turn κ) : List (ContextId × Instruction κ) :=
  match turn.arena.get? turn.cast.active with
  | none => []
  | some context =>
    match turn.announced.wake context with
    | (_, true) => []
    | (woken, false) => woken.executedIn behaviour maxForks maxSteps

theorem executedIn_map
    (behaviour : Behaviour κ)
    (maxForks : Nat)
    (budget : Nat)
    (turn : Turn κ) :
    (turn.executedIn behaviour maxForks budget).map (·.2) = turn.executed behaviour maxForks budget := by
  induction budget generalizing turn with
  | zero =>
      rfl
  | succ budget inductionHypothesis =>
      have first : (turn.next?.toList.map (turn.cast.active, ·)).map (·.2) = turn.next?.toList := by
        rw [List.map_map]
        exact List.map_id _
      rcases stepped : turn.step behaviour maxForks with ⟨after, goesOn⟩
      cases goesOn with
      | false =>
          simp only [executedIn, executed, stepped]
          exact first
      | true =>
          simp only [executedIn, executed, stepped]
          rw [List.map_append, first, inductionHypothesis]

/-- The instructions with their contexts are the instructions that a turn runs. -/
theorem takenIn_map
    (behaviour : Behaviour κ)
    (maxSteps maxForks : Nat)
    (turn : Turn κ) :
    (turn.takenIn behaviour maxSteps maxForks).map (·.2) = turn.taken behaviour maxSteps maxForks := by
  unfold takenIn taken
  cases turn.arena.get? turn.cast.active with
  | none =>
      rfl
  | some context =>
      rcases woke : turn.announced.wake context with ⟨woken, waits⟩
      cases waits with
      | true =>
          simp only [woke, List.map_nil]
      | false =>
          simp only [woke]
          exact executedIn_map behaviour maxForks maxSteps woken

/-- Instructions run in the active context or in new ones, and never in an older context than the one before. -/
structure Forward (turn : Turn κ) (entries : List (ContextId × Instruction κ)) : Prop where
  context : ∀ entry ∈ entries, entry.1 = turn.cast.active ∨ turn.arena.nextId ≤ entry.1
  ordered : entries.Pairwise (·.1 ≤ ·.1)

theorem Forward.of_grows
    {after : Turn κ}
    {entries : List (ContextId × Instruction κ)}
    (forward : after.Forward entries)
    (grows : Grows turn after) :
    turn.Forward entries where
  context entry member := by
    rcases forward.context entry member with isActive | isNew
    · rw [isActive]
      exact grows.active
    · exact .inr (Nat.le_trans grows.nextId isNew)
  ordered := forward.ordered

theorem forward_executedIn
    (budget : Nat)
    (owns : Owns turn.arena (turn.cast :: others)) :
    turn.Forward (turn.executedIn behaviour maxForks budget) := by
  induction budget generalizing turn with
  | zero =>
      exact ⟨fun _ member => absurd member List.not_mem_nil, .nil⟩
  | succ budget inductionHypothesis =>
      have keeps := keeps_step behaviour maxForks owns
      have grows := grows_step behaviour maxForks owns
      have inActive : ∀ entry ∈ turn.next?.toList.map (turn.cast.active, ·), entry.1 = turn.cast.active := by
        intro entry member
        obtain ⟨_, _, rfl⟩ := List.mem_map.mp member
        rfl
      have alone : turn.Forward (turn.next?.toList.map (turn.cast.active, ·)) := by
        refine ⟨fun entry member => .inl (inActive entry member), ?_⟩
        cases turn.next? with
        | none => exact .nil
        | some instruction => exact List.pairwise_singleton _ _
      rcases stepped : turn.step behaviour maxForks with ⟨after, goesOn⟩
      rw [stepped] at keeps grows
      cases goesOn with
      | false =>
          simpa [executedIn, stepped] using alone
      | true =>
          have later := (inductionHypothesis keeps.owns).of_grows grows
          have active : turn.cast.active < turn.arena.nextId :=
            owns.below _ (owns.mem_ids List.mem_cons_self (owns.coherent _ List.mem_cons_self).active_mem)
          have split :
              turn.executedIn behaviour maxForks (budget + 1) =
                turn.next?.toList.map (turn.cast.active, ·) ++ after.executedIn behaviour maxForks budget := by
            simp [executedIn, stepped]
          rw [split]
          constructor
          · intro entry member
            rcases List.mem_append.mp member with first | rest
            · exact .inl (inActive entry first)
            · exact later.context entry rest
          · refine List.pairwise_append.mpr ⟨alone.ordered, later.ordered, ?_⟩
            intro first isFirst entry isLater
            rw [inActive first isFirst]
            rcases later.context entry isLater with same | new
            · exact Nat.le_of_eq same.symm
            · exact Nat.le_trans (Nat.le_of_lt active) new

theorem forward_takenIn
    (behaviour : Behaviour κ)
    (maxSteps maxForks : Nat)
    (owns : Owns turn.arena (turn.cast :: others)) :
    turn.Forward (turn.takenIn behaviour maxSteps maxForks) := by
  obtain ⟨context, live⟩ := active_live owns
  have announced := keeps_announced owns
  have woken := announced.trans (keeps_wake announced.owns context)
  have grows : Grows turn (turn.announced.wake context).1 :=
    (Grows.of_same ⟨rfl, rfl⟩ rfl : Grows turn turn.announced).trans (grows_wake _ context)
  rcases woke : turn.announced.wake context with ⟨next, waits⟩
  rw [woke] at woken grows
  cases waits with
  | true =>
      have nothing : turn.takenIn behaviour maxSteps maxForks = [] := by
        simp [takenIn, live, woke]
      rw [nothing]
      exact ⟨fun _ member => absurd member List.not_mem_nil, .nil⟩
  | false =>
      have ran : turn.takenIn behaviour maxSteps maxForks = next.executedIn behaviour maxForks maxSteps := by
        simp [takenIn, live, woke]
      rw [ran]
      exact (forward_executedIn maxSteps woken.owns).of_grows grows

end Turn

/-- A tick from here runs an instruction in the context with the number. -/
def Scheduler.RunsIn (behaviour : Behaviour κ) (scheduler : Scheduler κ) (realm : Realm) (id : ContextId) : Prop :=
  ∃ earlier cast later, scheduler.casts = earlier ++ cast :: later ∧
    ∃ entry ∈ ((scheduler.roundAfter behaviour realm earlier).turn cast).takenIn behaviour scheduler.maxSteps
      scheduler.maxForks, entry.1 = id

namespace Scheduler

variable {scheduler : Scheduler κ} {cast target : InFlight} {held : Context κ} {realm : Realm}

theorem descends_set
    (owns : Owns scheduler.arena scheduler.casts)
    (targetMember : target ∈ scheduler.casts)
    (live : scheduler.arena.get? target.active = some held)
    (context : Context κ)
    (parent : context.parent = held.parent)
    (member : cast ∈ scheduler.casts)
    (descends : cast.Descends behaviour scheduler.arena) :
    cast.Descends behaviour (scheduler.arena.set target.active context) := by
  refine descends.alter rfl (fun id _ => Arena.parentOf_set live parent id) ?_
  intro id listed
  exact Arena.get?_set_of_ne (owns.dropLast_ne_active member targetMember listed)

theorem descends_root
    (behaviour : Behaviour κ)
    (scheduler : Scheduler κ)
    (context : Context κ)
    (realm : Realm) :
    ∀ cast ∈ [({ id := scheduler.nextCast, active := scheduler.arena.nextId, contexts := [scheduler.arena.nextId]
                 steps := 0, forks := 0, ticks := 0 } : InFlight)],
      cast.Descends behaviour (scheduler.cast context realm).2.1.arena := by
  intro cast member
  rw [List.mem_singleton.mp member]
  refine ⟨List.isChain_singleton _, ⟨scheduler.arena.nextId, rfl, ?_⟩, fun _ listed => absurd listed List.not_mem_nil⟩
  exact Arena.parentOf_eq Arena.get?_insert_self

end Scheduler

namespace History

variable {history : History κ} {id : ContextId} {stored : Option (Context κ)}

/-- The contexts of every cast in flight are a chain of parents. -/
def Descends (behaviour : Behaviour κ) (history : History κ) : Prop :=
  ∀ cast ∈ history.scheduler.casts, cast.Descends behaviour history.scheduler.arena

theorem Descends.tick
    (keeps : behaviour.KeepsParent)
    (owns : history.Owns)
    (accounts : history.Accounts)
    (descends : history.Descends behaviour) :
    (history.tick behaviour).Descends behaviour := by
  have distinct := accounts.castIds_nodup
  intro cast member
  obtain ⟨before, beforeMember, -, turn, after, turned, taken, rfl⟩ :=
    Scheduler.exists_turned_of_mem owns distinct member
  obtain ⟨others, turnOwns⟩ := turned.owns
  have started : turn.Descends behaviour := by
    refine InFlight.Descends.of_same (descends before beforeMember) ?_ turned.same
    rw [turned.started]
  have ended :=
    (Turn.descends_lasting keeps history.scheduler.maxForks others).take history.scheduler.maxSteps turnOwns started
  rw [taken] at ended
  exact InFlight.Descends.of_same ended rfl (turned.running after taken).2

theorem descends_stable (keeps : behaviour.KeepsParent) (rules : Rules κ) :
    Stable rules behaviour fun history =>
      (history.Owns ∧ history.Accounts) ∧ history.Descends behaviour where
  cast history context holds := by
    refine ⟨(accounts_stable behaviour rules).cast history context holds.1, ?_⟩
    intro cast member
    rcases List.mem_append.mp member with old | new
    · exact InFlight.Descends.of_same (holds.2 cast old) rfl
        (Scheduler.cast_apart holds.1.1 old context history.realm)
    · exact Scheduler.descends_root behaviour history.scheduler context history.realm cast new
  tick history holds :=
    ⟨(accounts_stable behaviour rules).tick history holds.1, holds.2.tick keeps holds.1.1 holds.1.2⟩
  cancel history id reason allowed holds := by
    refine ⟨(accounts_stable behaviour rules).cancel history id reason allowed holds.1, ?_⟩
    simp only [Descends, cancel]
    rcases Scheduler.cancelCast_cases behaviour history.scheduler id reason history.realm with
      unchanged | ⟨target, found, context, noted, live, canceled⟩
    · rw [unchanged]
      exact holds.2
    · have targetMember := (Scheduler.find?_mem found).1
      rw [canceled]
      intro cast member
      exact Scheduler.descends_set holds.1.1 targetMember live _ (Context.cancel_parent keeps reason context noted)
        member (holds.2 cast member)
  terminate history id allowed holds := by
    refine ⟨(accounts_stable behaviour rules).terminate history id allowed holds.1, ?_⟩
    simp only [Descends, terminate]
    rcases Scheduler.terminateCast_cases history.scheduler id history.realm with
      unchanged | ⟨target, found, context, live, terminated⟩
    · rw [unchanged]
      exact holds.2
    · have targetMember := (Scheduler.find?_mem found).1
      rw [terminated]
      intro cast member
      exact Scheduler.descends_set holds.1.1 targetMember live context.stopped rfl member (holds.2 cast member)
  outside history realm holds := ⟨(accounts_stable behaviour rules).outside history realm holds.1, holds.2⟩

/-- The context is not active and never will be; as long as its cast is in flight it is stored like this. -/
structure Retired (id : ContextId) (stored : Option (Context κ)) (history : History κ) : Prop where
  given : id < history.scheduler.arena.nextId
  inactive : ∀ cast ∈ history.scheduler.casts, id ≠ cast.active
  kept : ∀ cast ∈ history.scheduler.casts, id ∈ cast.contexts → history.scheduler.arena.get? id = stored

theorem retired_of_left
    {cast : InFlight}
    (owns : history.Owns)
    (member : cast ∈ history.scheduler.casts)
    (listed : id ∈ cast.contexts.dropLast) :
    history.Retired id (history.scheduler.arena.get? id) where
  given := owns.below id (owns.mem_ids member (List.mem_of_mem_dropLast listed))
  inactive _ otherMember := owns.dropLast_ne_active member otherMember listed
  kept _ _ _ := rfl

theorem Retired.tick
    (owns : history.Owns)
    (accounts : history.Accounts)
    (retired : history.Retired id stored) :
    (history.tick behaviour).Retired id stored := by
  have distinct := accounts.castIds_nodup
  refine ⟨Nat.lt_of_lt_of_le retired.given (Scheduler.tick_nextId behaviour owns history.realm), ?_, ?_⟩
  all_goals
    intro cast member
    obtain ⟨before, beforeMember, -, turn, after, turned, taken, rfl⟩ :=
      Scheduler.exists_turned_of_mem owns distinct member
    obtain ⟨others, turnOwns⟩ := turned.owns
    have grows := Turn.grows_take behaviour history.scheduler.maxSteps history.scheduler.maxForks turnOwns
    rw [taken] at grows
    have old : id < turn.arena.nextId := Nat.lt_of_lt_of_le retired.given turned.given
    have notActive : id ≠ turn.cast.active := by
      rw [turned.started]
      exact retired.inactive before beforeMember
  · rcases grows.active with same | new
    · exact same ▸ notActive
    · exact Nat.ne_of_lt (Nat.lt_of_lt_of_le old new)
  · intro listed
    obtain ⟨made, grown, allNew⟩ := grows.contexts
    have before : id ∈ before.contexts := by
      rw [grown, turned.started] at listed
      rcases List.mem_append.mp listed with earlier | new
      · exact earlier
      · exact absurd (allNew id new) (Nat.not_le.mpr old)
    calc
      (history.tick behaviour).scheduler.arena.get? id = after.arena.get? id :=
        (turned.running after taken).2 id listed
      _ = turn.arena.get? id := grows.apart id old notActive
      _ = history.scheduler.arena.get? id := turned.same id before
      _ = stored := retired.kept _ beforeMember before

theorem Retired.set
    {target : InFlight}
    (retired : history.Retired id stored)
    (targetMember : target ∈ history.scheduler.casts)
    (context : Context κ)
    (realm : Realm) :
    ({ history with
        scheduler := { history.scheduler with arena := history.scheduler.arena.set target.active context }
        realm } : History κ).Retired id stored where
  given := retired.given
  inactive := retired.inactive
  kept cast member listed :=
    (Arena.get?_set_of_ne (retired.inactive target targetMember)).trans (retired.kept cast member listed)

theorem retired_stable (behaviour : Behaviour κ) (rules : Rules κ) (id : ContextId) (stored : Option (Context κ)) :
    Stable rules behaviour fun history =>
      (history.Owns ∧ history.Accounts) ∧ history.Retired id stored where
  cast history context holds := by
    obtain ⟨both, retired⟩ := holds
    refine ⟨(accounts_stable behaviour rules).cast history context both, Nat.lt_succ_of_lt retired.given, ?_, ?_⟩
    · intro cast member
      rcases List.mem_append.mp member with old | new
      · exact retired.inactive cast old
      · rw [List.mem_singleton.mp new]
        exact Nat.ne_of_lt retired.given
    · intro cast member listed
      rcases List.mem_append.mp member with old | new
      · exact (Arena.get?_insert_of_ne (Nat.ne_of_lt retired.given)).trans (retired.kept cast old listed)
      · rw [List.mem_singleton.mp new] at listed
        exact absurd (List.mem_singleton.mp listed) (Nat.ne_of_lt retired.given)
  tick history holds :=
    ⟨(accounts_stable behaviour rules).tick history holds.1, holds.2.tick holds.1.1 holds.1.2⟩
  cancel history id reason allowed holds := by
    refine ⟨(accounts_stable behaviour rules).cancel history id reason allowed holds.1, ?_⟩
    simp only [cancel]
    rcases Scheduler.cancelCast_cases behaviour history.scheduler id reason history.realm with
      unchanged | ⟨target, found, context, noted, -, canceled⟩
    · rw [unchanged]
      exact ⟨holds.2.given, holds.2.inactive, holds.2.kept⟩
    · rw [canceled]
      exact holds.2.set (Scheduler.find?_mem found).1 _ _
  terminate history id allowed holds := by
    refine ⟨(accounts_stable behaviour rules).terminate history id allowed holds.1, ?_⟩
    simp only [terminate]
    rcases Scheduler.terminateCast_cases history.scheduler id history.realm with
      unchanged | ⟨target, found, context, -, terminated⟩
    · rw [unchanged]
      exact ⟨holds.2.given, holds.2.inactive, holds.2.kept⟩
    · rw [terminated]
      exact holds.2.set (Scheduler.find?_mem found).1 _ _
  outside history realm holds :=
    ⟨(accounts_stable behaviour rules).outside history realm holds.1, holds.2.given, holds.2.inactive, holds.2.kept⟩

/-- No instruction runs in a retired context. -/
theorem Retired.not_runsIn
    (owns : history.Owns)
    (retired : history.Retired id stored)
    (realm : Realm) :
    ¬ history.scheduler.RunsIn behaviour realm id := by
  rintro ⟨earlier, cast, later, split, entry, member, runsHere⟩
  have opened : Spellcast.Owns (history.scheduler.opening realm).arena
      ((history.scheduler.opening realm).staying ++ (earlier ++ cast :: later)) := split ▸ owns
  have roundOwns := Scheduler.visits_own behaviour history.scheduler.maxSteps history.scheduler.maxForks opened
  have grown := Scheduler.visits_nextId behaviour history.scheduler.maxSteps history.scheduler.maxForks opened
  have forward := Turn.forward_takenIn behaviour history.scheduler.maxSteps history.scheduler.maxForks
    (Scheduler.Round.turn_owns roundOwns)
  rcases forward.context entry member with active | new
  · have inFlight : cast ∈ history.scheduler.casts := split ▸ List.mem_append_right _ List.mem_cons_self
    exact retired.inactive cast inFlight (runsHere ▸ active)
  · have old : id < history.scheduler.arena.nextId := retired.given
    exact absurd (runsHere ▸ Nat.le_trans grown new) (Nat.not_le.mpr old)

/-- As long as a cast is in flight, contexts are only added to its list. -/
theorem contexts_stable (behaviour : Behaviour κ) (rules : Rules κ) (id : CastId) (contexts : List ContextId) :
    Stable rules behaviour fun history =>
      (history.Owns ∧ history.Accounts) ∧ id < history.scheduler.nextCast ∧
        ∀ cast ∈ history.scheduler.casts, cast.id = id → contexts <+: cast.contexts where
  cast history context holds := by
    obtain ⟨both, given, grown⟩ := holds
    refine ⟨(accounts_stable behaviour rules).cast history context both, Nat.lt_succ_of_lt given, ?_⟩
    intro cast member same
    rcases List.mem_append.mp member with old | new
    · exact grown cast old same
    · rw [List.mem_singleton.mp new] at same
      exact absurd same.symm (Nat.ne_of_lt given)
  tick history holds := by
    obtain ⟨both, given, grown⟩ := holds
    refine ⟨(accounts_stable behaviour rules).tick history both, given, ?_⟩
    intro cast member same
    have distinct := both.2.castIds_nodup
    obtain ⟨before, beforeMember, sameId, turn, after, turned, taken, rfl⟩ :=
      Scheduler.exists_turned_of_mem both.1 distinct member
    obtain ⟨others, turnOwns⟩ := turned.owns
    have grows := Turn.grows_take behaviour history.scheduler.maxSteps history.scheduler.maxForks turnOwns
    rw [taken] at grows
    obtain ⟨made, added, -⟩ := grows.contexts
    rw [added, turned.started]
    exact (grown before beforeMember (sameId.trans same)).trans (List.prefix_append _ _)
  cancel history other reason allowed holds := by
    refine ⟨(accounts_stable behaviour rules).cancel history other reason allowed holds.1, ?_⟩
    obtain ⟨arena, unchanged⟩ := Scheduler.cancelCast_arena behaviour history.scheduler other reason history.realm
    simp only [cancel, unchanged]
    exact holds.2
  terminate history other allowed holds := by
    refine ⟨(accounts_stable behaviour rules).terminate history other allowed holds.1, ?_⟩
    obtain ⟨arena, unchanged⟩ := Scheduler.terminateCast_arena history.scheduler other history.realm
    simp only [terminate, unchanged]
    exact holds.2
  outside history realm holds := ⟨(accounts_stable behaviour rules).outside history realm holds.1, holds.2⟩

end History

namespace Reaches

variable {scheduler : Scheduler κ} {realm : Realm} {origin history later : History κ} {cast : InFlight}

theorem descends
    (keeps : behaviour.KeepsParent)
    (made : scheduler.Made)
    (reached : Reaches rules behaviour (.start scheduler realm) history) :
    history.Descends behaviour := by
  have start : Reaches rules behaviour (.start scheduler realm) (.start scheduler realm) := .origin
  have initially : (History.start scheduler realm).Descends behaviour := by
    intro cast member
    rw [History.start, made.owns.2] at member
    exact absurd member List.not_mem_nil
  exact ((History.descends_stable keeps rules).reaches ⟨⟨start.owns made, start.accounts made⟩, initially⟩ reached).2

/-- What happens to a cast after some time: its contexts before the active one stay retired, and it only gets more
contexts. -/
theorem retires
    (owns : history.Owns)
    (accounts : history.Accounts)
    (member : cast ∈ history.scheduler.casts)
    (further : Reaches rules behaviour history later) :
    (∀ id ∈ cast.contexts.dropLast,
      later.Owns ∧ later.Retired id (history.scheduler.arena.get? id)) ∧
    ∀ same ∈ later.scheduler.casts, same.id = cast.id → cast.contexts <+: same.contexts := by
  constructor
  · intro id listed
    have stable := History.retired_stable behaviour rules id (history.scheduler.arena.get? id)
    have retired := stable.reaches ⟨⟨owns, accounts⟩, History.retired_of_left owns member listed⟩ further
    exact ⟨retired.1.1, retired.2⟩
  · have given : cast.id < history.scheduler.nextCast :=
      accounts.given _ (accounts.inFlight.subset (List.mem_map_of_mem member))
    have itself : ∀ same ∈ history.scheduler.casts, same.id = cast.id → cast.contexts <+: same.contexts := by
      intro same sameMember sameId
      rw [List.inj_on_of_nodup_map accounts.castIds_nodup sameMember member sameId]
    exact ((History.contexts_stable behaviour rules cast.id cast.contexts).reaches
      ⟨⟨owns, accounts⟩, given, itself⟩ further).2.2

end Reaches

/-- An interrupt touches nothing but the active context of its cast. -/
theorem Scheduler.get?_of_not_interrupted
    {scheduler : Scheduler κ}
    {target : CastId}
    {id : ContextId}
    (notActive : scheduler.activeContext? target ≠ some id)
    (reason : CancelReason)
    (realm : Realm) :
    (scheduler.cancelCast behaviour target reason realm).2.1.arena.get? id = scheduler.arena.get? id ∧
      (scheduler.terminateCast target realm).2.1.arena.get? id = scheduler.arena.get? id := by
  have untouched (found : InFlight) (isTarget : scheduler.find? target = some found) (context : Context κ) :
      (scheduler.arena.set found.active context).get? id = scheduler.arena.get? id := by
    apply Arena.get?_set_of_ne
    rintro rfl
    apply notActive
    rw [activeContext?, isTarget]
    rfl
  constructor
  · rcases cancelCast_cases behaviour scheduler target reason realm with
      unchanged | ⟨found, isTarget, _, _, -, canceled⟩
    · rw [unchanged]
    · rw [canceled]
      exact untouched found isTarget _
  · rcases terminateCast_cases scheduler target realm with unchanged | ⟨found, isTarget, _, -, terminated⟩
    · rw [unchanged]
    · rw [terminated]
      exact untouched found isTarget _

/-- In every reachable scheduler the contexts of a cast in flight are a chain of parents with growing numbers: the first
one has no parent, the others are the ancestors of the active one, and there are as many of them as forks. Each of these
others was canceled for a child in the state in which it asked for the fork, never runs again, and keeps its state until
its cast is completed. A turn touches no context but the active one and those that it makes, runs in them one after the
other, and an interrupt touches nothing but the active context of its cast. -/
theorem castsKeepTheirLineage
    {scheduler : Scheduler κ}
    {realm : Realm}
    {history : History κ}
    (keeps : behaviour.KeepsParent)
    (made : scheduler.Made)
    (reached : Reaches rules behaviour (.start scheduler realm) history) :
    let current := history.scheduler
    (∀ cast ∈ current.casts,
      cast.contexts.IsChain (fun older newer => older < newer ∧ current.arena.parentOf newer = some older) ∧
      (∃ root ∈ cast.contexts.head?, ∃ context,
        current.arena.get? root = some context ∧ context.parent = none) ∧
      current.arena.ancestors cast.active = cast.contexts.dropLast.reverse ∧
      current.arena.depth cast.active = cast.forks ∧
      ∀ id ∈ cast.contexts.dropLast, ∃ (last : Context κ) (noted : Realm), last.AskedForFork behaviour ∧
        let left := (last.cancel behaviour .newContext noted).1
        current.arena.get? id = some left ∧
          (last.ObserversSpare behaviour → left.canceled = true ∧ left.cancelReason = some .newContext)) ∧
    (∀ later, Reaches rules behaviour history later → ∀ cast ∈ current.casts,
      (∀ id ∈ cast.contexts.dropLast, ∀ realm, ¬ later.scheduler.RunsIn behaviour realm id) ∧
      ∀ same ∈ later.scheduler.casts, same.id = cast.id →
        cast.contexts <+: same.contexts ∧
          ∀ id ∈ cast.contexts.dropLast, later.scheduler.arena.get? id = current.arena.get? id) ∧
    (∀ realm earlier cast later, current.casts = earlier ++ cast :: later →
      let turn := (current.roundAfter behaviour realm earlier).turn cast
      let after := (turn.take behaviour current.maxSteps current.maxForks).1
      (∀ id < turn.arena.nextId, id ≠ cast.active → after.arena.get? id = turn.arena.get? id) ∧
        turn.Forward (turn.takenIn behaviour current.maxSteps current.maxForks)) ∧
    (∀ target id, current.activeContext? target ≠ some id → ∀ reason realm,
      (current.cancelCast behaviour target reason realm).2.1.arena.get? id = current.arena.get? id ∧
        (current.terminateCast target realm).2.1.arena.get? id = current.arena.get? id) := by
  intro current
  have owns : Owns current.arena current.casts := reached.owns made
  have descends := reached.descends keeps made
  refine ⟨?_, ?_, ?_, fun _ _ notActive => Scheduler.get?_of_not_interrupted notActive⟩
  · intro cast member
    have lineage := descends cast member
    refine ⟨lineage.chain, ?_, lineage.ancestors_eq owns member, lineage.depth_eq owns member, ?_⟩
    · obtain ⟨root, first, parentless⟩ := lineage.root
      obtain ⟨context, live⟩ := owns.live member (List.mem_of_mem_head? first)
      exact ⟨root, first, context, live, (Arena.parentOf_eq live).symm.trans parentless⟩
    · intro id listed
      obtain ⟨context, live, last, noted, asked, rfl⟩ := lineage.left id listed
      exact ⟨last, noted, asked, live, fun spare => Context.cancel_of_observersSpare spare _ noted⟩
  · intro later further cast member
    obtain ⟨retired, grown⟩ := further.retires owns (reached.accounts made) member
    refine ⟨fun id listed realm => (retired id listed).2.not_runsIn (retired id listed).1 realm, ?_⟩
    intro same sameMember sameId
    have contexts := grown same sameMember sameId
    refine ⟨contexts, ?_⟩
    intro id listed
    exact (retired id listed).2.kept same sameMember (contexts.subset (List.mem_of_mem_dropLast listed))
  · intro realm earlier cast later split turn after
    have opened : Owns (current.opening realm).arena
        ((current.opening realm).staying ++ (earlier ++ cast :: later)) := split ▸ owns
    have turnOwns := Scheduler.Round.turn_owns
      (Scheduler.visits_own behaviour current.maxSteps current.maxForks opened)
    exact ⟨(Turn.grows_take behaviour current.maxSteps current.maxForks turnOwns).apart,
      Turn.forward_takenIn behaviour current.maxSteps current.maxForks turnOwns⟩

/-- Glyphs never change parents. -/
theorem Glyph.behaviour_keepsParent : Glyph.behaviour.KeepsParent where
  cast glyph context realm := by
    cases glyph with
    | delay ticks =>
        by_cases atEnd : context.program.length ≤ context.counter
        · simp [Glyph.behaviour, Glyph.cast, castDelay, atEnd]
        · simp [Glyph.behaviour, Glyph.cast, castDelay, atEnd, Context.delay]
    | jump strength => rfl
    | mark counter => rfl
    | ward => rfl
    | echo id times => rfl
  notify glyph context realm := by
    cases glyph with
    | ward =>
        simp only [Glyph.behaviour, Glyph.notify, absorb]
        split
        · rfl
        · rfl
        · rfl
    | jump strength => rfl
    | delay ticks => rfl
    | mark counter => rfl
    | echo id times => rfl

/-- A mark behind a delay, cast from a context that names a parent: after one tick the root is the only ancestor of the
child that waits. -/
theorem castsKeepTheirLineage_afterDelay :
    let delay : Instruction Glyph := .plain Glyph.marksId ⟨0, .delay 3⟩
    let mark : Instruction Glyph := .plain Glyph.marksId ⟨1, .mark Glyph.marksId⟩
    let fresh : History Glyph := .start .empty .empty
    let context : Context Glyph := { Context.ofProgram (.ofInstructions [delay, mark]) with parent := some 7 }
    let history := (fresh.cast context).tick Glyph.behaviour
    Glyph.behaviour.KeepsParent ∧ Scheduler.Made fresh.scheduler ∧
      Reaches ⟨fun _ => True, fun _ _ => True⟩ Glyph.behaviour fresh history ∧
      history.scheduler.casts.map (·.contexts) = [[0, 1]] ∧
      ∀ cast ∈ history.scheduler.casts,
        history.scheduler.arena.ancestors cast.active = cast.contexts.dropLast.reverse := by
  intro delay mark fresh context history
  have reached : Reaches ⟨fun _ => True, fun _ _ => True⟩ Glyph.behaviour fresh history :=
    .call .tick (.call (.cast context) .origin trivial) trivial
  have statement := castsKeepTheirLineage Glyph.behaviour_keepsParent .empty reached
  exact ⟨Glyph.behaviour_keepsParent, .empty, reached, by decide,
    fun cast member => (statement.1 cast member).2.2.1⟩

end Spellcast
