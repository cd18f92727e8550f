import Mathlib.Data.List.Nodup
import Spellcast.Proofs.Ownership.Growth
import Spellcast.Proofs.Trace

/-!
# One cast among others

What a scheduler does to one cast in flight depends on that cast alone. In a tick it takes one turn, from the context
it had before the tick to the one it has after it (`Turned`); a registration and an interrupt of another cast leave
its contexts as they are. Whatever is to be said about single casts is said about their turns.
-/

namespace Spellcast

variable {κ : Type} {behaviour : Behaviour κ}

namespace Scheduler

variable {maxSteps maxForks : Nat} {round : Round κ} {scheduler : Scheduler κ}
  {cast other : InFlight} {casts rest : List InFlight} {id : CastId} {realm : Realm} {context : Context κ}

theorem mem_executedFrom
    {entry : CastId × Instruction κ}
    (member : entry ∈ executedFrom behaviour maxSteps maxForks round casts) :
    entry.1 ∈ casts.map (·.id) := by
  rw [executedFrom_eq_tracedFrom] at member
  exact mem_tracedFrom member

theorem filter_executedFrom_eq_nil
    (absent : id ∉ casts.map (·.id)) :
    (executedFrom behaviour maxSteps maxForks round casts).filter (·.1 == id) = [] := by
  rw [executedFrom_eq_tracedFrom]
  exact filter_tracedFrom_eq_nil absent

/-- Of all that a tick runs, a cast runs what its own turn runs. -/
theorem filter_executed_of_split
    {earlier later : List InFlight}
    (distinct : scheduler.castIds.Nodup)
    (split : scheduler.casts = earlier ++ cast :: later) :
    (scheduler.executed behaviour realm).filter (·.1 == cast.id) =
      (((scheduler.roundAfter behaviour realm earlier).turn cast).taken behaviour scheduler.maxSteps
        scheduler.maxForks).map (cast.id, ·) := by
  rw [executed_eq_traced]
  exact filter_traced_of_split _ distinct split

/-- The turn that a cast takes in a tick: it starts from the contexts that the cast had before the tick; if the cast
stays in flight it has after the tick what it has after the turn, and else it is reported as the turn has left it. -/
structure Turned (behaviour : Behaviour κ) (scheduler : Scheduler κ) (realm : Realm) (cast : InFlight)
    (turn : Turn κ) : Prop where
  started : turn.cast = { cast with ticks := cast.ticks + 1 }
  uncounted : turn.steps = 0
  owns : ∃ others, Owns turn.arena (turn.cast :: others)
  given : scheduler.arena.nextId ≤ turn.arena.nextId
  same : ∀ id ∈ cast.contexts, turn.arena.get? id = scheduler.arena.get? id
  running : ∀ after, turn.take behaviour scheduler.maxSteps scheduler.maxForks = (after, .running) →
    after.cast ∈ (scheduler.tick behaviour realm).2.1.casts ∧
      ∀ id ∈ after.cast.contexts, (scheduler.tick behaviour realm).2.1.arena.get? id = after.arena.get? id
  finished : ∀ after, turn.take behaviour scheduler.maxSteps scheduler.maxForks = (after, .finished) →
    outcome after.cast (after.arena.get? after.cast.active) ∈ (scheduler.tick behaviour realm).1.completed
  executed : (scheduler.executed behaviour realm).filter (·.1 == cast.id) =
    (turn.taken behaviour scheduler.maxSteps scheduler.maxForks).map (cast.id, ·)

theorem visits_staying_mem
    (member : other ∈ round.staying) :
    other ∈ (casts.foldl (visit behaviour maxSteps maxForks) round).staying := by
  induction casts generalizing round with
  | nil =>
      exact member
  | cons first casts inductionHypothesis =>
      exact inductionHypothesis (visit_staying_mem member)

theorem visit_completed_prefix :
    round.completed <+: (visit behaviour maxSteps maxForks round cast).completed := by
  rcases taken : (round.turn cast).take behaviour maxSteps maxForks with ⟨turn, verdict⟩
  cases verdict with
  | running =>
      have same : (visit behaviour maxSteps maxForks round cast).completed = round.completed := by
        rw [visit_of_running taken]
      exact same ▸ List.prefix_rfl
  | finished =>
      rw [visit_of_finished taken]
      exact List.prefix_append _ _

theorem visits_completed_prefix :
    round.completed <+: (casts.foldl (visit behaviour maxSteps maxForks) round).completed := by
  induction casts generalizing round with
  | nil =>
      exact List.prefix_rfl
  | cons first casts inductionHypothesis =>
      exact visit_completed_prefix.trans inductionHypothesis

theorem turned_of_split
    {earlier later : List InFlight}
    (behaviour : Behaviour κ)
    (owns : Owns scheduler.arena scheduler.casts)
    (distinct : scheduler.castIds.Nodup)
    (split : scheduler.casts = earlier ++ cast :: later)
    (realm : Realm) :
    Turned behaviour scheduler realm cast ((scheduler.roundAfter behaviour realm earlier).turn cast) := by
  have opened : Owns (scheduler.opening realm).arena
      ((scheduler.opening realm).staying ++ (earlier ++ cast :: later)) := split ▸ owns
  let round := scheduler.roundAfter behaviour realm earlier
  have roundOwns : Owns round.arena (round.staying ++ cast :: later) := visits_own _ _ _ opened
  have visited := visit_owns behaviour scheduler.maxSteps scheduler.maxForks roundOwns
  -- the rest of the tick, after the visit of the cast
  let next := visit behaviour scheduler.maxSteps scheduler.maxForks round cast
  have final :
      scheduler.roundAfter behaviour realm scheduler.casts =
        later.foldl (visit behaviour scheduler.maxSteps scheduler.maxForks) next := by
    rw [split, roundAfter, List.foldl_append, List.foldl_cons]
    rfl
  refine ⟨rfl, rfl, ⟨_, Round.turn_owns roundOwns⟩, ?_, ?_, ?_, ?_, ?_⟩
  · exact visits_nextId behaviour scheduler.maxSteps scheduler.maxForks opened
  · intro id listed
    exact visits_apart behaviour scheduler.maxSteps scheduler.maxForks opened cast
      (List.mem_append_right _ List.mem_cons_self) id listed
  · intro after taken
    have stays : after.cast ∈ next.staying := by
      rw [show next = _ from visit_of_running taken]
      simp
    have sameArena : next.arena = after.arena := by
      rw [show next = _ from visit_of_running taken]
    constructor
    · change after.cast ∈ (scheduler.roundAfter behaviour realm scheduler.casts).staying
      rw [final]
      exact visits_staying_mem stays
    · intro id listed
      change (scheduler.roundAfter behaviour realm scheduler.casts).arena.get? id = _
      have pending : Owns next.arena (next.staying ++ (later ++ [])) := by
        rw [List.append_nil]
        exact visited
      rw [final, ← sameArena]
      exact visits_apart _ _ _ pending after.cast (List.mem_append_left _ stays) id listed
  · intro after taken
    have done : outcome after.cast (after.arena.get? after.cast.active) ∈ next.completed := by
      rw [show next = _ from visit_of_finished taken]
      simp [complete]
    change _ ∈ (scheduler.roundAfter behaviour realm scheduler.casts).completed
    rw [final]
    exact visits_completed_prefix.subset done
  · exact filter_executed_of_split distinct split

theorem exists_turned
    (behaviour : Behaviour κ)
    (owns : Owns scheduler.arena scheduler.casts)
    (distinct : scheduler.castIds.Nodup)
    (member : cast ∈ scheduler.casts)
    (realm : Realm) :
    ∃ turn, Turned behaviour scheduler realm cast turn := by
  obtain ⟨earlier, later, split⟩ := List.append_of_mem member
  exact ⟨_, turned_of_split behaviour owns distinct split realm⟩

/-- A cast that is in flight after a tick has taken a turn in it. -/
theorem exists_turned_of_mem
    (owns : Owns scheduler.arena scheduler.casts)
    (distinct : scheduler.castIds.Nodup)
    (member : cast ∈ (scheduler.tick behaviour realm).2.1.casts) :
    ∃ before ∈ scheduler.casts, before.id = cast.id ∧
      ∃ turn after, Turned behaviour scheduler realm before turn ∧
        turn.take behaviour scheduler.maxSteps scheduler.maxForks = (after, .running) ∧ after.cast = cast := by
  have ticked := tick_ids behaviour owns realm
  rcases answer : scheduler.tick behaviour realm with ⟨report, next, realmAfter⟩
  rw [answer] at ticked member
  obtain ⟨keptOrder, -, divided⟩ := ticked
  have stillDistinct : (next.castIds ++ report.completedIds).Nodup := divided.nodup_iff.mpr distinct
  obtain ⟨keptDistinct, -, apart⟩ := List.nodup_append.mp stillDistinct
  have kept : cast.id ∈ next.castIds := List.mem_map_of_mem member
  obtain ⟨before, beforeMember, sameId⟩ := List.mem_map.mp (keptOrder.subset kept)
  obtain ⟨turn, turned⟩ := exists_turned behaviour owns distinct beforeMember realm
  obtain ⟨others, turnOwns⟩ := turned.owns
  have keeps := Turn.keeps_take behaviour scheduler.maxSteps scheduler.maxForks turnOwns
  rcases taken : turn.take behaviour scheduler.maxSteps scheduler.maxForks with ⟨after, verdict⟩
  rw [taken] at keeps
  have afterId : after.cast.id = cast.id := by
    rw [keeps.sameId, turned.started]
    exact sameId
  cases verdict with
  | running =>
      have stays : after.cast ∈ next.casts := by
        simpa [answer] using (turned.running after taken).1
      exact ⟨before, beforeMember, sameId, turn, after, turned, taken,
        List.inj_on_of_nodup_map keptDistinct stays member afterId⟩
  | finished =>
      have reported : outcome after.cast (after.arena.get? after.cast.active) ∈ report.completed := by
        simpa [answer] using turned.finished after taken
      have completed : cast.id ∈ report.completedIds := afterId ▸ List.mem_map_of_mem reported
      exact absurd rfl (apart _ kept _ completed)

theorem cast_apart
    (owns : Owns scheduler.arena scheduler.casts)
    (member : cast ∈ scheduler.casts)
    (context : Context κ)
    (realm : Realm) :
    ∀ id ∈ cast.contexts, (scheduler.cast context realm).2.1.arena.get? id = scheduler.arena.get? id :=
  fun _ listed => Arena.get?_insert_of_ne (owns.ne_nextId member listed)

theorem find?_mem
    (found : scheduler.find? id = some cast) :
    cast ∈ scheduler.casts ∧ cast.id = id :=
  ⟨List.mem_of_find?_eq_some found, by simpa using List.find?_some found⟩

/-- The active context of a cast is in no list of another cast. -/
theorem active_apart
    (owns : Owns scheduler.arena scheduler.casts)
    (member : cast ∈ scheduler.casts)
    (otherMember : other ∈ scheduler.casts)
    (different : cast.id ≠ other.id) :
    other.active ∉ cast.contexts := by
  obtain ⟨earlier, later, split⟩ := List.append_of_mem otherMember
  have first : Owns scheduler.arena (other :: (earlier ++ later)) :=
    owns.reorder (split ▸ List.perm_middle)
  have elsewhere : cast ∈ earlier ++ later := by
    rw [split] at member
    rcases List.mem_append.mp member with before | afterwards
    · exact List.mem_append_left _ before
    · rcases List.mem_cons.mp afterwards with same | after
      · exact absurd (congrArg InFlight.id same) different
      · exact List.mem_append_right _ after
  intro shared
  exact first.disjoint elsewhere shared (first.coherent _ List.mem_cons_self).active_mem

theorem set_apart
    (owns : Owns scheduler.arena scheduler.casts)
    (member : cast ∈ scheduler.casts)
    (otherMember : other ∈ scheduler.casts)
    (different : cast.id ≠ other.id)
    (context : Context κ) :
    ∀ id ∈ cast.contexts, (scheduler.arena.set other.active context).get? id = scheduler.arena.get? id := by
  intro id listed
  have apart := active_apart owns member otherMember different
  exact Arena.get?_set_of_ne fun same => apart (same ▸ listed)

/-- Canceling changes nothing at all, or the active context of the cast with the number. -/
theorem cancelCast_cases
    (behaviour : Behaviour κ)
    (scheduler : Scheduler κ)
    (id : CastId)
    (reason : CancelReason)
    (realm : Realm) :
    (scheduler.cancelCast behaviour id reason realm).2.1 = scheduler ∨
      ∃ target, scheduler.find? id = some target ∧
        ∃ context noted, scheduler.arena.get? target.active = some context ∧
          (scheduler.cancelCast behaviour id reason realm).2.1 =
            { scheduler with
              arena := scheduler.arena.set target.active (context.cancel behaviour reason noted).1 } := by
  unfold cancelCast
  split
  · exact .inl rfl
  · next active found =>
    split
    · exact .inl rfl
    · next context live =>
      obtain ⟨target, foundTarget, rfl⟩ := Option.map_eq_some_iff.mp found
      exact .inr ⟨target, foundTarget, context, _, live, rfl⟩

theorem terminateCast_cases
    (scheduler : Scheduler κ)
    (id : CastId)
    (realm : Realm) :
    (scheduler.terminateCast id realm).2.1 = scheduler ∨
      ∃ target, scheduler.find? id = some target ∧
        ∃ context, scheduler.arena.get? target.active = some context ∧
          (scheduler.terminateCast id realm).2.1 =
            { scheduler with arena := scheduler.arena.set target.active context.stopped } := by
  unfold terminateCast
  split
  · exact .inl rfl
  · next active found =>
    split
    · exact .inl rfl
    · next context live =>
      obtain ⟨target, foundTarget, rfl⟩ := Option.map_eq_some_iff.mp found
      exact .inr ⟨target, foundTarget, context, live, rfl⟩

/-- An interrupt of another cast leaves the contexts of a cast as they are. -/
theorem cancelCast_apart
    (owns : Owns scheduler.arena scheduler.casts)
    (member : cast ∈ scheduler.casts)
    (different : cast.id ≠ id)
    (reason : CancelReason)
    (realm : Realm) :
    ∀ listed ∈ cast.contexts,
      (scheduler.cancelCast behaviour id reason realm).2.1.arena.get? listed = scheduler.arena.get? listed := by
  rcases cancelCast_cases behaviour scheduler id reason realm with
    unchanged | ⟨target, found, context, noted, -, canceled⟩
  · intro _ _
    rw [unchanged]
  · obtain ⟨targetMember, rfl⟩ := find?_mem found
    rw [canceled]
    exact set_apart owns member targetMember different _

theorem terminateCast_apart
    (owns : Owns scheduler.arena scheduler.casts)
    (member : cast ∈ scheduler.casts)
    (different : cast.id ≠ id)
    (realm : Realm) :
    ∀ listed ∈ cast.contexts,
      (scheduler.terminateCast id realm).2.1.arena.get? listed = scheduler.arena.get? listed := by
  rcases terminateCast_cases scheduler id realm with
    unchanged | ⟨target, found, context, -, terminated⟩
  · intro _ _
    rw [unchanged]
  · obtain ⟨targetMember, rfl⟩ := find?_mem found
    rw [terminated]
    exact set_apart owns member targetMember different _

end Scheduler

namespace History

variable {rules : Rules κ} {history : History κ} {id : CastId}

theorem executedBy_tick :
    (history.tick behaviour).executedBy id =
      history.executedBy id ++
        ((history.scheduler.executed behaviour history.realm).filter (·.1 == id)).map (·.2) := by
  simp [tick, executedBy, List.filter_append, List.map_append]

theorem executedBy_tick_of_absent
    (absent : id ∉ history.scheduler.castIds) :
    (history.tick behaviour).executedBy id = history.executedBy id := by
  have nothing : (history.scheduler.executed behaviour history.realm).filter (·.1 == id) = [] :=
    Scheduler.filter_executedFrom_eq_nil absent
  rw [executedBy_tick, nothing, List.map_nil, List.append_nil]

theorem executedBy_eq_nil
    (absent : ∀ entry ∈ history.executed, entry.1 ≠ id) :
    history.executedBy id = [] := by
  have nothing : history.executed.filter (·.1 == id) = [] := by
    rw [List.filter_eq_nil_iff]
    intro entry member
    simpa using absent entry member
  rw [executedBy, nothing, List.map_nil]

/-- Only registered casts run instructions. -/
theorem executed_stable (behaviour : Behaviour κ) (rules : Rules κ) :
    Stable rules behaviour fun history =>
      (history.Owns ∧ history.Accounts) ∧ ∀ entry ∈ history.executed, entry.1 ∈ history.registered where
  cast history context holds :=
    ⟨(accounts_stable behaviour rules).cast history context holds.1,
      fun entry member => List.mem_append_left _ (holds.2 entry member)⟩
  tick history holds := by
    refine ⟨(accounts_stable behaviour rules).tick history holds.1, ?_⟩
    intro entry member
    rcases List.mem_append.mp member with old | new
    · exact holds.2 entry old
    · exact holds.1.2.inFlight.subset (Scheduler.mem_executedFrom new)
  cancel history id reason allowed holds :=
    ⟨(accounts_stable behaviour rules).cancel history id reason allowed holds.1, holds.2⟩
  terminate history id allowed holds :=
    ⟨(accounts_stable behaviour rules).terminate history id allowed holds.1, holds.2⟩
  outside history realm holds :=
    ⟨(accounts_stable behaviour rules).outside history realm holds.1, holds.2⟩

section Turned

variable {cast : InFlight} {context : Context κ} {turn after : Turn κ}

theorem executedBy_tick_of_turned
    (turned : Scheduler.Turned behaviour history.scheduler history.realm cast turn) :
    (history.tick behaviour).executedBy cast.id =
      history.executedBy cast.id ++ turn.taken behaviour history.scheduler.maxSteps history.scheduler.maxForks := by
  rw [executedBy_tick, turned.executed, List.map_map]
  exact congrArg _ (List.map_id _)

/-- The turn of a cast starts at the active context that it had before the tick. -/
theorem turned_live
    (turned : Scheduler.Turned behaviour history.scheduler history.realm cast turn)
    (owns : history.Owns)
    (member : cast ∈ history.scheduler.casts)
    (live : history.scheduler.arena.get? cast.active = some context) :
    turn.arena.get? turn.cast.active = some context := by
  have active : cast.active ∈ cast.contexts := (owns.coherent _ member).active_mem
  rw [turned.started]
  exact (turned.same _ active).trans live

/-- A cast whose turn has finished it is reported with the context that the turn has left. -/
theorem reported_of_finished
    (turned : Scheduler.Turned behaviour history.scheduler history.realm cast turn)
    (taken : turn.take behaviour history.scheduler.maxSteps history.scheduler.maxForks = (after, .finished))
    (final : after.arena.get? after.cast.active = some context) :
    Scheduler.outcome after.cast (some context) ∈
      (history.scheduler.tick behaviour history.realm).1.completed := by
  rw [← final]
  exact turned.finished after taken

end Turned

theorem completed_tick :
    (history.tick behaviour).completed =
      history.completed ++ (history.scheduler.tick behaviour history.realm).1.completed := by
  simp [tick, completed]

theorem completedIds_eq :
    history.completedIds = history.completed.map (·.id) := by
  simp only [completedIds, completed, TickReport.completedIds, List.map_flatMap]

theorem Accounts.registered_of_completed
    {outcome : Outcome κ}
    (accounts : history.Accounts)
    (completed : outcome ∈ history.completed) :
    outcome.id ∈ history.registered := by
  have listed : outcome.id ∈ history.completedIds := by
    rw [completedIds_eq]
    exact List.mem_map_of_mem completed
  exact accounts.divided.mem_iff.mp (List.mem_append_right _ listed)

end History

theorem Reaches.executed_registered
    {rules : Rules κ}
    {scheduler : Scheduler κ}
    {realm : Realm}
    {history : History κ}
    (made : scheduler.Made)
    (reached : Reaches rules behaviour (.start scheduler realm) history) :
    ∀ entry ∈ history.executed, entry.1 ∈ history.registered := by
  have start : Reaches rules behaviour (.start scheduler realm) (.start scheduler realm) := .origin
  have initially := And.intro (start.owns made) (start.accounts made)
  exact ((History.executed_stable behaviour rules).reaches
    ⟨initially, fun _ member => absurd member List.not_mem_nil⟩ reached).2

end Spellcast
