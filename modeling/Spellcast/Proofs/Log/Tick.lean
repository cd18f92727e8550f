import Spellcast.Proofs.Focus
import Spellcast.Proofs.Log.Turn

/-!
# What a tick logs

A tick logs what the turns of the casts in flight log, in their order, and behind the turn that finishes a cast that it
is completed. Of all these events those with the number of one cast are the ones of its own turn, and so a tick adds to
what is told about a cast what its turn says (`tick_told`), and nothing to what is told about others.
-/

namespace Spellcast

variable {κ : Type} {behaviour : Behaviour κ} {maxSteps maxForks : Nat}

/-- The event that ends what is logged in a turn, if the cast is finished. -/
def Turn.closing (after : Turn κ) : Turn.Verdict → List Event
  | .running => []
  | .finished =>
    [.castCompleted after.cast.id after.cast.steps after.cast.forks after.cast.ticks
      ((Scheduler.outcome after.cast (after.arena.get? after.cast.active)).cancelReason.map CancelReason.text)]

namespace Scheduler

variable {scheduler : Scheduler κ} {round : Round κ} {cast : InFlight} {casts rest : List InFlight} {realm : Realm}
  {id : CastId} {since : Nat}

theorem visit_logs
    {after : Turn κ}
    {verdict : Turn.Verdict}
    (silent : behaviour.ReportsNoCasts)
    (owns : Owns round.arena (round.staying ++ cast :: rest))
    (taken : (round.turn cast).take behaviour maxSteps maxForks = (after, verdict)) :
    ∃ children own, (round.turn cast).Reports after verdict children own ∧
      round.realm.Logs (own ++ after.closing verdict) (visit behaviour maxSteps maxForks round cast).realm := by
  obtain ⟨children, own, reports⟩ := Turn.take_reports silent maxSteps maxForks (Round.turn_owns owns)
  rw [taken] at reports
  refine ⟨children, own, reports, ?_⟩
  cases verdict with
  | running =>
      rw [visit_of_running taken, Turn.closing, List.append_nil]
      exact reports.logs
  | finished =>
      rw [visit_of_finished taken]
      exact reports.logs.trans (Realm.logs_emit _ rfl rfl)

def About (casts : List InFlight) (entries : List Event) : Prop :=
  ∀ event ∈ entries, ∃ cast ∈ casts, event.cast? = some cast.id

theorem About.other
    {entries : List Event}
    (about : About casts entries)
    (absent : id ∉ casts.map (·.id)) :
    ∀ event ∈ entries, event.cast? ≠ some id := by
  intro event member same
  obtain ⟨cast, isCast, aboutCast⟩ := about event member
  have sameId : cast.id = id := Option.some.inj (aboutCast.symm.trans same)
  exact absent (sameId ▸ List.mem_map_of_mem isCast)

theorem about_closing
    {turn after : Turn κ}
    {verdict : Turn.Verdict}
    {children : List ContextId}
    {own : List Event}
    (reports : turn.Reports after verdict children own) :
    ∀ event ∈ own ++ after.closing verdict, event.cast? = some turn.cast.id := by
  intro event member
  rcases List.mem_append.mp member with during | closing
  · exact reports.tells.about event during
  · cases verdict with
    | running => exact absurd closing List.not_mem_nil
    | finished =>
        rw [List.mem_singleton.mp closing, ← reports.sameId]
        rfl

theorem visits_log
    (silent : behaviour.ReportsNoCasts)
    (maxSteps maxForks : Nat)
    (owns : Owns round.arena (round.staying ++ (casts ++ rest))) :
    ∃ entries, round.realm.Logs entries (casts.foldl (visit behaviour maxSteps maxForks) round).realm ∧
      About casts entries := by
  induction casts generalizing round with
  | nil => exact ⟨[], (Realm.Quiet.refl _).logs, fun _ nothing => absurd nothing List.not_mem_nil⟩
  | cons first casts inductionHypothesis =>
      obtain ⟨children, own, reports, visited⟩ := visit_logs silent owns rfl
      obtain ⟨entries, logged, about⟩ := inductionHypothesis (visit_owns behaviour maxSteps maxForks owns)
      refine ⟨_, visited.trans logged, ?_⟩
      intro event member
      rcases List.mem_append.mp member with here | later
      · exact ⟨first, List.mem_cons_self, about_closing reports event here⟩
      · obtain ⟨cast, isCast, aboutCast⟩ := about event later
        exact ⟨cast, List.mem_cons_of_mem _ isCast, aboutCast⟩

theorem tick_quiet
    (behaviour : Behaviour κ)
    (scheduler : Scheduler κ)
    (realm : Realm) :
    (scheduler.roundAfter behaviour realm scheduler.casts).realm.Quiet (scheduler.tick behaviour realm).2.2 :=
  Realm.quiet_emit (scheduler.roundAfter behaviour realm scheduler.casts).realm rfl

theorem tick_logs
    (silent : behaviour.ReportsNoCasts)
    (owns : Owns scheduler.arena scheduler.casts)
    (realm : Realm) :
    ∃ entries, realm.Logs entries (scheduler.tick behaviour realm).2.2 ∧ About scheduler.casts entries := by
  have opened :
      Owns (scheduler.opening realm).arena ((scheduler.opening realm).staying ++ (scheduler.casts ++ [])) := by
    simpa [opening] using owns
  obtain ⟨entries, logged, about⟩ := visits_log silent scheduler.maxSteps scheduler.maxForks opened
  exact ⟨entries, logged.quiet (tick_quiet behaviour scheduler realm), about⟩

theorem tick_told_of_absent
    (silent : behaviour.ReportsNoCasts)
    (owns : Owns scheduler.arena scheduler.casts)
    (absent : id ∉ scheduler.castIds)
    (old : since ≤ realm.events.length) :
    (scheduler.tick behaviour realm).2.2.told since id = realm.told since id := by
  obtain ⟨entries, logged, about⟩ := tick_logs silent owns realm
  exact logged.told_other old (about.other absent)

/-- A tick adds to what is told about a cast in flight what its turn says, and that it is completed if it is. -/
theorem tick_told
    {earlier later : List InFlight}
    {after : Turn κ}
    {verdict : Turn.Verdict}
    (silent : behaviour.ReportsNoCasts)
    (owns : Owns scheduler.arena scheduler.casts)
    (distinct : scheduler.castIds.Nodup)
    (split : scheduler.casts = earlier ++ cast :: later)
    (taken : ((scheduler.roundAfter behaviour realm earlier).turn cast).take behaviour scheduler.maxSteps
      scheduler.maxForks = (after, verdict))
    (old : since ≤ realm.events.length) :
    ∃ children own, ((scheduler.roundAfter behaviour realm earlier).turn cast).Reports after verdict children own ∧
      (scheduler.tick behaviour realm).2.2.told since cast.id =
        realm.told since cast.id ++ (own ++ after.closing verdict) := by
  have opened : Owns (scheduler.opening realm).arena
      ((scheduler.opening realm).staying ++ (earlier ++ cast :: later)) := split ▸ owns
  let round := scheduler.roundAfter behaviour realm earlier
  let next := visit behaviour scheduler.maxSteps scheduler.maxForks round cast
  have roundOwns : Owns round.arena (round.staying ++ cast :: later) :=
    visits_own behaviour scheduler.maxSteps scheduler.maxForks opened
  have nextOwns : Owns next.arena (next.staying ++ (later ++ [])) := by
    rw [List.append_nil]
    exact visit_owns behaviour scheduler.maxSteps scheduler.maxForks roundOwns
  have final : scheduler.roundAfter behaviour realm scheduler.casts =
      later.foldl (visit behaviour scheduler.maxSteps scheduler.maxForks) next := by
    rw [split, roundAfter, List.foldl_append, List.foldl_cons]
    rfl
  obtain ⟨notEarlier, notLater⟩ := not_mem_of_split distinct split
  obtain ⟨before, loggedBefore, aboutBefore⟩ := visits_log silent scheduler.maxSteps scheduler.maxForks opened
  obtain ⟨children, own, reports, visited⟩ := visit_logs silent roundOwns taken
  obtain ⟨behind, loggedBehind, aboutBehind⟩ := visits_log silent scheduler.maxSteps scheduler.maxForks nextOwns
  have oldRound : since ≤ round.realm.events.length := loggedBefore.old old
  have toldRound : round.realm.told since cast.id = realm.told since cast.id :=
    loggedBefore.told_other old (aboutBefore.other notEarlier)
  have toldNext : next.realm.told since cast.id = round.realm.told since cast.id ++ (own ++ after.closing verdict) :=
    visited.told_own oldRound (about_closing reports)
  have quiet := tick_quiet behaviour scheduler realm
  rw [final] at quiet
  have toldTick : (scheduler.tick behaviour realm).2.2.told since cast.id = next.realm.told since cast.id :=
    (loggedBehind.quiet quiet).told_other (visited.old oldRound) (aboutBehind.other notLater)
  exact ⟨children, own, reports, by rw [toldTick, toldNext, toldRound]⟩

/-- The suspensions that waking up takes away in a tick: for each the number of the cast and the counter of its active
context. -/
def releases (behaviour : Behaviour κ) (scheduler : Scheduler κ) (realm : Realm) : List (CastId × Nat) :=
  scheduler.traced behaviour realm fun turn => turn.released.toList

/-- The turn that a cast in flight takes in a tick, and what the tick adds to what is told about the cast. -/
structure Narrated (behaviour : Behaviour κ) (since : Nat) (scheduler : Scheduler κ) (realm : Realm) (cast : InFlight)
    (turn after : Turn κ) (verdict : Turn.Verdict) (children : List ContextId) (own : List Event) : Prop where
  turned : Turned behaviour scheduler realm cast turn
  taken : turn.take behaviour scheduler.maxSteps scheduler.maxForks = (after, verdict)
  reports : turn.Reports after verdict children own
  sameTicks : after.cast.ticks = cast.ticks + 1
  released : (scheduler.releases behaviour realm).filter (·.1 == cast.id) = turn.released.toList.map (cast.id, ·)
  told : (scheduler.tick behaviour realm).2.2.told since cast.id =
    realm.told since cast.id ++ (own ++ after.closing verdict)

theorem exists_narrated
    (silent : behaviour.ReportsNoCasts)
    (owns : Owns scheduler.arena scheduler.casts)
    (distinct : scheduler.castIds.Nodup)
    (member : cast ∈ scheduler.casts)
    (old : since ≤ realm.events.length) :
    ∃ turn after verdict children own,
      Narrated behaviour since scheduler realm cast turn after verdict children own := by
  obtain ⟨earlier, later, split⟩ := List.append_of_mem member
  have turned := turned_of_split behaviour owns distinct split realm
  obtain ⟨others, turnOwns⟩ := turned.owns
  have keeps := Turn.keeps_take behaviour scheduler.maxSteps scheduler.maxForks turnOwns
  rcases taken : ((scheduler.roundAfter behaviour realm earlier).turn cast).take behaviour scheduler.maxSteps
    scheduler.maxForks with ⟨after, verdict⟩
  rw [taken] at keeps
  obtain ⟨children, own, reports, told⟩ := tick_told silent owns distinct split taken old
  exact ⟨_, after, verdict, children, own, turned, taken, reports, keeps.sameTicks,
    filter_traced_of_split _ distinct split, told⟩

/-- A cast that goes on after its turn is the only one in flight with its number, and it is not reported. -/
theorem Turned.alone_of_running
    {turn after : Turn κ}
    (owns : Owns scheduler.arena scheduler.casts)
    (distinct : scheduler.castIds.Nodup)
    (turned : Turned behaviour scheduler realm cast turn)
    (taken : turn.take behaviour scheduler.maxSteps scheduler.maxForks = (after, .running)) :
    (∀ other ∈ (scheduler.tick behaviour realm).2.1.casts, other.id = after.cast.id → other = after.cast) ∧
      ∀ outcome ∈ (scheduler.tick behaviour realm).1.completed, outcome.id ≠ after.cast.id := by
  obtain ⟨kept, -, -⟩ := tick_ids behaviour owns realm
  have stays := (turned.running after taken).1
  constructor
  · intro other member sameId
    exact List.inj_on_of_nodup_map (distinct.sublist kept) member stays sameId
  · intro outcome reported sameId
    exact (reported_alone owns distinct reported).2 (sameId ▸ List.mem_map_of_mem stays)

/-- A cast that is finished after its turn is in flight no longer, and it is reported once. -/
theorem Turned.alone_of_finished
    {turn after : Turn κ}
    (owns : Owns scheduler.arena scheduler.casts)
    (distinct : scheduler.castIds.Nodup)
    (turned : Turned behaviour scheduler realm cast turn)
    (taken : turn.take behaviour scheduler.maxSteps scheduler.maxForks = (after, .finished)) :
    after.cast.id ∉ (scheduler.tick behaviour realm).2.1.castIds ∧
      ∀ outcome ∈ (scheduler.tick behaviour realm).1.completed, outcome.id = after.cast.id →
        outcome = Scheduler.outcome after.cast (after.arena.get? after.cast.active) := by
  obtain ⟨once, gone⟩ := reported_alone owns distinct (turned.finished after taken)
  refine ⟨gone, ?_⟩
  intro outcome reported sameId
  have found : outcome ∈ (scheduler.tick behaviour realm).1.completed.filter
      (·.id == (Scheduler.outcome after.cast (after.arena.get? after.cast.active)).id) :=
    List.mem_filter.mpr ⟨reported, beq_iff_eq.mpr sameId⟩
  rw [once] at found
  exact List.mem_singleton.mp found

end Scheduler

end Spellcast
