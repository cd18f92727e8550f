import Spellcast.Proofs.Ownership.Tick
import Spellcast.Glyph

/-!
# Every cast completes at most once and none is lost

A tick takes the list of casts apart and puts it together again, and casts finish at any place in it. The numbers of
the casts that stay and of those that are completed are two parts of the list before, both in its order. So in every
history the casts in flight and the casts completed so far are together exactly the registered ones, each once, and
a completed cast never comes back.
-/

namespace Spellcast

variable {κ : Type} {behaviour : Behaviour κ} {maxSteps maxForks : Nat}

def Scheduler.castIds (scheduler : Scheduler κ) : List CastId := scheduler.casts.map (·.id)

def TickReport.completedIds (report : TickReport κ) : List CastId := report.completed.map (·.id)

def History.completedIds (history : History κ) : List CastId := history.reports.flatMap (·.completedIds)

namespace Scheduler

variable {round : Round κ} {cast : InFlight} {casts rest : List InFlight} {scheduler : Scheduler κ} {realm : Realm}
  {id : CastId}

/-- A visit puts the cast either at the end of those that stay or at the end of those that are completed. -/
theorem visit_ids
    (behaviour : Behaviour κ)
    (maxSteps maxForks : Nat)
    (owns : Owns round.arena (round.staying ++ cast :: rest)) :
    let next := visit behaviour maxSteps maxForks round cast
    (next.staying.map (·.id) = round.staying.map (·.id) ++ [cast.id] ∧
        next.completed.map (·.id) = round.completed.map (·.id)) ∨
      (next.staying.map (·.id) = round.staying.map (·.id) ∧
        next.completed.map (·.id) = round.completed.map (·.id) ++ [cast.id]) := by
  have keeps := Turn.keeps_take behaviour maxSteps maxForks (Round.turn_owns owns)
  rcases taken : (round.turn cast).take behaviour maxSteps maxForks with ⟨turn, verdict⟩
  rw [taken] at keeps
  have sameId : turn.cast.id = cast.id := keeps.sameId
  cases verdict with
  | running =>
      left
      rw [visit_of_running taken]
      simp [sameId]
  | finished =>
      right
      rw [visit_of_finished taken]
      simp [complete, outcome, sameId]

/-- Visits divide the casts in two parts, both in order. -/
theorem visits_ids
    (behaviour : Behaviour κ)
    (maxSteps maxForks : Nat)
    (owns : Owns round.arena (round.staying ++ casts)) :
    let final := casts.foldl (visit behaviour maxSteps maxForks) round
    ∃ kept done : List CastId,
      final.staying.map (·.id) = round.staying.map (·.id) ++ kept ∧
        final.completed.map (·.id) = round.completed.map (·.id) ++ done ∧
        kept.Sublist (casts.map (·.id)) ∧ done.Sublist (casts.map (·.id)) ∧
        (kept ++ done).Perm (casts.map (·.id)) := by
  -- each visit puts the id of its cast in front of one of the two parts
  induction casts generalizing round with
  | nil =>
      exact ⟨[], [], by simp, by simp, .slnil, .slnil, .nil⟩
  | cons first casts inductionHypothesis =>
      obtain ⟨kept, done, staying, completed, keptOrder, doneOrder, divided⟩ :=
        inductionHypothesis (visit_owns behaviour maxSteps maxForks owns)
      rcases visit_ids behaviour maxSteps maxForks owns with
        ⟨stays, unchanged⟩ | ⟨unchanged, finishes⟩
      · refine ⟨first.id :: kept, done, ?_, ?_, keptOrder.cons_cons _, doneOrder.cons _, divided.cons _⟩
        · rw [List.foldl_cons, staying, stays, List.append_assoc, List.singleton_append]
        · rw [List.foldl_cons, completed, unchanged]
      · refine ⟨kept, first.id :: done, ?_, ?_, keptOrder.cons _, doneOrder.cons_cons _, ?_⟩
        · rw [List.foldl_cons, staying, unchanged]
        · rw [List.foldl_cons, completed, finishes, List.append_assoc, List.singleton_append]
        · exact List.perm_middle.trans (divided.cons _)

/-- A tick divides the casts in flight into those that stay and those that it reports as completed. -/
theorem tick_ids
    (behaviour : Behaviour κ)
    (owns : Owns scheduler.arena scheduler.casts)
    (realm : Realm) :
    let (report, next, _) := scheduler.tick behaviour realm
    next.castIds.Sublist scheduler.castIds ∧ report.completedIds.Sublist scheduler.castIds ∧
      (next.castIds ++ report.completedIds).Perm scheduler.castIds := by
  have opened : Owns (scheduler.opening realm).arena ((scheduler.opening realm).staying ++ scheduler.casts) := owns
  obtain ⟨kept, done, staying, completed, keptOrder, doneOrder, divided⟩ :=
    visits_ids behaviour scheduler.maxSteps scheduler.maxForks opened
  have next : (scheduler.tick behaviour realm).2.1.castIds = kept := staying
  have report : (scheduler.tick behaviour realm).1.completedIds = done := completed
  simp only [next, report]
  exact ⟨keptOrder, doneOrder, divided⟩

theorem filter_eq_singleton
    {outcomes : List (Outcome κ)}
    {outcome : Outcome κ}
    (distinct : (outcomes.map (·.id)).Nodup)
    (member : outcome ∈ outcomes) :
    outcomes.filter (·.id == outcome.id) = [outcome] := by
  obtain ⟨earlier, later, rfl⟩ := List.append_of_mem member
  rw [List.map_append, List.map_cons] at distinct
  obtain ⟨-, laterNodup, apart⟩ := List.nodup_append.mp distinct
  have notEarlier : earlier.filter (·.id == outcome.id) = [] := by
    apply List.filter_eq_nil_iff.mpr
    intro other otherMember same
    exact apart _ (List.mem_map_of_mem otherMember) _ List.mem_cons_self (by simpa using same)
  have notLater : later.filter (·.id == outcome.id) = [] := by
    apply List.filter_eq_nil_iff.mpr
    intro other otherMember same
    have sameId : other.id = outcome.id := by simpa using same
    exact (List.nodup_cons.mp laterNodup).1 (sameId ▸ List.mem_map_of_mem otherMember)
  simp only [List.filter_append, List.filter_cons, beq_self_eq_true, if_true, notEarlier, notLater, List.nil_append]

/-- An outcome that a tick reports is the only one with its number, and the cast is gone. -/
theorem reported_alone
    {outcome : Outcome κ}
    (owns : Owns scheduler.arena scheduler.casts)
    (distinct : scheduler.castIds.Nodup)
    (reported : outcome ∈ (scheduler.tick behaviour realm).1.completed) :
    (scheduler.tick behaviour realm).1.completed.filter (·.id == outcome.id) = [outcome] ∧
      outcome.id ∉ (scheduler.tick behaviour realm).2.1.castIds := by
  obtain ⟨-, -, divided⟩ := tick_ids behaviour owns realm
  obtain ⟨-, reportedNodup, apart⟩ := List.nodup_append.mp (divided.nodup_iff.mpr distinct)
  have completed : outcome.id ∈ (scheduler.tick behaviour realm).1.completedIds :=
    List.mem_map_of_mem reported
  exact ⟨filter_eq_singleton reportedNodup reported, fun inFlight => apart _ inFlight _ completed rfl⟩

theorem find?_eq_none
    (absent : id ∉ scheduler.castIds) :
    scheduler.find? id = none := by
  rw [find?, List.find?_eq_none]
  intro cast member same
  have equal : cast.id = id := by simpa using same
  exact absent (equal ▸ List.mem_map_of_mem member)

theorem activeContext?_eq_none
    (absent : id ∉ scheduler.castIds) :
    scheduler.activeContext? id = none := by
  rw [activeContext?, find?_eq_none absent]
  rfl

theorem cancelCast_eq
    (absent : id ∉ scheduler.castIds)
    (reason : CancelReason)
    (realm : Realm) :
    scheduler.cancelCast behaviour id reason realm = (false, scheduler, realm) := by
  rw [cancelCast, activeContext?_eq_none absent]

theorem terminateCast_eq
    (absent : id ∉ scheduler.castIds)
    (realm : Realm) :
    scheduler.terminateCast id realm = (false, scheduler, realm) := by
  rw [terminateCast, activeContext?_eq_none absent]

/-- An interrupt changes nothing but contexts. -/
theorem cancelCast_arena
    (behaviour : Behaviour κ)
    (scheduler : Scheduler κ)
    (id : CastId)
    (reason : CancelReason)
    (realm : Realm) :
    ∃ arena, (scheduler.cancelCast behaviour id reason realm).2.1 = { scheduler with arena } := by
  unfold cancelCast
  split
  · exact ⟨_, rfl⟩
  · split
    · exact ⟨_, rfl⟩
    · exact ⟨_, rfl⟩

theorem terminateCast_arena
    (scheduler : Scheduler κ)
    (id : CastId)
    (realm : Realm) :
    ∃ arena, (scheduler.terminateCast id realm).2.1 = { scheduler with arena } := by
  unfold terminateCast
  split
  · exact ⟨_, rfl⟩
  · split
    · exact ⟨_, rfl⟩
    · exact ⟨_, rfl⟩

end Scheduler

namespace History

variable {history later : History κ} {rules : Rules κ}

/-- The casts in flight and the completed ones are together the registered ones, all in order. -/
structure Accounts (history : History κ) : Prop where
  given : ∀ id ∈ history.registered, id < history.scheduler.nextCast
  increasing : history.registered.Pairwise (· < ·)
  divided : (history.scheduler.castIds ++ history.completedIds).Perm history.registered
  inFlight : history.scheduler.castIds.Sublist history.registered
  reported : ∀ report ∈ history.reports, report.completedIds.Sublist history.registered

theorem Accounts.nextCast_unknown
    (accounts : history.Accounts) :
    history.scheduler.nextCast ∉ history.registered :=
  fun given => Nat.lt_irrefl _ (accounts.given _ given)

theorem Accounts.nodup
    (accounts : history.Accounts) :
    (history.scheduler.castIds ++ history.completedIds).Nodup :=
  accounts.divided.nodup_iff.mpr (accounts.increasing.imp Nat.ne_of_lt)

theorem Accounts.castIds_nodup
    (accounts : history.Accounts) :
    history.scheduler.castIds.Nodup :=
  (List.nodup_append.mp accounts.nodup).1

theorem Accounts.not_mem_castIds
    {id : CastId}
    (accounts : history.Accounts)
    (completed : id ∈ history.completedIds) :
    id ∉ history.scheduler.castIds :=
  fun inFlight => (List.nodup_append.mp accounts.nodup).2.2 id inFlight id completed rfl

theorem Accounts.cast
    (accounts : history.Accounts)
    (context : Context κ) :
    (history.cast context).Accounts where
  given id member := by
    rcases List.mem_append.mp member with old | new
    · exact Nat.lt_succ_of_lt (accounts.given id old)
    · exact List.mem_singleton.mp new ▸ Nat.lt_succ_self _
  increasing := by
    refine List.pairwise_append.mpr ⟨accounts.increasing, List.pairwise_singleton _ _, ?_⟩
    intro id old new member
    exact List.mem_singleton.mp member ▸ accounts.given id old
  divided := by
    have appended :
        (history.cast context).scheduler.castIds =
          history.scheduler.castIds ++ [history.scheduler.nextCast] := by
      simp [History.cast, Scheduler.cast, Scheduler.castIds]
    rw [appended, List.append_assoc]
    exact (List.perm_append_comm.append_left _).trans
      ((List.append_assoc _ _ _).symm ▸ accounts.divided.append_right _)
  inFlight := by
    have appended :
        (history.cast context).scheduler.castIds =
          history.scheduler.castIds ++ [history.scheduler.nextCast] := by
      simp [History.cast, Scheduler.cast, Scheduler.castIds]
    rw [appended]
    exact accounts.inFlight.append (List.Sublist.refl _)
  reported report member :=
    (accounts.reported report member).trans (List.sublist_append_left _ _)

theorem Accounts.tick
    (accounts : history.Accounts)
    (owns : history.Owns) :
    (history.tick behaviour).Accounts := by
  have ticked := Scheduler.tick_ids behaviour owns history.realm
  rcases answer : history.scheduler.tick behaviour history.realm with ⟨report, next, realm⟩
  rw [answer] at ticked
  obtain ⟨keptOrder, doneOrder, divided⟩ := ticked
  have sameNext : next.nextCast = history.scheduler.nextCast := by
    have counted := congrArg (fun answer => answer.2.1.nextCast) answer
    exact counted.symm
  have after :
      history.tick behaviour =
        { history with
          scheduler := next, realm, reports := history.reports ++ [report]
          executed := history.executed ++ history.scheduler.executed behaviour history.realm } := by
    simp only [History.tick, answer]
  rw [after]
  refine ⟨?_, accounts.increasing, ?_, keptOrder.trans accounts.inFlight, ?_⟩
  · intro id member
    exact sameNext ▸ accounts.given id member
  · have completed :
        (history.reports ++ [report]).flatMap TickReport.completedIds =
          history.completedIds ++ report.completedIds := by
      simp [completedIds]
    calc
      List.Perm (next.castIds ++ (history.reports ++ [report]).flatMap TickReport.completedIds)
          (next.castIds ++ (report.completedIds ++ history.completedIds)) := by
        rw [completed]
        exact List.perm_append_comm.append_left _
      List.Perm _ ((next.castIds ++ report.completedIds) ++ history.completedIds) :=
        .of_eq (List.append_assoc _ _ _).symm
      List.Perm _ (history.scheduler.castIds ++ history.completedIds) :=
        divided.append_right _
      List.Perm _ history.registered :=
        accounts.divided
  · intro other member
    rcases List.mem_append.mp member with old | new
    · exact accounts.reported other old
    · exact List.mem_singleton.mp new ▸ doneOrder.trans accounts.inFlight

theorem Accounts.interrupted
    (accounts : history.Accounts)
    {scheduler : Scheduler κ}
    (realm : Realm)
    (unchanged : ∃ arena, scheduler = { history.scheduler with arena }) :
    ({ history with scheduler, realm } : History κ).Accounts := by
  obtain ⟨arena, rfl⟩ := unchanged
  exact ⟨accounts.given, accounts.increasing, accounts.divided, accounts.inFlight, accounts.reported⟩

theorem accounts_stable (behaviour : Behaviour κ) (rules : Rules κ) :
    Stable rules behaviour fun history => history.Owns ∧ history.Accounts where
  cast history context holds :=
    ⟨(owns_stable behaviour rules).cast history context holds.1, holds.2.cast context⟩
  tick history holds :=
    ⟨(owns_stable behaviour rules).tick history holds.1, holds.2.tick holds.1⟩
  cancel history id reason allowed holds :=
    ⟨(owns_stable behaviour rules).cancel history id reason allowed holds.1,
      holds.2.interrupted _ (Scheduler.cancelCast_arena behaviour history.scheduler id reason history.realm)⟩
  terminate history id allowed holds :=
    ⟨(owns_stable behaviour rules).terminate history id allowed holds.1,
      holds.2.interrupted _ (Scheduler.terminateCast_arena history.scheduler id history.realm)⟩
  outside history realm holds := ⟨holds.1, holds.2.interrupted realm ⟨history.scheduler.arena, rfl⟩⟩

theorem reports_stable (rules : Rules κ) (history : History κ) :
    Stable rules behaviour fun later => history.reports <+: later.reports where
  cast _ _ grown := grown
  tick _ grown := grown.trans (List.prefix_append _ _)
  cancel _ _ _ _ grown := grown
  terminate _ _ _ grown := grown
  outside _ _ grown := grown

/-- The limits of a scheduler are never changed by a call. -/
theorem limits_stable (behaviour : Behaviour κ) (rules : Rules κ) (maxSteps maxForks : Nat) :
    Stable rules behaviour fun history =>
      history.scheduler.maxSteps = maxSteps ∧ history.scheduler.maxForks = maxForks where
  cast _ _ limits := limits
  tick _ limits := limits
  cancel history id reason _ limits := by
    obtain ⟨arena, unchanged⟩ :=
      Scheduler.cancelCast_arena behaviour history.scheduler id reason history.realm
    simp only [cancel, unchanged]
    exact limits
  terminate history id _ limits := by
    obtain ⟨arena, unchanged⟩ := Scheduler.terminateCast_arena history.scheduler id history.realm
    simp only [terminate, unchanged]
    exact limits
  outside _ _ limits := limits

/-- A number occurs in the completed casts of exactly one report, and once there. -/
def ReportedOnce (id : CastId) (reports : List (TickReport κ)) : Prop :=
  ∃ earlier report later, reports = earlier ++ report :: later ∧ report.completedIds.count id = 1 ∧
    ∀ other ∈ earlier ++ later, id ∉ other.completedIds

theorem reportedOnce_of_mem
    {id : CastId}
    {reports : List (TickReport κ)}
    (nodup : (reports.flatMap (·.completedIds)).Nodup)
    (member : id ∈ reports.flatMap (·.completedIds)) :
    ReportedOnce id reports := by
  obtain ⟨report, listed, completed⟩ := List.mem_flatMap.mp member
  obtain ⟨earlier, later, split⟩ := List.append_of_mem listed
  rw [split, List.flatMap_append, List.flatMap_cons] at nodup
  obtain ⟨-, rightNodup, apartFromEarlier⟩ := List.nodup_append.mp nodup
  obtain ⟨reportNodup, -, apartFromLater⟩ := List.nodup_append.mp rightNodup
  refine ⟨earlier, report, later, split, by rw [reportNodup.count, if_pos completed], ?_⟩
  intro other elsewhere again
  rcases List.mem_append.mp elsewhere with before | after
  · exact apartFromEarlier id (List.mem_flatMap.mpr ⟨other, before, again⟩) id
      (List.mem_append_left _ completed) rfl
  · exact apartFromLater id completed id (List.mem_flatMap.mpr ⟨other, after, again⟩) rfl

end History

theorem Reaches.accounts
    {rules : Rules κ}
    {scheduler : Scheduler κ}
    {realm : Realm}
    {history : History κ}
    (made : scheduler.Made)
    (reached : Reaches rules behaviour (.start scheduler realm) history) :
    history.Accounts := by
  have nothing : scheduler.castIds = [] := by
    rw [Scheduler.castIds, made.owns.2, List.map_nil]
  have initially : (History.start scheduler realm).Owns ∧ (History.start scheduler realm).Accounts := by
    refine ⟨made.owns.1, fun _ member => absurd member List.not_mem_nil, .nil, ?_, ?_,
      fun _ member => absurd member List.not_mem_nil⟩
    · change (scheduler.castIds ++ []).Perm []
      rw [nothing]
      exact .nil
    · exact List.sublist_nil.mpr nothing
  exact ((History.accounts_stable behaviour rules).reaches initially reached).2

theorem Scheduler.Made.maxSteps_pos
    {scheduler : Scheduler κ}
    (made : scheduler.Made) :
    0 < scheduler.maxSteps := by
  induction made with
  | empty =>
      exact Nat.zero_lt_succ _
  | ofConfig config =>
      exact Nat.lt_of_lt_of_le Nat.zero_lt_one (Nat.le_max_right _ _)
  | withMaxSteps maxSteps _ _ =>
      exact Nat.lt_of_lt_of_le Nat.zero_lt_one (Nat.le_max_right _ _)
  | withMaxForks maxForks _ inductionHypothesis =>
      exact inductionHypothesis

theorem Reaches.maxSteps_pos
    {rules : Rules κ}
    {scheduler : Scheduler κ}
    {realm : Realm}
    {history : History κ}
    (made : scheduler.Made)
    (reached : Reaches rules behaviour (.start scheduler realm) history) :
    0 < history.scheduler.maxSteps := by
  have limits := (History.limits_stable behaviour rules scheduler.maxSteps scheduler.maxForks).reaches
    ⟨rfl, rfl⟩ reached
  exact limits.1 ▸ made.maxSteps_pos

/-- Registrations answer increasing numbers. In every history each of them is either once in flight or once in
exactly one report, the casts in flight and those of a report are in the order of registration, and a cast that was
reported as completed has no context and cannot be interrupted ever after. -/
theorem castsCompleteAtMostOnce
    {rules : Rules κ}
    {scheduler : Scheduler κ}
    {realm : Realm}
    {history : History κ}
    (made : scheduler.Made)
    (reached : Reaches rules behaviour (.start scheduler realm) history) :
    history.registered.Pairwise (· < ·) ∧
    (∀ id ∈ history.registered,
      (history.scheduler.castIds.count id = 1 ∧ ∀ report ∈ history.reports, id ∉ report.completedIds) ∨
        (id ∉ history.scheduler.castIds ∧ History.ReportedOnce id history.reports)) ∧
    history.scheduler.castIds.Sublist history.registered ∧
    (∀ report ∈ history.reports, report.completedIds.Sublist history.registered) ∧
    (∀ later, Reaches rules behaviour history later → ∀ id ∈ history.completedIds,
      later.scheduler.activeContext? id = none ∧ later.scheduler.context? id = none ∧
        ∀ reason realm,
          later.scheduler.cancelCast behaviour id reason realm = (false, later.scheduler, realm) ∧
            later.scheduler.terminateCast id realm = (false, later.scheduler, realm)) := by
  have accounts := reached.accounts made
  obtain ⟨inFlightNodup, completedNodup, apart⟩ := List.nodup_append.mp accounts.nodup
  refine ⟨accounts.increasing, ?_, accounts.inFlight, accounts.reported, ?_⟩
  · intro id registered
    rcases List.mem_append.mp (accounts.divided.mem_iff.mpr registered) with inFlight | completed
    · left
      refine ⟨by rw [inFlightNodup.count, if_pos inFlight], ?_⟩
      intro report listed completed
      exact apart id inFlight id (List.mem_flatMap.mpr ⟨report, listed, completed⟩) rfl
    · right
      exact ⟨accounts.not_mem_castIds completed, History.reportedOnce_of_mem completedNodup completed⟩
  · intro later further id completed
    have laterAccounts := (reached.trans further).accounts made
    have grown : history.reports <+: later.reports :=
      (History.reports_stable rules history).reaches List.prefix_rfl further
    have stillCompleted : id ∈ later.completedIds := by
      obtain ⟨report, listed, member⟩ := List.mem_flatMap.mp completed
      exact List.mem_flatMap.mpr ⟨report, grown.subset listed, member⟩
    have absent := laterAccounts.not_mem_castIds stillCompleted
    have noContext := Scheduler.activeContext?_eq_none absent
    refine ⟨noContext, ?_, ?_⟩
    · rw [Scheduler.context?, noContext]
      rfl
    · intro reason realm
      exact ⟨Scheduler.cancelCast_eq absent reason realm, Scheduler.terminateCast_eq absent realm⟩

/-- Two casts of a jump are completed by the same tick, in order; the second one stays gone when it is canceled. -/
theorem castsCompleteAtMostOnce_afterJumps :
    let jump : Instruction Glyph := .plain Glyph.marksId ⟨0, .jump Glyph.defaultStrength⟩
    let context : Context Glyph := .ofProgram (.ofInstructions [jump])
    let fresh : History Glyph := .start .empty .empty
    let history := ((fresh.cast context).cast context).tick Glyph.behaviour
    Scheduler.Made fresh.scheduler ∧
      Reaches ⟨fun _ => True, fun _ _ => True⟩ Glyph.behaviour fresh history ∧
      history.completedIds = [1, 2] ∧
      history.scheduler.cancelCast Glyph.behaviour 2 .terminated .empty = (false, history.scheduler, .empty) := by
  intro jump context fresh history
  have reached : Reaches ⟨fun _ => True, fun _ _ => True⟩ Glyph.behaviour fresh history :=
    .call .tick (.call (.cast context) (.call (.cast context) .origin trivial) trivial) trivial
  have completed : history.completedIds = [1, 2] := by decide
  have second : 2 ∈ history.completedIds := by
    rw [completed]
    decide
  have statement := castsCompleteAtMostOnce .empty reached
  exact ⟨.empty, reached, completed,
    (statement.2.2.2.2 history .origin 2 second).2.2 .terminated .empty |>.1⟩

end Spellcast
