import Spellcast.Proofs.Completion

/-!
# Traces of ticks

A tick gives every cast in flight its turn, and every turn leaves something behind: the instructions that it runs, say.
`Scheduler.traced` gathers what the turns of a tick leave, each entry with the number of its cast, so that of all entries
a cast has left those of its own turn. The executed instructions are such a trace.
-/

namespace Spellcast.Scheduler

variable {κ α : Type} {behaviour : Behaviour κ} {maxSteps maxForks : Nat} {trace : Turn κ → List α} {round : Round κ}
  {scheduler : Scheduler κ} {cast : InFlight} {casts : List InFlight} {id : CastId} {realm : Realm}

/-- What the turns of some casts leave from a round on, each entry with the number of its cast. -/
def tracedFrom (behaviour : Behaviour κ) (maxSteps maxForks : Nat) (trace : Turn κ → List α) :
    Round κ → List InFlight → List (CastId × α)
  | _, [] => []
  | round, cast :: rest =>
    (trace (round.turn cast)).map (cast.id, ·) ++
      tracedFrom behaviour maxSteps maxForks trace (visit behaviour maxSteps maxForks round cast) rest

/-- What the turns of a tick leave, each entry with the number of its cast. -/
def traced (behaviour : Behaviour κ) (scheduler : Scheduler κ) (realm : Realm) (trace : Turn κ → List α) :
    List (CastId × α) :=
  tracedFrom behaviour scheduler.maxSteps scheduler.maxForks trace (scheduler.opening realm) scheduler.casts

theorem executedFrom_eq_tracedFrom :
    executedFrom behaviour maxSteps maxForks round casts =
      tracedFrom behaviour maxSteps maxForks (fun turn => turn.taken behaviour maxSteps maxForks) round casts := by
  induction casts generalizing round with
  | nil =>
      rfl
  | cons first casts inductionHypothesis =>
      rw [executedFrom, tracedFrom, inductionHypothesis]

theorem executed_eq_traced
    (behaviour : Behaviour κ)
    (scheduler : Scheduler κ)
    (realm : Realm) :
    scheduler.executed behaviour realm =
      scheduler.traced behaviour realm fun turn => turn.taken behaviour scheduler.maxSteps scheduler.maxForks :=
  executedFrom_eq_tracedFrom

theorem tracedFrom_append
    (earlier later : List InFlight) :
    tracedFrom behaviour maxSteps maxForks trace round (earlier ++ later) =
      tracedFrom behaviour maxSteps maxForks trace round earlier ++
        tracedFrom behaviour maxSteps maxForks trace (earlier.foldl (visit behaviour maxSteps maxForks) round)
          later := by
  induction earlier generalizing round with
  | nil =>
      rfl
  | cons first earlier inductionHypothesis =>
      simp [tracedFrom, inductionHypothesis]

theorem mem_tracedFrom
    {entry : CastId × α}
    (member : entry ∈ tracedFrom behaviour maxSteps maxForks trace round casts) :
    entry.1 ∈ casts.map (·.id) := by
  induction casts generalizing round with
  | nil =>
      exact absurd member List.not_mem_nil
  | cons first casts inductionHypothesis =>
      rcases List.mem_append.mp member with own | later
      · obtain ⟨left, -, rfl⟩ := List.mem_map.mp own
        exact List.mem_cons_self
      · exact List.mem_cons_of_mem _ (inductionHypothesis later)

theorem filter_tracedFrom_eq_nil
    (absent : id ∉ casts.map (·.id)) :
    (tracedFrom behaviour maxSteps maxForks trace round casts).filter (·.1 == id) = [] := by
  rw [List.filter_eq_nil_iff]
  intro entry member own
  have same : entry.1 = id := by simpa using own
  exact absent (same ▸ mem_tracedFrom member)

theorem filter_own
    (entries : List α) :
    (entries.map (id, ·)).filter (·.1 == id) = entries.map (id, ·) := by
  apply List.filter_eq_self.mpr
  intro entry member
  obtain ⟨left, -, rfl⟩ := List.mem_map.mp member
  exact beq_self_eq_true id

/-- No other cast has the number of this one. -/
theorem not_mem_of_split
    {earlier later : List InFlight}
    (distinct : scheduler.castIds.Nodup)
    (split : scheduler.casts = earlier ++ cast :: later) :
    cast.id ∉ earlier.map (·.id) ∧ cast.id ∉ later.map (·.id) := by
  have ids : scheduler.castIds = earlier.map (·.id) ++ cast.id :: later.map (·.id) := by
    simp [castIds, split]
  rw [ids] at distinct
  obtain ⟨-, laterNodup, apart⟩ := List.nodup_append.mp distinct
  exact ⟨fun again => apart _ again _ List.mem_cons_self rfl, (List.nodup_cons.mp laterNodup).1⟩

/-- Of all that a tick leaves, a cast has left what its own turn leaves. -/
theorem filter_traced_of_split
    {earlier later : List InFlight}
    (trace : Turn κ → List α)
    (distinct : scheduler.castIds.Nodup)
    (split : scheduler.casts = earlier ++ cast :: later) :
    (scheduler.traced behaviour realm trace).filter (·.1 == cast.id) =
      (trace ((scheduler.roundAfter behaviour realm earlier).turn cast)).map (cast.id, ·) := by
  obtain ⟨notEarlier, notLater⟩ := not_mem_of_split distinct split
  rw [traced, split, tracedFrom_append, tracedFrom, List.filter_append, List.filter_append,
    filter_tracedFrom_eq_nil notEarlier, filter_tracedFrom_eq_nil notLater, List.nil_append, List.append_nil]
  exact filter_own _

/-- Whatever a tick leaves comes from the turn of one of the casts. -/
theorem exists_split_of_mem_traced
    {entry : CastId × α}
    (member : entry ∈ scheduler.traced behaviour realm trace) :
    ∃ earlier cast later, scheduler.casts = earlier ++ cast :: later ∧ cast.id = entry.1 ∧
      entry.2 ∈ trace ((scheduler.roundAfter behaviour realm earlier).turn cast) := by
  have split (round : Round κ) (casts : List InFlight)
      (member : entry ∈ tracedFrom behaviour scheduler.maxSteps scheduler.maxForks trace round casts) :
      ∃ earlier cast later, casts = earlier ++ cast :: later ∧ cast.id = entry.1 ∧
        entry.2 ∈ trace
          ((earlier.foldl (visit behaviour scheduler.maxSteps scheduler.maxForks) round).turn cast) := by
    induction casts generalizing round with
    | nil =>
        exact absurd member List.not_mem_nil
    | cons first casts inductionHypothesis =>
        rcases List.mem_append.mp member with own | further
        · obtain ⟨left, isLeft, rfl⟩ := List.mem_map.mp own
          exact ⟨[], first, casts, rfl, rfl, isLeft⟩
        · obtain ⟨earlier, cast, later, rfl, found⟩ := inductionHypothesis _ further
          exact ⟨first :: earlier, cast, later, rfl, found⟩
  exact split _ _ member

end Spellcast.Scheduler
