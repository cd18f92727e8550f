import Spellcast.Proofs.Ownership.Tick
import Spellcast.Glyph

/-!
# A tick never needs its ways out

A turn gives up quietly where a context is missing, where there is nothing to step to although something may run,
and where a context cannot be forked; a completion does without its last context if there is none. The strict forms
of these functions fail there instead. As casts own their contexts, they never do, and lead to the same round.
-/

namespace Spellcast

variable {κ : Type} {behaviour : Behaviour κ} {maxSteps maxForks : Nat} {others : List InFlight}

namespace Turn

variable {turn : Turn κ} {context : Context κ}

/-- A step that fails if the active context is missing, if there is nothing to step to although something may run,
or if the active context cannot be forked although there are forks left. -/
def stepStrict? (behaviour : Behaviour κ) (maxForks : Nat) (turn : Turn κ) : Option (Turn κ × Bool) := do
  let context ← turn.arena.get? turn.cast.active
  if context.hasNext then
    let (found, context, realm) := context.advance turn.realm
    let instruction ← found
    let code := instruction.effect.code
    let realm := realm.emit (.casting instruction.id.text (behaviour.effectName code))
    let (resolution, context, realm) := behaviour.cast code context realm
    let turn : Turn κ :=
      { turn with arena := turn.arena.set turn.cast.active context, realm, steps := turn.steps + 1 }
    match resolution with
    | .proceed => return (turn, true)
    | .fork =>
      if maxForks ≤ turn.cast.forks then return turn.grantFork behaviour maxForks context
      else
        let _ ← turn.arena.fork behaviour turn.cast.active turn.realm
        return turn.moveOn behaviour
  else return (turn, false)

/-- Runs strict steps as long as the turn goes on, at most so many. -/
def runStrict? (behaviour : Behaviour κ) (maxForks : Nat) : Nat → Turn κ → Option (Turn κ)
  | 0, turn => some turn
  | budget + 1, turn =>
    match turn.stepStrict? behaviour maxForks with
    | none => none
    | some (after, true) => runStrict? behaviour maxForks budget after
    | some (after, false) => some after

/-- A whole turn in strict steps. It fails as well if the active context is missing at its start or at its end. -/
def takeStrict? (behaviour : Behaviour κ) (maxSteps maxForks : Nat) (turn : Turn κ) :
    Option (Turn κ × Verdict) := do
  let context ← turn.arena.get? turn.cast.active
  match turn.announced.wake context with
  | (woken, true) => return (woken.left, .running)
  | (woken, false) =>
    let ran ← woken.runStrict? behaviour maxForks maxSteps
    let _ ← ran.arena.get? ran.cast.active
    return (ran.counted.left, ran.verdict)

theorem stepStrict?_eq
    (behaviour : Behaviour κ)
    (maxForks : Nat)
    (owns : Owns turn.arena (turn.cast :: others)) :
    turn.stepStrict? behaviour maxForks = some (turn.step behaviour maxForks) := by
  obtain ⟨context, live⟩ := active_live owns
  cases next : context.hasNext with
  | false =>
      rw [step_of_exhausted behaviour maxForks live next]
      simp [stepStrict?, live, next]
  | true =>
      obtain ⟨instruction, resolution, after, realm, runs⟩ := exists_runs behaviour live next
      have answer := runs.cast
      rw [castingRealm] at answer
      cases resolution with
      | proceed =>
          rw [step_of_proceed maxForks runs]
          simp [stepStrict?, live, next, Context.advance_eq runs.found, answer, ran]
      | fork =>
          rw [step_of_fork runs]
          by_cases limit : maxForks ≤ turn.cast.forks
          · simp [stepStrict?, live, next, Context.advance_eq runs.found, answer, ran, limit]
          · have notReached : ¬ maxForks ≤ (turn.ran after realm).cast.forks := limit
            have ranLive : (turn.ran after realm).arena.get? turn.cast.active = some after :=
              ran_live live
            have forked := Arena.fork_eq behaviour ranLive realm
            simp only [ran] at forked
            rw [grantFork, if_neg notReached]
            simp [stepStrict?, live, next, Context.advance_eq runs.found, answer, ran, limit, forked]

theorem runStrict?_eq
    (behaviour : Behaviour κ)
    (maxForks : Nat)
    (budget : Nat)
    (owns : Owns turn.arena (turn.cast :: others)) :
    turn.runStrict? behaviour maxForks budget = some (turn.run behaviour maxForks budget) := by
  induction budget generalizing turn with
  | zero =>
      rfl
  | succ budget inductionHypothesis =>
      have strict := stepStrict?_eq behaviour maxForks owns
      have keeps := keeps_step behaviour maxForks owns
      rcases stepped : turn.step behaviour maxForks with ⟨after, goesOn⟩
      rw [stepped] at strict keeps
      cases goesOn with
      | false =>
          rw [run_of_stop stepped]
          simp [runStrict?, strict]
      | true =>
          rw [run_of_go stepped]
          simpa [runStrict?, strict] using inductionHypothesis keeps.owns

theorem takeStrict?_eq
    (behaviour : Behaviour κ)
    (maxSteps maxForks : Nat)
    (owns : Owns turn.arena (turn.cast :: others)) :
    turn.takeStrict? behaviour maxSteps maxForks = some (turn.take behaviour maxSteps maxForks) := by
  obtain ⟨context, live⟩ := active_live owns
  have announced := keeps_announced owns
  have woken := announced.trans (keeps_wake announced.owns context)
  rcases woke : turn.announced.wake context with ⟨next, waits⟩
  rw [woke] at woken
  cases waits with
  | true =>
      rw [take_of_waits live woke]
      simp [takeStrict?, live, woke]
  | false =>
      have strict := runStrict?_eq behaviour maxForks maxSteps woken.owns
      have ran := keeps_run behaviour maxForks maxSteps woken.owns
      obtain ⟨last, lastLive⟩ := active_live ran.owns
      rw [take_of_wakes live woke]
      simp [takeStrict?, live, woke, strict, lastLive]

end Turn

namespace Scheduler

variable {round : Round κ} {cast : InFlight} {rest casts : List InFlight} {scheduler : Scheduler κ} {realm : Realm}

/-- A visit whose turn is strict. It fails as well if a cast would be completed without its last context. -/
def visitStrict? (behaviour : Behaviour κ) (maxSteps maxForks : Nat) (round : Round κ) (cast : InFlight) :
    Option (Round κ) := do
  match ← (round.turn cast).takeStrict? behaviour maxSteps maxForks with
  | (turn, .running) =>
    return { round with
      staying := round.staying ++ [turn.cast], arena := turn.arena, realm := turn.realm
      steps := round.steps + turn.steps, forks := round.forks + turn.forks }
  | (turn, .finished) =>
    let _ ← turn.arena.get? turn.cast.active
    let (outcome, arena, realm) := complete turn.cast turn.arena turn.realm
    return { round with
      arena, realm, completed := round.completed ++ [outcome]
      steps := round.steps + turn.steps, forks := round.forks + turn.forks }

def roundStrict? (behaviour : Behaviour κ) (scheduler : Scheduler κ) (realm : Realm) : Option (Round κ) :=
  scheduler.casts.foldlM (visitStrict? behaviour scheduler.maxSteps scheduler.maxForks) (scheduler.opening realm)

theorem visitStrict?_eq
    (behaviour : Behaviour κ)
    (maxSteps maxForks : Nat)
    (owns : Owns round.arena (round.staying ++ cast :: rest)) :
    visitStrict? behaviour maxSteps maxForks round cast =
      some (visit behaviour maxSteps maxForks round cast) := by
  have strict := Turn.takeStrict?_eq behaviour maxSteps maxForks (Round.turn_owns owns)
  have keeps := Turn.keeps_take behaviour maxSteps maxForks (Round.turn_owns owns)
  rcases taken : (round.turn cast).take behaviour maxSteps maxForks with ⟨turn, verdict⟩
  rw [taken] at strict keeps
  cases verdict with
  | running =>
      rw [visit_of_running taken]
      simp [visitStrict?, strict]
  | finished =>
      obtain ⟨last, live⟩ := Turn.active_live keeps.owns
      rw [visit_of_finished taken]
      simp [visitStrict?, strict, live]

theorem visitsStrict?_eq
    (behaviour : Behaviour κ)
    (maxSteps maxForks : Nat)
    (owns : Owns round.arena (round.staying ++ casts)) :
    casts.foldlM (visitStrict? behaviour maxSteps maxForks) round =
      some (casts.foldl (visit behaviour maxSteps maxForks) round) := by
  induction casts generalizing round with
  | nil =>
      rfl
  | cons first casts inductionHypothesis =>
      rw [List.foldlM_cons, visitStrict?_eq behaviour maxSteps maxForks owns]
      exact inductionHypothesis (visit_owns behaviour maxSteps maxForks owns)

end Scheduler

/-- In every reachable scheduler the contexts in the arena are divided among the casts in flight: no context is in two
places, the active one is the last of its cast, and there is one more than forks. So nothing is left behind when the
scheduler is idle, the visit of a cast keeps the contexts of all others as they are, and no tick needs a way out. -/
theorem contextsAreDividedAmongCasts
    {rules : Rules κ}
    {scheduler : Scheduler κ}
    {realm : Realm}
    {history : History κ}
    (made : scheduler.Made)
    (reached : Reaches rules behaviour (.start scheduler realm) history) :
    let arena := history.scheduler.arena
    let casts := history.scheduler.casts
    (arena.ids.Perm (owned casts) ∧ (owned casts).Nodup ∧
      ∀ id, arena.contains id = true ↔ ∃ cast ∈ casts, id ∈ cast.contexts) ∧
    (∀ cast ∈ casts,
      cast.contexts.getLast? = some cast.active ∧ arena.contains cast.active = true ∧
        cast.contexts.length = cast.forks + 1) ∧
    (∀ id, arena.contains id = true → id < arena.nextId) ∧
    (history.scheduler.isIdle = true → arena.contexts = []) ∧
    (∀ realm before cast after, casts = before ++ cast :: after →
      let round := history.scheduler.roundAfter behaviour realm before
      let next := Scheduler.visit behaviour history.scheduler.maxSteps history.scheduler.maxForks round cast
      ∀ other ∈ round.staying ++ after, ∀ id ∈ other.contexts,
        next.arena.contains id = true ∧ next.arena.get? id = round.arena.get? id) ∧
    (∀ realm,
      history.scheduler.roundStrict? behaviour realm =
        some (history.scheduler.roundAfter behaviour realm casts)) := by
  intro arena casts
  have owns : Owns arena casts := reached.owns made
  have contains_iff : ∀ id, arena.contains id = true ↔ id ∈ arena.ids := by
    intro id
    rw [Arena.contains, Option.isSome_iff_exists, Arena.mem_ids_iff]
  have opened (realm : Realm) :
      Owns (history.scheduler.opening realm).arena ((history.scheduler.opening realm).staying ++ casts) := owns
  refine ⟨⟨owns.perm, owns.owned_nodup, ?_⟩, ?_, ?_, ?_, ?_, ?_⟩
  · intro id
    rw [contains_iff, owns.perm.mem_iff, owned, List.mem_flatMap]
  · intro cast member
    have coherent := owns.coherent cast member
    exact ⟨coherent.active, (contains_iff _).mpr (owns.mem_ids member coherent.active_mem), coherent.length⟩
  · intro id live
    exact owns.below id ((contains_iff id).mp live)
  · intro idle
    have noCasts : casts = [] := List.isEmpty_iff.mp idle
    rw [noCasts] at owns
    exact owns.ids_eq_nil
  · intro realm before cast after split round next other member id listed
    have pending := opened realm
    rw [split] at pending
    have roundOwns : Owns round.arena (round.staying ++ cast :: after) := Scheduler.visits_own _ _ _ pending
    have nextOwns : Owns next.arena (next.staying ++ after) := Scheduler.visit_owns _ _ _ roundOwns
    have apart : next.arena.get? id = round.arena.get? id :=
      Scheduler.visit_apart _ _ _ roundOwns other member id listed
    have stays : other ∈ round.staying ++ cast :: after := by
      rcases List.mem_append.mp member with stays | waits
      · exact List.mem_append_left _ stays
      · exact List.mem_append_right _ (List.mem_cons_of_mem _ waits)
    obtain ⟨context, live⟩ := roundOwns.live stays listed
    refine ⟨?_, apart⟩
    rw [Arena.contains, apart, live]
    rfl
  · intro realm
    exact Scheduler.visitsStrict?_eq _ _ _ (opened realm)

/-- A mark behind a delay: after one tick the cast owns its root and the child that waits. -/
theorem contextsAreDividedAmongCasts_afterDelay :
    let delay : Instruction Glyph := .plain Glyph.marksId ⟨0, .delay 3⟩
    let mark : Instruction Glyph := .plain Glyph.marksId ⟨1, .mark Glyph.marksId⟩
    let fresh : History Glyph := .start .empty .empty
    let history := (fresh.cast (.ofProgram (.ofInstructions [delay, mark]))).tick Glyph.behaviour
    Scheduler.Made fresh.scheduler ∧
      Reaches ⟨fun _ => True, fun _ _ => True⟩ Glyph.behaviour fresh history ∧
      owned history.scheduler.casts = [0, 1] ∧
      history.scheduler.arena.ids.Perm (owned history.scheduler.casts) := by
  intro delay mark fresh history
  have reached : Reaches ⟨fun _ => True, fun _ _ => True⟩ Glyph.behaviour fresh history :=
    .call .tick (.call (.cast _) .origin trivial) trivial
  exact ⟨.empty, reached, by decide, (contextsAreDividedAmongCasts .empty reached).1.1⟩

end Spellcast
