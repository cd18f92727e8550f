import Spellcast.Proofs.Ownership.Tick

/-!
# What a turn leaves alone

Numbers of contexts only grow, and a turn touches no context that it did not make itself but the one that is active
at its start. So whatever is to be said about a context that is no longer active follows from what is said here, for
steps first, then for turns and for the visits of a round.
-/

namespace Spellcast

variable {κ : Type} {behaviour : Behaviour κ} {maxSteps maxForks : Nat} {others : List InFlight}

namespace Turn

variable {before middle after turn : Turn κ}

/-- The contexts that were there before, but for the active one, are as they were, and everything that has been added
to the cast is new. -/
structure Grows (before after : Turn κ) : Prop where
  contexts : ∃ made, after.cast.contexts = before.cast.contexts ++ made ∧ ∀ id ∈ made, before.arena.nextId ≤ id
  active : after.cast.active = before.cast.active ∨ before.arena.nextId ≤ after.cast.active
  nextId : before.arena.nextId ≤ after.arena.nextId
  apart : ∀ id < before.arena.nextId, id ≠ before.cast.active → after.arena.get? id = before.arena.get? id

theorem Grows.of_same
    (cast : after.cast.contexts = before.cast.contexts ∧ after.cast.active = before.cast.active)
    (arena : after.arena = before.arena) :
    Grows before after where
  contexts := ⟨[], by rw [cast.1, List.append_nil], fun _ member => absurd member List.not_mem_nil⟩
  active := .inl cast.2
  nextId := Nat.le_of_eq (by rw [arena])
  apart _ _ _ := by rw [arena]

theorem Grows.trans
    (earlier : Grows before middle)
    (later : Grows middle after) :
    Grows before after where
  contexts := by
    obtain ⟨first, grownFirst, newFirst⟩ := earlier.contexts
    obtain ⟨second, grownSecond, newSecond⟩ := later.contexts
    refine ⟨first ++ second, by rw [grownSecond, grownFirst, List.append_assoc], ?_⟩
    intro id member
    rcases List.mem_append.mp member with inFirst | inSecond
    · exact newFirst id inFirst
    · exact Nat.le_trans earlier.nextId (newSecond id inSecond)
  active := by
    rcases later.active with same | new
    · rw [same]
      exact earlier.active
    · exact .inr (Nat.le_trans earlier.nextId new)
  nextId := Nat.le_trans earlier.nextId later.nextId
  apart id old notActive := by
    have stillOld : id < middle.arena.nextId := Nat.lt_of_lt_of_le old earlier.nextId
    have stillNotActive : id ≠ middle.cast.active := by
      rcases earlier.active with same | new
      · exact same ▸ notActive
      · exact Nat.ne_of_lt (Nat.lt_of_lt_of_le old new)
    exact (later.apart id stillOld stillNotActive).trans (earlier.apart id old notActive)

theorem grows_set
    (context : Context κ)
    (cast : after.cast = before.cast)
    (arena : after.arena = before.arena.set before.cast.active context) :
    Grows before after where
  contexts := ⟨[], by rw [cast, List.append_nil], fun _ member => absurd member List.not_mem_nil⟩
  active := .inl (by rw [cast])
  nextId := Nat.le_of_eq (by rw [arena, Arena.nextId_set])
  apart id _ notActive := by
    rw [arena]
    exact Arena.get?_set_of_ne notActive

theorem grows_movedOn
    (behaviour : Behaviour κ)
    (turn : Turn κ)
    (context : Context κ) :
    Grows turn (turn.movedOn behaviour context) where
  contexts := by
    refine ⟨[turn.arena.nextId], rfl, ?_⟩
    intro id member
    exact Nat.le_of_eq (List.mem_singleton.mp member).symm
  active := .inr (Nat.le_refl _)
  nextId := Nat.le_succ _
  apart _ old notActive :=
    (Arena.get?_set_of_ne notActive).trans (Arena.get?_insert_of_ne (Nat.ne_of_lt old))

theorem grows_step
    (behaviour : Behaviour κ)
    (maxForks : Nat)
    (owns : Owns turn.arena (turn.cast :: others)) :
    Grows turn (turn.step behaviour maxForks).1 := by
  obtain ⟨context, live⟩ := active_live owns
  have cases := step_cases behaviour maxForks live (known owns)
  generalize (turn.step behaviour maxForks).1 = after at cases ⊢
  generalize (turn.step behaviour maxForks).2 = goesOn at cases
  cases cases with
  | exhausted _ _ =>
      exact .of_same ⟨rfl, rfl⟩ rfl
  | proceed _ =>
      exact grows_set _ rfl rfl
  | @limit _ next _ realm _ _ =>
      have ran : Grows turn (turn.ran next realm) := grows_set next rfl rfl
      exact ran.trans (grows_set _ rfl rfl)
  | @fork _ next _ realm _ _ =>
      have ran : Grows turn (turn.ran next realm) := grows_set next rfl rfl
      exact ran.trans (grows_movedOn behaviour _ next)

theorem grows_wake (turn : Turn κ) (context : Context κ) :
    Grows turn (turn.wake context).1 := by
  have cases := wake_cases turn context
  generalize (turn.wake context).1 = woken at cases ⊢
  generalize (turn.wake context).2 = waits at cases
  cases cases with
  | awake _ =>
      exact .of_same ⟨rfl, rfl⟩ rfl
  | waits _ _ _ =>
      exact grows_set _ rfl rfl
  | resumes _ _ _ =>
      exact grows_set _ rfl rfl

theorem grows_lasting (behaviour : Behaviour κ) (maxForks : Nat) (others : List InFlight) (before : Turn κ) :
    Lasting behaviour maxForks others (Grows before) where
  announced _ grown := grown.trans (.of_same ⟨rfl, rfl⟩ rfl)
  wake turn context _ _ grown := grown.trans (grows_wake turn context)
  step _ owns grown := grown.trans (grows_step behaviour maxForks owns)
  counted _ grown := grown.trans (.of_same ⟨rfl, rfl⟩ rfl)
  left _ grown := grown.trans (.of_same ⟨rfl, rfl⟩ rfl)

theorem grows_take
    (behaviour : Behaviour κ)
    (maxSteps maxForks : Nat)
    (owns : Owns turn.arena (turn.cast :: others)) :
    Grows turn (turn.take behaviour maxSteps maxForks).1 :=
  (grows_lasting behaviour maxForks others turn).take maxSteps owns (.of_same ⟨rfl, rfl⟩ rfl)

theorem step_steps
    (behaviour : Behaviour κ)
    (maxForks : Nat)
    (owns : Owns turn.arena (turn.cast :: others)) :
    (turn.step behaviour maxForks).1.cast.steps + (turn.step behaviour maxForks).1.steps =
      turn.cast.steps + turn.steps + turn.next?.toList.length := by
  obtain ⟨context, live⟩ := active_live owns
  have stepped {context : Context κ} {instruction : Instruction κ} {resolution : Resolution} {next : Context κ}
      {realm : Realm} (runs : turn.Runs behaviour context instruction resolution next realm) :
      turn.next?.toList.length = 1 := by
    rw [next?_eq runs.live runs.next runs.found]
    rfl
  have cases := step_cases behaviour maxForks live (known owns)
  generalize (turn.step behaviour maxForks).1 = after at cases ⊢
  generalize (turn.step behaviour maxForks).2 = goesOn at cases
  cases cases with
  | exhausted found exhausted =>
      simp [next?, found, exhausted]
  | proceed runs =>
      rw [stepped runs]
      exact (Nat.add_assoc _ _ _).symm
  | limit runs _ =>
      rw [stepped runs]
      exact (Nat.add_assoc _ _ _).symm
  | fork runs _ =>
      rw [stepped runs]
      exact (Nat.add_assoc _ _ _).symm

theorem run_steps
    (behaviour : Behaviour κ)
    (maxForks budget : Nat)
    (owns : Owns turn.arena (turn.cast :: others)) :
    (turn.run behaviour maxForks budget).cast.steps + (turn.run behaviour maxForks budget).steps =
      turn.cast.steps + turn.steps + (turn.executed behaviour maxForks budget).length := by
  induction budget generalizing turn with
  | zero =>
      rfl
  | succ budget inductionHypothesis =>
      have counted := step_steps behaviour maxForks owns
      have keeps := keeps_step behaviour maxForks owns
      rcases stepped : turn.step behaviour maxForks with ⟨after, goesOn⟩
      rw [stepped] at counted keeps
      cases goesOn with
      | false =>
          rw [run_of_stop stepped, executed_of_stop stepped]
          exact counted
      | true =>
          rw [run_of_go stepped, executed_of_go stepped, inductionHypothesis keeps.owns, counted, List.length_append,
            Nat.add_assoc _ _ (List.length _)]

/-- A turn adds to the account of its cast what it has run. -/
theorem take_steps
    (behaviour : Behaviour κ)
    (maxSteps maxForks : Nat)
    (owns : Owns turn.arena (turn.cast :: others))
    (uncounted : turn.steps = 0) :
    (turn.take behaviour maxSteps maxForks).1.cast.steps =
      turn.cast.steps + (turn.taken behaviour maxSteps maxForks).length := by
  obtain ⟨context, live⟩ := active_live owns
  have announced := keeps_announced owns
  have keeps := announced.trans (keeps_wake announced.owns context)
  have sameCount : (turn.announced.wake context).1.cast.steps = turn.cast.steps ∧
      (turn.announced.wake context).1.steps = turn.steps := by
    have cases := wake_cases turn.announced context
    generalize (turn.announced.wake context).1 = woken at cases ⊢
    generalize (turn.announced.wake context).2 = waits at cases
    cases cases with
    | awake _ => exact ⟨rfl, rfl⟩
    | waits _ _ _ => exact ⟨rfl, rfl⟩
    | resumes _ _ _ => exact ⟨rfl, rfl⟩
  rcases woke : turn.announced.wake context with ⟨woken, waits⟩
  rw [woke] at keeps sameCount
  cases waits with
  | true =>
      rw [take_of_waits live woke, taken_of_waits live woke]
      exact sameCount.1
  | false =>
      have ran := run_steps behaviour maxForks maxSteps keeps.owns
      rw [sameCount.1, sameCount.2, uncounted] at ran
      rw [take_of_wakes live woke, taken_of_wakes live woke]
      exact ran

end Turn

namespace Scheduler

variable {round : Round κ} {cast : InFlight} {rest casts : List InFlight}

theorem visit_nextId
    (behaviour : Behaviour κ)
    (maxSteps maxForks : Nat)
    (owns : Owns round.arena (round.staying ++ cast :: rest)) :
    round.arena.nextId ≤ (visit behaviour maxSteps maxForks round cast).arena.nextId := by
  have grown := (Turn.grows_take behaviour maxSteps maxForks (Round.turn_owns owns)).nextId
  rcases taken : (round.turn cast).take behaviour maxSteps maxForks with ⟨turn, verdict⟩
  rw [taken] at grown
  cases verdict with
  | running =>
      rw [visit_of_running taken]
      exact grown
  | finished =>
      rw [visit_of_finished taken]
      exact grown

theorem visits_nextId
    (behaviour : Behaviour κ)
    (maxSteps maxForks : Nat)
    (owns : Owns round.arena (round.staying ++ (casts ++ rest))) :
    round.arena.nextId ≤ (casts.foldl (visit behaviour maxSteps maxForks) round).arena.nextId := by
  induction casts generalizing round with
  | nil =>
      exact Nat.le_refl _
  | cons first casts inductionHypothesis =>
      have next := inductionHypothesis (visit_owns behaviour maxSteps maxForks owns)
      exact Nat.le_trans (visit_nextId behaviour maxSteps maxForks owns) next

theorem tick_nextId
    {scheduler : Scheduler κ}
    (behaviour : Behaviour κ)
    (owns : Owns scheduler.arena scheduler.casts)
    (realm : Realm) :
    scheduler.arena.nextId ≤ (scheduler.tick behaviour realm).2.1.arena.nextId := by
  have opened :
      Owns (scheduler.opening realm).arena ((scheduler.opening realm).staying ++ (scheduler.casts ++ [])) := by
    simpa [opening] using owns
  exact visits_nextId behaviour scheduler.maxSteps scheduler.maxForks opened

end Scheduler

end Spellcast
