import Mathlib.Algebra.BigOperators.Group.List.Basic
import Mathlib.Algebra.Group.Prod
import Spellcast.Proofs.Idle
import Spellcast.Proofs.Standard.Contexts

/-!
# Driving standard casts needs no patience

A loop that drives a scheduler until nothing is in flight loses patience with ticks that do not bring it nearer to that.
With standard casts there is no such tick: a cast uses up a fork, or some instructions, or a tick of its wait, and only
together with a fork it gets something new to run or to wait for. So the loop sees every cast to its end, even if it has
no patience at all.
-/

namespace Spellcast

variable {κ : Type} {behaviour : Behaviour κ} {embed : Glyph → κ} {maxSteps maxForks : Nat} {others : List InFlight}

def Context.stay (context : Context κ) : Nat :=
  (context.suspension.map fun suspension => suspension.remaining.toNat).getD 0

/-- How much a context has left to do before it forks: a turn, its remaining instructions and its wait. -/
def Context.work (context : Context κ) : Nat := 1 + (context.program.length - context.counter) + context.stay

theorem InFlight.left_eq
    (maxForks : Nat)
    (cast : InFlight)
    (context : Context κ) :
    cast.left maxForks context =
      (maxForks - cast.forks, context.program.length - context.counter, context.stay) := by
  unfold InFlight.left Context.stay
  cases context.suspension with
  | none => rfl
  | some suspension => rfl

/-- A glyph that lets the run go on leaves the run itself alone. -/
theorem Glyph.sameRun_of_proceed
    (glyph : Glyph)
    (context : Context κ)
    (realm : Realm)
    (proceeds : (glyph.cast context realm).1 = .proceed) :
    context.SameRun (glyph.cast context realm).2.1 := by
  cases glyph with
  | delay ticks =>
      by_cases atEnd : context.program.length ≤ context.counter
      · rw [cast_delay_of_end atEnd]
        exact ⟨rfl, rfl, rfl, rfl, rfl⟩
      · rw [cast_delay_of_rest (Nat.not_le.mp atEnd)] at proceeds
        contradiction
  | jump _ | mark _ | ward | echo _ _ => exact ⟨rfl, rfl, rfl, rfl, rfl⟩

namespace Scheduler

theorem nearer_wellFounded : WellFounded Nearer := by
  have lexical {first second : Nat × Nat} (nearer : Nearer first second) :
      Prod.Lex (· < ·) (· < ·) first second := Prod.lex_def.mpr nearer
  exact Subrelation.wf lexical (Prod.lex Nat.lt_wfRel Nat.lt_wfRel).wf

theorem Nearer.add
    {first second third fourth : Nat × Nat}
    (nearer : Nearer first second)
    (further : Nearer third fourth) :
    Nearer (first + third) (second + fourth) := by
  simp only [Nearer, Prod.fst_add, Prod.snd_add] at nearer further ⊢
  omega

/-- If some things are dropped and all others come nearer, then they come nearer on the whole. -/
theorem nearer_sum
    {load load' : InFlight → Nat × Nat}
    {before after : List InFlight}
    (kept : (after.map (·.id)).Sublist (before.map (·.id)))
    (busy : ∀ cast ∈ before, Nearer 0 (load cast))
    (nearer : ∀ cast ∈ before, ∀ later ∈ after, later.id = cast.id → Nearer (load' later) (load cast)) :
    (before = [] ∧ after = []) ∨ Nearer (after.map load').sum (before.map load).sum := by
  induction before generalizing after with
  | nil =>
      exact .inl ⟨rfl, List.map_eq_nil_iff.mp (List.sublist_nil.mp kept)⟩
  | cons first before inductionHypothesis =>
      right
      have restBusy := fun cast member => busy cast (List.mem_cons_of_mem _ member)
      rw [List.map_cons, List.sum_cons]
      rcases List.sublist_cons_iff.mp kept with dropped | ⟨ids, isMap, rest⟩
      · have own := busy first List.mem_cons_self
        rcases inductionHypothesis dropped restBusy
          (fun cast member => nearer cast (List.mem_cons_of_mem _ member)) with ⟨rfl, rfl⟩ | others
        · exact own
        · have both := own.add others
          rwa [zero_add] at both
      · obtain ⟨later, after, rfl, sameId, rfl⟩ := List.map_eq_cons_iff.mp isMap
        have own := nearer first List.mem_cons_self later List.mem_cons_self sameId
        rw [List.map_cons, List.sum_cons]
        rcases inductionHypothesis rest restBusy (fun cast member other otherMember =>
          nearer cast (List.mem_cons_of_mem _ member) other (List.mem_cons_of_mem _ otherMember)) with
          ⟨rfl, rfl⟩ | others
        · simpa using own
        · exact own.add others

end Scheduler

namespace Turn

variable {turn after : Turn κ} {context later : Context κ} {forks stay : Nat}

/-- The cast has forked since it had so many forks, or its active context is standard and waits no longer than it did,
unless it is canceled. -/
inductive Paced (embed : Glyph → κ) (maxForks forks stay : Nat) (turn : Turn κ) : Prop
  | forked :
      forks < maxForks →
      forks < turn.cast.forks →
      Paced embed maxForks forks stay turn
  | same {context : Context κ} :
      turn.cast.forks = forks →
      turn.arena.get? turn.cast.active = some context →
      context.Standard embed →
      context.canceled = true ∨ context.stay ≤ stay →
      Paced embed maxForks forks stay turn

theorem Paced.of_same
    (paced : turn.Paced embed maxForks forks stay)
    (sameForks : after.cast.forks = turn.cast.forks)
    (sameActive : after.cast.active = turn.cast.active)
    (sameArena : after.arena = turn.arena) :
    after.Paced embed maxForks forks stay := by
  cases paced with
  | forked granted more =>
      exact .forked granted (sameForks ▸ more)
  | same isForks live standard calm =>
      refine .same (sameForks.trans isForks) ?_ standard calm
      rw [sameArena, sameActive]
      exact live

theorem Paced.wake
    (paced : turn.Paced embed maxForks forks stay)
    (live : turn.arena.get? turn.cast.active = some context) :
    (turn.wake context).1.Paced embed maxForks forks stay := by
  have cases := wake_cases turn context
  generalize (turn.wake context).1 = woken at cases ⊢
  generalize (turn.wake context).2 = waits at cases
  cases paced with
  | forked granted more =>
      cases cases with
      | awake _ => exact .forked granted more
      | waits _ _ _ => exact .forked granted more
      | resumes _ _ _ => exact .forked granted more
  | @same own sameForks ownLive standard calm =>
      obtain rfl : own = context := Option.some.inj (ownLive.symm.trans live)
      cases cases with
      | awake _ =>
          exact .same sameForks live standard calm
      | @waits suspension running suspended _ =>
          have still : own.stay ≤ stay := calm.resolve_left (by simp [running])
          refine .same sameForks (Arena.get?_set_self live) standard (.inr ?_)
          simp only [Context.stay, suspended, Option.map_some, Option.getD_some] at still ⊢
          omega
      | resumes _ _ _ =>
          exact .same sameForks (Arena.get?_set_self live) standard (.inr (Nat.zero_le _))

theorem Paced.step
    (carries : behaviour.Carries embed)
    (owns : Owns turn.arena (turn.cast :: others))
    (paced : turn.Paced embed maxForks forks stay) :
    (turn.step behaviour maxForks).1.Paced embed maxForks forks stay := by
  obtain ⟨context, live⟩ := active_live owns
  have cases := step_cases behaviour maxForks live (known owns)
  generalize (turn.step behaviour maxForks).1 = after at cases ⊢
  generalize (turn.step behaviour maxForks).2 = goesOn at cases
  cases paced with
  | forked granted more =>
      cases cases with
      | exhausted _ _ => exact .forked granted more
      | proceed _ => exact .forked granted more
      | limit _ _ => exact .forked granted more
      | fork _ _ => exact .forked granted (Nat.lt_succ_of_lt more)
  | @same own sameForks ownLive standard calm =>
      obtain rfl : own = context := Option.some.inj (ownLive.symm.trans live)
      have ran {before after : Context κ} {instruction : Instruction κ} {resolution : Resolution} {realm : Realm}
          (runs : turn.Runs behaviour before instruction resolution after realm) :
          after.Standard embed ∧ (resolution = .proceed → after.stay ≤ stay) := by
        obtain rfl : before = own := Option.some.inj (runs.live.symm.trans live)
        have running : before.canceled = false := (Context.hasNext_iff.mp runs.next).1
        obtain ⟨glyph, code⟩ := (standard.instruction runs.found).exists_code
        have answer := runs.cast
        rw [code, carries.cast] at answer
        have program := glyph.cast_program before.stepped (turn.castingRealm behaviour instruction)
        have pace := glyph.sameRun_of_proceed before.stepped (turn.castingRealm behaviour instruction)
        rw [answer] at program pace
        refine ⟨?_, ?_⟩
        · rw [Context.Standard, program]
          exact standard
        · intro proceeds
          rw [Context.stay, (pace proceeds).suspension]
          exact calm.resolve_left (by simp [running])
      cases cases with
      | exhausted _ _ =>
          exact .same sameForks live standard calm
      | proceed runs =>
          exact .same sameForks (ran_live live) (ran runs).1 (.inr ((ran runs).2 rfl))
      | limit runs _ =>
          exact .same sameForks (Arena.get?_set_self (ran_live live)) (ran runs).1 (.inl rfl)
      | fork _ below =>
          exact .forked (sameForks ▸ below) (sameForks ▸ Nat.lt_succ_self _)

theorem paced_lasting
    (carries : behaviour.Carries embed)
    (maxForks : Nat)
    (others : List InFlight)
    (forks stay : Nat) :
    Lasting behaviour maxForks others (Paced embed maxForks forks stay) where
  announced _ paced := paced.of_same rfl rfl rfl
  wake _ _ _ live paced := paced.wake live
  step _ owns paced := paced.step carries owns
  counted _ paced := paced.of_same rfl rfl rfl
  left _ paced := paced.of_same rfl rfl rfl

/-- A cast that goes on is not canceled. -/
theorem running_of_take
    (owns : Owns turn.arena (turn.cast :: others))
    (goesOn : turn.take behaviour maxSteps maxForks = (after, .running))
    (live : after.arena.get? after.cast.active = some later) :
    later.canceled = false := by
  obtain ⟨context, before⟩ := active_live owns
  have cases := wake_cases turn.announced context
  rcases woke : turn.announced.wake context with ⟨woken, waits⟩
  rw [woke] at cases
  cases waits with
  | true =>
      rw [take_of_waits before woke] at goesOn
      obtain ⟨rfl, -⟩ := Prod.mk.inj goesOn
      cases cases with
      | waits running _ _ =>
          have waiting := (Arena.get?_set_self before).symm.trans live
          rw [← Option.some.inj waiting]
          exact running
  | false =>
      rw [take_of_wakes before woke] at goesOn
      obtain ⟨rfl, running⟩ := Prod.mk.inj goesOn
      rw [Bool.eq_false_iff]
      intro canceled
      have finished : (woken.run behaviour maxForks maxSteps).verdict = .finished := verdict_of_canceled live canceled
      rw [finished] at running
      contradiction

/-- Every turn of a standard cast that goes on brings it nearer to its end. -/
theorem take_nearer
    (carries : behaviour.Carries embed)
    (positive : 0 < maxSteps)
    (owns : Owns turn.arena (turn.cast :: others))
    (live : turn.arena.get? turn.cast.active = some context)
    (standard : context.Standard embed)
    (goesOn : turn.take behaviour maxSteps maxForks = (after, .running)) :
    ∃ later, after.arena.get? after.cast.active = some later ∧
      Scheduler.Nearer (maxForks - after.cast.forks, later.work) (maxForks - turn.cast.forks, context.work) := by
  have ran := (acts_recounting (Context.Standard.preserves carries) maxForks others).take maxSteps owns
    ⟨fun _ nothing => absurd nothing List.not_mem_nil, active_of_live live standard⟩
  have onward : ∀ instruction ∈ turn.taken behaviour maxSteps maxForks,
      behaviour.Onward instruction.effect.code := by
    intro instruction member
    rw [← map_actsTaken] at member
    obtain ⟨act, actMember, rfl⟩ := List.mem_map.mp member
    obtain ⟨glyph, code⟩ := ((ran.1 act actMember).instruction (actsTaken_found act actMember)).exists_code
    rw [code]
    exact carries.onward glyph
  obtain ⟨later, laterLive, less⟩ := take_less positive owns live onward goesOn
  have paced := (paced_lasting carries maxForks others turn.cast.forks context.stay).take maxSteps owns
    (.same rfl live standard (.inr (Nat.le_refl _)))
  rw [goesOn] at paced
  refine ⟨later, laterLive, ?_⟩
  cases paced with
  | forked granted more =>
      left
      change maxForks - after.cast.forks < maxForks - turn.cast.forks
      change turn.cast.forks < after.cast.forks at more
      omega
  | @same own sameForks ownLive _ calm =>
      obtain rfl : own = later := Option.some.inj (ownLive.symm.trans laterLive)
      have running := running_of_take owns goesOn laterLive
      have still : own.stay ≤ context.stay := calm.resolve_left (by simp [running])
      rw [InFlight.left_eq, InFlight.left_eq, sameForks, Less, Prod.lex_def, Prod.lex_def] at less
      refine .inr ⟨congrArg (maxForks - ·) sameForks, ?_⟩
      simp only [Context.work]
      dsimp only at less
      omega

end Turn

namespace Scheduler

variable {scheduler : Scheduler κ} {cast : InFlight} {context : Context κ}

/-- What a cast in flight has left: forks, and work before the next one. -/
def load (scheduler : Scheduler κ) (cast : InFlight) : Nat × Nat :=
  (scheduler.maxForks - cast.forks, scheduler.workLeft cast)

theorem distance_eq (scheduler : Scheduler κ) :
    scheduler.distance = (scheduler.casts.map scheduler.load).sum := by
  have sums (casts : List InFlight) :
      ((casts.map fun cast => scheduler.maxForks - cast.forks).foldr (· + ·) 0,
        (casts.map scheduler.workLeft).foldr (· + ·) 0) = (casts.map scheduler.load).sum := by
    induction casts with
    | nil =>
        rfl
    | cons first casts inductionHypothesis =>
        rw [List.map_cons, List.map_cons, List.map_cons, List.sum_cons, ← inductionHypothesis]
        rfl
  exact sums scheduler.casts

theorem load_eq
    (live : scheduler.arena.get? cast.active = some context) :
    scheduler.load cast = (scheduler.maxForks - cast.forks, context.work) := by
  rw [load, workLeft, live]
  rfl

/-- A tick that brings the scheduler nearer to being idle uses up no patience. -/
theorem drive_of_nearer
    {patience : Nat}
    {realm after : Realm}
    {outcomes : List (Outcome κ)}
    {final : Scheduler κ}
    (busy : scheduler.isIdle = false)
    (nearer : Nearer (scheduler.tick behaviour realm).2.1.distance scheduler.distance)
    (driven : (scheduler.tick behaviour realm).2.1.drive behaviour patience (scheduler.tick behaviour realm).2.2 =
      (outcomes, final, after)) :
    scheduler.drive behaviour patience realm =
      ((scheduler.tick behaviour realm).1.completed ++ outcomes, final, after) := by
  have notIdle : ¬ scheduler.isIdle = true := by simp [busy]
  rw [drive, if_neg notIdle]
  simp only [if_pos nearer, driven]

end Scheduler

namespace History

variable {history : History κ}

/-- Every tick with standard casts in flight brings the scheduler nearer to being idle. -/
theorem tick_nearer
    (carries : behaviour.Carries embed)
    (positive : 0 < history.scheduler.maxSteps)
    (owns : history.Owns)
    (accounts : history.Accounts)
    (standard : history.Active (Context.Standard embed))
    (busy : history.scheduler.isIdle = false) :
    Scheduler.Nearer (history.tick behaviour).scheduler.distance history.scheduler.distance := by
  have kept : ((history.tick behaviour).scheduler.casts.map (·.id)).Sublist
      (history.scheduler.casts.map (·.id)) := tick_castIds owns
  rw [Scheduler.distance_eq, Scheduler.distance_eq]
  refine (Scheduler.nearer_sum kept ?_ ?_).resolve_left ?_
  · intro cast member
    obtain ⟨context, live⟩ := owns.active_live member
    rw [Scheduler.load_eq live, Context.work]
    simp only [Scheduler.Nearer, Prod.fst_zero, Prod.snd_zero]
    omega
  · intro cast member later laterMember sameId
    obtain ⟨before, beforeMember, beforeId, turn, after, turned, taken, rfl⟩ :=
      Scheduler.exists_turned_of_mem owns accounts.castIds_nodup laterMember
    obtain rfl : before = cast :=
      List.inj_on_of_nodup_map accounts.castIds_nodup beforeMember member (beforeId.trans sameId)
    obtain ⟨context, live⟩ := owns.active_live member
    obtain ⟨others, turnOwns⟩ := turned.owns
    obtain ⟨final, finalLive, nearer⟩ := Turn.take_nearer carries positive turnOwns
      (turned_live turned owns member live) (standard _ member _ live) taken
    have keeps := Turn.keeps_take behaviour history.scheduler.maxSteps history.scheduler.maxForks turnOwns
    rw [taken] at keeps
    have active := (keeps.owns.coherent _ List.mem_cons_self).active_mem
    have stillLive := ((turned.running after taken).2 _ active).trans finalLive
    rw [turned.started] at nearer
    rw [Scheduler.load_eq live]
    exact (Scheduler.load_eq stillLive).symm ▸ nearer
  · rintro ⟨nobody, -⟩
    rw [Scheduler.isIdle, nobody] at busy
    contradiction

theorem afterTicks_reached
    {rules : Rules κ}
    (allowed : rules.calls .tick)
    (history : History κ)
    (ticks : Nat) :
    Reaches rules behaviour history (history.afterTicks behaviour ticks) := by
  induction ticks with
  | zero =>
      exact .origin
  | succ ticks inductionHypothesis =>
      rw [afterTicks, Function.iterate_succ_apply']
      exact inductionHypothesis.call .tick allowed

theorem afterTicks_registered
    (behaviour : Behaviour κ)
    (ticks : Nat)
    (history : History κ) :
    (history.afterTicks behaviour ticks).registered = history.registered := by
  induction ticks generalizing history with
  | zero => rfl
  | succ ticks inductionHypothesis => exact inductionHypothesis (history.tick behaviour)

/-- Driving a scheduler with standard casts ends when nothing is in flight any more, and answers all outcomes that have
been reported by then. -/
theorem exists_driven
    (carries : behaviour.Carries embed)
    (positive : 0 < history.scheduler.maxSteps)
    (owns : history.Owns)
    (accounts : history.Accounts)
    (standard : history.Active (Context.Standard embed)) :
    ∃ ticks outcomes,
      history.scheduler.drive behaviour 0 history.realm =
        (outcomes, (history.afterTicks behaviour ticks).scheduler, (history.afterTicks behaviour ticks).realm) ∧
      (history.afterTicks behaviour ticks).completed = history.completed ++ outcomes ∧
      (history.afterTicks behaviour ticks).scheduler.isIdle = true := by
  -- on the distance, which is what the loop itself goes by
  generalize isDistance : history.scheduler.distance = distance
  induction distance using Scheduler.nearer_wellFounded.induction generalizing history with
  | _ distance inductionHypothesis =>
  cases idle : history.scheduler.isIdle with
  | true =>
      refine ⟨0, [], ?_, (List.append_nil _).symm, idle⟩
      rw [Scheduler.drive, if_pos idle]
      rfl
  | false =>
      have nearer := tick_nearer carries positive owns accounts standard idle
      have next : (history.tick behaviour).Owns := Scheduler.tick_owns owns history.realm
      have stillStandard := standard.tick (Context.Standard.preserves carries) owns accounts
      have stillPositive : 0 < (history.tick behaviour).scheduler.maxSteps := positive
      obtain ⟨ticks, outcomes, driven, completed, final⟩ := inductionHypothesis _ (isDistance ▸ nearer) stillPositive
        next (accounts.tick owns) stillStandard rfl
      refine ⟨ticks + 1, (history.scheduler.tick behaviour history.realm).1.completed ++ outcomes, ?_, ?_, final⟩
      · exact Scheduler.drive_of_nearer idle nearer driven
      · rw [← List.append_assoc, ← completed_tick]
        exact completed

end History

end Spellcast
