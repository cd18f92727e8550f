import Spellcast.Proofs.Focus

/-!
# What runs, and in which context

An instruction answers to the context in which it runs. An act is the two together, and `Turn.acts` are the acts of a
turn, by the recursion of the turn itself: their instructions are those that the turn executes. A property of the acts
so far and of the turn as they have left it is carried through a whole turn by `Recounting`.
-/

namespace Spellcast

variable {κ : Type} {behaviour : Behaviour κ} {maxSteps maxForks : Nat} {others : List InFlight}

/-- An instruction that runs, and the context that runs it as it stands before. -/
structure Act (κ : Type) where
  context : Context κ
  instruction : Instruction κ

/-- The instruction is the one that the context has come to. -/
def Act.Found (act : Act κ) : Prop :=
  act.context.program.get? act.context.counter = some act.instruction

namespace Turn

variable {turn woken : Turn κ} {context : Context κ} {instruction : Instruction κ}

/-- The act of the next step, if it runs an instruction. -/
def act? (turn : Turn κ) : Option (Act κ) :=
  (turn.arena.get? turn.cast.active).bind fun context =>
    if context.hasNext then (context.program.get? context.counter).map (Act.mk context) else none

def acts (behaviour : Behaviour κ) (maxForks : Nat) : Nat → Turn κ → List (Act κ)
  | 0, _ => []
  | budget + 1, turn =>
    match turn.step behaviour maxForks with
    | (after, true) => turn.act?.toList ++ acts behaviour maxForks budget after
    | (_, false) => turn.act?.toList

def actsTaken (behaviour : Behaviour κ) (maxSteps maxForks : Nat) (turn : Turn κ) : List (Act κ) :=
  match turn.arena.get? turn.cast.active with
  | none => []
  | some context =>
    match turn.announced.wake context with
    | (_, true) => []
    | (woken, false) => woken.acts behaviour maxForks maxSteps

theorem act?_eq
    (live : turn.arena.get? turn.cast.active = some context)
    (next : context.hasNext = true)
    (found : context.program.get? context.counter = some instruction) :
    turn.act? = some ⟨context, instruction⟩ := by
  simp [act?, live, next, found]

theorem act?_of_exhausted
    (live : turn.arena.get? turn.cast.active = some context)
    (exhausted : context.hasNext = false) :
    turn.act? = none := by
  simp [act?, live, exhausted]

theorem live_of_act?
    {act : Act κ}
    (acts : turn.act? = some act) :
    turn.arena.get? turn.cast.active = some act.context := by
  obtain ⟨context, live, answered⟩ := Option.bind_eq_some_iff.mp acts
  split at answered
  · obtain ⟨instruction, -, rfl⟩ := Option.map_eq_some_iff.mp answered
    exact live
  · exact absurd answered (by simp)

theorem Runs.act?
    {resolution : Resolution}
    {after : Context κ}
    {realm : Realm}
    (runs : turn.Runs behaviour context instruction resolution after realm) :
    turn.act? = some ⟨context, instruction⟩ :=
  act?_eq runs.live runs.next runs.found

theorem acts_of_stop
    {budget : Nat}
    {after : Turn κ}
    (stepped : turn.step behaviour maxForks = (after, false)) :
    turn.acts behaviour maxForks (budget + 1) = turn.act?.toList := by
  simp [acts, stepped]

theorem acts_of_go
    {budget : Nat}
    {after : Turn κ}
    (stepped : turn.step behaviour maxForks = (after, true)) :
    turn.acts behaviour maxForks (budget + 1) = turn.act?.toList ++ after.acts behaviour maxForks budget := by
  simp [acts, stepped]

theorem actsTaken_of_waits
    (live : turn.arena.get? turn.cast.active = some context)
    (woke : turn.announced.wake context = (woken, true)) :
    turn.actsTaken behaviour maxSteps maxForks = [] := by
  simp [actsTaken, live, woke]

theorem actsTaken_of_wakes
    (live : turn.arena.get? turn.cast.active = some context)
    (woke : turn.announced.wake context = (woken, false)) :
    turn.actsTaken behaviour maxSteps maxForks = woken.acts behaviour maxForks maxSteps := by
  simp [actsTaken, live, woke]

theorem map_act? (turn : Turn κ) : turn.act?.map Act.instruction = turn.next? := by
  unfold act? next?
  cases turn.arena.get? turn.cast.active with
  | none =>
      rfl
  | some context =>
      cases next : context.hasNext with
      | false =>
          simp [next]
      | true =>
          simp [next, Function.comp_def]

theorem map_acts
    (behaviour : Behaviour κ)
    (maxForks budget : Nat)
    (turn : Turn κ) :
    (turn.acts behaviour maxForks budget).map Act.instruction = turn.executed behaviour maxForks budget := by
  have first (turn : Turn κ) : turn.act?.toList.map Act.instruction = turn.next?.toList := by
    rw [← map_act?, Option.toList_map]
  induction budget generalizing turn with
  | zero =>
      rfl
  | succ budget inductionHypothesis =>
      rcases stepped : turn.step behaviour maxForks with ⟨after, goesOn⟩
      cases goesOn with
      | false =>
          rw [acts_of_stop stepped, executed_of_stop stepped, first]
      | true =>
          rw [acts_of_go stepped, executed_of_go stepped, List.map_append, first, inductionHypothesis]

theorem map_actsTaken
    (behaviour : Behaviour κ)
    (maxSteps maxForks : Nat)
    (turn : Turn κ) :
    (turn.actsTaken behaviour maxSteps maxForks).map Act.instruction =
      turn.taken behaviour maxSteps maxForks := by
  unfold actsTaken taken
  cases turn.arena.get? turn.cast.active with
  | none =>
      rfl
  | some context =>
      rcases woke : turn.announced.wake context with ⟨woken, waits⟩
      cases waits with
      | true =>
          simp [woke]
      | false =>
          simp [woke, map_acts]

theorem found_of_act?
    {act : Act κ}
    (acts : turn.act? = some act) :
    act.Found := by
  obtain ⟨context, -, answered⟩ := Option.bind_eq_some_iff.mp acts
  split at answered
  · obtain ⟨instruction, found, rfl⟩ := Option.map_eq_some_iff.mp answered
    exact found
  · exact absurd answered (by simp)

theorem acts_found
    {budget : Nat} :
    ∀ act ∈ turn.acts behaviour maxForks budget, act.Found := by
  induction budget generalizing turn with
  | zero =>
      exact fun _ member => absurd member List.not_mem_nil
  | succ budget inductionHypothesis =>
      intro act member
      rcases stepped : turn.step behaviour maxForks with ⟨after, goesOn⟩
      cases goesOn with
      | false =>
          rw [acts_of_stop stepped] at member
          exact found_of_act? (Option.mem_toList.mp member)
      | true =>
          rw [acts_of_go stepped] at member
          rcases List.mem_append.mp member with first | later
          · exact found_of_act? (Option.mem_toList.mp first)
          · exact inductionHypothesis act later

theorem actsTaken_found :
    ∀ act ∈ turn.actsTaken behaviour maxSteps maxForks, act.Found := by
  intro act member
  unfold actsTaken at member
  split at member
  · exact absurd member List.not_mem_nil
  · split at member
    · exact absurd member List.not_mem_nil
    · exact acts_found act member

/-- A property of the acts of a turn so far that holds during the whole turn if it holds at its start. -/
structure Recounting (behaviour : Behaviour κ) (maxForks : Nat) (others : List InFlight)
    (property : List (Act κ) → Turn κ → Prop) : Prop where
  announced : ∀ acts turn, property acts turn → property acts turn.announced
  wake : ∀ acts turn context, Owns turn.arena (turn.cast :: others) →
    turn.arena.get? turn.cast.active = some context → property acts turn → property acts (turn.wake context).1
  step : ∀ acts turn, Owns turn.arena (turn.cast :: others) → property acts turn →
    property (acts ++ turn.act?.toList) (turn.step behaviour maxForks).1
  counted : ∀ acts turn, property acts turn → property acts turn.counted
  left : ∀ acts turn, property acts turn → property acts turn.left

section Recounting

variable {property : List (Act κ) → Turn κ → Prop}

theorem Recounting.run
    (recounting : Recounting behaviour maxForks others property)
    (budget : Nat)
    {earlier : List (Act κ)}
    (owns : Owns turn.arena (turn.cast :: others))
    (holds : property earlier turn) :
    property (earlier ++ turn.acts behaviour maxForks budget) (turn.run behaviour maxForks budget) := by
  induction budget generalizing turn earlier with
  | zero =>
      rw [acts, List.append_nil]
      exact holds
  | succ budget inductionHypothesis =>
      have keeps : Keeps others turn (turn.step behaviour maxForks).1 := keeps_step behaviour maxForks owns
      have next := recounting.step earlier turn owns holds
      rcases stepped : turn.step behaviour maxForks with ⟨after, goesOn⟩
      rw [stepped] at keeps next
      cases goesOn with
      | false =>
          rw [run_of_stop stepped, acts_of_stop stepped]
          exact next
      | true =>
          rw [run_of_go stepped, acts_of_go stepped, ← List.append_assoc]
          exact inductionHypothesis keeps.owns next

theorem Recounting.take
    (recounting : Recounting behaviour maxForks others property)
    (maxSteps : Nat)
    (owns : Owns turn.arena (turn.cast :: others))
    (holds : property [] turn) :
    property (turn.actsTaken behaviour maxSteps maxForks) (turn.take behaviour maxSteps maxForks).1 := by
  obtain ⟨context, live⟩ := active_live owns
  have announced := keeps_announced owns
  have keeps := announced.trans (keeps_wake announced.owns context)
  have woken : property [] (turn.announced.wake context).1 :=
    recounting.wake _ _ _ announced.owns live (recounting.announced _ _ holds)
  rcases woke : turn.announced.wake context with ⟨next, waits⟩
  rw [woke] at keeps woken
  cases waits with
  | true =>
      rw [take_of_waits live woke, actsTaken_of_waits live woke]
      exact recounting.left _ _ woken
  | false =>
      rw [take_of_wakes live woke, actsTaken_of_wakes live woke]
      exact recounting.left _ _ (recounting.counted _ _ (recounting.run maxSteps keeps.owns woken))

end Recounting

end Turn

namespace Scheduler

variable {scheduler : Scheduler κ} {realm : Realm}

/-- The acts of a tick, each with the number of its cast. -/
def acts (behaviour : Behaviour κ) (scheduler : Scheduler κ) (realm : Realm) : List (CastId × Act κ) :=
  scheduler.traced behaviour realm fun turn => turn.actsTaken behaviour scheduler.maxSteps scheduler.maxForks

/-- The instructions of the acts of a tick are those that the tick executes. -/
theorem map_acts
    (behaviour : Behaviour κ)
    (scheduler : Scheduler κ)
    (realm : Realm) :
    (scheduler.acts behaviour realm).map (fun entry => (entry.1, entry.2.instruction)) =
      scheduler.executed behaviour realm := by
  rw [executed_eq_traced]
  unfold acts traced
  generalize scheduler.opening realm = round
  induction scheduler.casts generalizing round with
  | nil =>
      rfl
  | cons first casts inductionHypothesis =>
      rw [tracedFrom, tracedFrom, List.map_append, inductionHypothesis, ← Turn.map_actsTaken, List.map_map,
        List.map_map]
      rfl

theorem acts_found :
    ∀ entry ∈ scheduler.acts behaviour realm, entry.2.Found := by
  intro entry member
  obtain ⟨earlier, cast, later, -, -, ran⟩ := exists_split_of_mem_traced member
  exact Turn.actsTaken_found entry.2 ran

end Scheduler

end Spellcast
