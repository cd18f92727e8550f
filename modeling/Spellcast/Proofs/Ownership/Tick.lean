import Spellcast.Proofs.Ownership

/-!
# Ownership during a tick

A turn keeps the ownership of all contexts and leaves the contexts of every other cast as they are; so does the
visit of a round, whether the cast stays in flight or is completed. Calls therefore keep ownership, and in every
history the casts in flight own exactly the contexts in the arena.
-/

namespace Spellcast

variable {κ : Type} {behaviour : Behaviour κ} {maxSteps maxForks : Nat} {others : List InFlight}

namespace Turn

variable {before middle after turn : Turn κ} {context held : Context κ} {realm : Realm}

/-- What a turn does to the casts: the contexts of all casts are still divided among them, and nothing has happened
to the contexts of the others. -/
structure Keeps (others : List InFlight) (before after : Turn κ) : Prop where
  owns : Owns after.arena (after.cast :: others)
  apart : ∀ other ∈ others, ∀ id ∈ other.contexts, after.arena.get? id = before.arena.get? id
  sameId : after.cast.id = before.cast.id
  sameTicks : after.cast.ticks = before.cast.ticks

theorem Keeps.refl
    (owns : Owns turn.arena (turn.cast :: others)) :
    Keeps others turn turn :=
  ⟨owns, fun _ _ _ _ => rfl, rfl, rfl⟩

theorem Keeps.trans
    (earlier : Keeps others before middle)
    (later : Keeps others middle after) :
    Keeps others before after where
  owns := later.owns
  apart other member id listed := (later.apart other member id listed).trans (earlier.apart other member id listed)
  sameId := later.sameId.trans earlier.sameId
  sameTicks := later.sameTicks.trans earlier.sameTicks

theorem known
    (owns : Owns turn.arena (turn.cast :: others)) :
    turn.cast.active ≠ turn.arena.nextId :=
  owns.ne_nextId List.mem_cons_self (owns.coherent _ List.mem_cons_self).active_mem

theorem active_live
    (owns : Owns turn.arena (turn.cast :: others)) :
    ∃ context, turn.arena.get? turn.cast.active = some context :=
  owns.active_live List.mem_cons_self

theorem ne_active
    {other : InFlight}
    {id : ContextId}
    (owns : Owns turn.arena (turn.cast :: others))
    (member : other ∈ others)
    (listed : id ∈ other.contexts) :
    id ≠ turn.cast.active := by
  intro same
  have active := (owns.coherent _ List.mem_cons_self).active_mem
  exact owns.disjoint member listed (same ▸ active)

theorem keeps_set
    (owns : Owns before.arena (before.cast :: others))
    (context : Context κ)
    (cast : after.cast = before.cast)
    (arena : after.arena = before.arena.set before.cast.active context) :
    Keeps others before after where
  owns := by
    rw [cast, arena]
    exact owns.set _ _
  apart other member id listed := by
    rw [arena]
    exact Arena.get?_set_of_ne (ne_active owns member listed)
  sameId := by rw [cast]
  sameTicks := by rw [cast]

theorem keeps_movedOn
    (owns : Owns turn.arena (turn.cast :: others))
    (context : Context κ) :
    Keeps others turn (turn.movedOn behaviour context) where
  owns := (owns.insert_moved _).set _ _
  apart other member id listed := by
    have older : id ≠ turn.arena.nextId :=
      owns.ne_nextId (List.mem_cons_of_mem _ member) listed
    exact (Arena.get?_set_of_ne (ne_active owns member listed)).trans (Arena.get?_insert_of_ne older)
  sameId := rfl
  sameTicks := rfl

theorem keeps_step
    (behaviour : Behaviour κ)
    (maxForks : Nat)
    (owns : Owns turn.arena (turn.cast :: others)) :
    Keeps others turn (turn.step behaviour maxForks).1 := by
  obtain ⟨context, live⟩ := active_live owns
  have cases := step_cases behaviour maxForks live (known owns)
  generalize (turn.step behaviour maxForks).1 = after at cases ⊢
  generalize (turn.step behaviour maxForks).2 = goesOn at cases
  cases cases with
  | exhausted _ _ =>
      exact .refl owns
  | proceed runs =>
      exact keeps_set owns _ rfl rfl
  | @limit _ next _ realm runs _ =>
      have ran : Keeps others turn (turn.ran next realm) := keeps_set owns next rfl rfl
      exact ran.trans (keeps_set ran.owns _ rfl rfl)
  | @fork _ next _ realm runs _ =>
      have ran : Keeps others turn (turn.ran next realm) := keeps_set owns next rfl rfl
      exact ran.trans (keeps_movedOn ran.owns next)

theorem keeps_run
    (behaviour : Behaviour κ)
    (maxForks : Nat)
    (budget : Nat)
    (owns : Owns turn.arena (turn.cast :: others)) :
    Keeps others turn (turn.run behaviour maxForks budget) := by
  induction budget generalizing turn with
  | zero =>
      exact .refl owns
  | succ budget inductionHypothesis =>
      have first : Keeps others turn (turn.step behaviour maxForks).1 := keeps_step behaviour maxForks owns
      rcases stepped : turn.step behaviour maxForks with ⟨after, goesOn⟩
      rw [stepped] at first
      cases goesOn with
      | false =>
          rw [run_of_stop stepped]
          exact first
      | true =>
          rw [run_of_go stepped]
          exact first.trans (inductionHypothesis first.owns)

theorem keeps_wake
    (owns : Owns turn.arena (turn.cast :: others))
    (context : Context κ) :
    Keeps others turn (turn.wake context).1 := by
  have cases := wake_cases turn context
  generalize (turn.wake context).1 = woken at cases ⊢
  generalize (turn.wake context).2 = waits at cases
  cases cases with
  | awake _ =>
      exact .refl owns
  | waits _ _ _ =>
      exact keeps_set owns _ rfl rfl
  | resumes _ _ _ =>
      exact keeps_set owns _ rfl rfl

theorem keeps_left
    (owns : Owns turn.arena (turn.cast :: others)) :
    Keeps others turn turn.left :=
  ⟨owns, fun _ _ _ _ => rfl, rfl, rfl⟩

theorem keeps_counted
    (owns : Owns turn.arena (turn.cast :: others)) :
    Keeps others turn turn.counted :=
  ⟨owns.recount rfl rfl rfl, fun _ _ _ _ => rfl, rfl, rfl⟩

theorem keeps_announced
    (owns : Owns turn.arena (turn.cast :: others)) :
    Keeps others turn turn.announced :=
  ⟨owns, fun _ _ _ _ => rfl, rfl, rfl⟩

theorem keeps_take
    (behaviour : Behaviour κ)
    (maxSteps maxForks : Nat)
    (owns : Owns turn.arena (turn.cast :: others)) :
    Keeps others turn (turn.take behaviour maxSteps maxForks).1 := by
  obtain ⟨context, live⟩ := active_live owns
  have announced := keeps_announced owns
  have woken := announced.trans (keeps_wake announced.owns context)
  rcases woke : turn.announced.wake context with ⟨next, waits⟩
  rw [woke] at woken
  cases waits with
  | true =>
      rw [take_of_waits live woke]
      exact woken.trans (keeps_left woken.owns)
  | false =>
      rw [take_of_wakes live woke]
      have ran := woken.trans (keeps_run behaviour maxForks maxSteps woken.owns)
      have counted := ran.trans (keeps_counted ran.owns)
      exact counted.trans (keeps_left counted.owns)

/-- A property that holds during a whole turn if it holds at its start. -/
structure Lasting (behaviour : Behaviour κ) (maxForks : Nat) (others : List InFlight) (property : Turn κ → Prop) :
    Prop where
  announced : ∀ turn, property turn → property turn.announced
  wake : ∀ turn context, Owns turn.arena (turn.cast :: others) → turn.arena.get? turn.cast.active = some context →
    property turn → property (turn.wake context).1
  step : ∀ turn, Owns turn.arena (turn.cast :: others) → property turn → property (turn.step behaviour maxForks).1
  counted : ∀ turn, property turn → property turn.counted
  left : ∀ turn, property turn → property turn.left

section Lasting

variable {property : Turn κ → Prop}

theorem Lasting.run
    (lasting : Lasting behaviour maxForks others property)
    (budget : Nat)
    (owns : Owns turn.arena (turn.cast :: others))
    (holds : property turn) :
    property (turn.run behaviour maxForks budget) := by
  induction budget generalizing turn with
  | zero =>
      exact holds
  | succ budget inductionHypothesis =>
      have keeps : Keeps others turn (turn.step behaviour maxForks).1 := keeps_step behaviour maxForks owns
      have next : property (turn.step behaviour maxForks).1 := lasting.step turn owns holds
      rcases stepped : turn.step behaviour maxForks with ⟨after, goesOn⟩
      rw [stepped] at keeps next
      cases goesOn with
      | false =>
          rw [run_of_stop stepped]
          exact next
      | true =>
          rw [run_of_go stepped]
          exact inductionHypothesis keeps.owns next

theorem Lasting.take
    (lasting : Lasting behaviour maxForks others property)
    (maxSteps : Nat)
    (owns : Owns turn.arena (turn.cast :: others))
    (holds : property turn) :
    property (turn.take behaviour maxSteps maxForks).1 := by
  obtain ⟨context, live⟩ := active_live owns
  have announced := keeps_announced owns
  have keeps := announced.trans (keeps_wake announced.owns context)
  have woken : property (turn.announced.wake context).1 :=
    lasting.wake _ _ announced.owns live (lasting.announced _ holds)
  rcases woke : turn.announced.wake context with ⟨next, waits⟩
  rw [woke] at keeps woken
  cases waits with
  | true =>
      rw [take_of_waits live woke]
      exact lasting.left _ woken
  | false =>
      rw [take_of_wakes live woke]
      exact lasting.left _ (lasting.counted _ (lasting.run maxSteps keeps.owns woken))

end Lasting

end Turn

namespace Scheduler

variable {round : Round κ} {cast : InFlight} {rest : List InFlight}

theorem visit_of_running
    {turn : Turn κ}
    (taken : (round.turn cast).take behaviour maxSteps maxForks = (turn, .running)) :
    visit behaviour maxSteps maxForks round cast =
      { round with
        staying := round.staying ++ [turn.cast], arena := turn.arena, realm := turn.realm
        steps := round.steps + turn.steps, forks := round.forks + turn.forks } := by
  rw [Round.turn] at taken
  simp only [visit, taken]

theorem visit_of_finished
    {turn : Turn κ}
    (taken : (round.turn cast).take behaviour maxSteps maxForks = (turn, .finished)) :
    visit behaviour maxSteps maxForks round cast =
      let (outcome, arena, realm) := complete turn.cast turn.arena turn.realm
      { round with
        arena, realm, completed := round.completed ++ [outcome]
        steps := round.steps + turn.steps, forks := round.forks + turn.forks } := by
  rw [Round.turn] at taken
  simp only [visit, taken]

/-- Before the turn of a cast, all casts own their contexts: those that stay, this one, and those still to come. -/
theorem Round.turn_owns
    (owns : Owns round.arena (round.staying ++ cast :: rest)) :
    Owns (round.turn cast).arena ((round.turn cast).cast :: (round.staying ++ rest)) := by
  have first : Owns round.arena (cast :: (round.staying ++ rest)) := owns.reorder List.perm_middle
  exact first.recount rfl rfl rfl

theorem visit_owns
    (behaviour : Behaviour κ)
    (maxSteps maxForks : Nat)
    (owns : Owns round.arena (round.staying ++ cast :: rest)) :
    Owns (visit behaviour maxSteps maxForks round cast).arena
      ((visit behaviour maxSteps maxForks round cast).staying ++ rest) := by
  have keeps := Turn.keeps_take behaviour maxSteps maxForks (Round.turn_owns owns)
  rcases taken : (round.turn cast).take behaviour maxSteps maxForks with ⟨turn, verdict⟩
  rw [taken] at keeps
  cases verdict with
  | running =>
      rw [visit_of_running taken]
      apply keeps.owns.reorder
      simpa using List.perm_middle.symm
  | finished =>
      rw [visit_of_finished taken]
      exact keeps.owns.release

/-- A visit leaves the contexts of all other casts as they are, also when it completes its cast. -/
theorem visit_apart
    (behaviour : Behaviour κ)
    (maxSteps maxForks : Nat)
    (owns : Owns round.arena (round.staying ++ cast :: rest)) :
    ∀ other ∈ round.staying ++ rest, ∀ id ∈ other.contexts,
      (visit behaviour maxSteps maxForks round cast).arena.get? id = round.arena.get? id := by
  intro other member id listed
  have keeps := Turn.keeps_take behaviour maxSteps maxForks (Round.turn_owns owns)
  rcases taken : (round.turn cast).take behaviour maxSteps maxForks with ⟨turn, verdict⟩
  rw [taken] at keeps
  have untouched : turn.arena.get? id = round.arena.get? id :=
    keeps.apart other member id listed
  cases verdict with
  | running =>
      rw [visit_of_running taken]
      exact untouched
  | finished =>
      rw [visit_of_finished taken]
      have kept : id ∉ turn.cast.contexts :=
        keeps.owns.disjoint member listed
      exact (Arena.get?_release_of_notMem kept).trans untouched

theorem visits_own
    (behaviour : Behaviour κ)
    (maxSteps maxForks : Nat)
    {casts : List InFlight}
    (owns : Owns round.arena (round.staying ++ (casts ++ rest))) :
    Owns (casts.foldl (visit behaviour maxSteps maxForks) round).arena
      ((casts.foldl (visit behaviour maxSteps maxForks) round).staying ++ rest) := by
  induction casts generalizing round with
  | nil =>
      exact owns
  | cons first casts inductionHypothesis =>
      exact inductionHypothesis (visit_owns behaviour maxSteps maxForks owns)

theorem visit_staying_mem
    {other : InFlight}
    (member : other ∈ round.staying) :
    other ∈ (visit behaviour maxSteps maxForks round cast).staying := by
  rcases taken : (round.turn cast).take behaviour maxSteps maxForks with ⟨turn, verdict⟩
  cases verdict with
  | running =>
      rw [visit_of_running taken]
      exact List.mem_append_left _ member
  | finished =>
      rw [visit_of_finished taken]
      exact member

/-- Visits leave the contexts of the casts that are not visited as they are. -/
theorem visits_apart
    (behaviour : Behaviour κ)
    (maxSteps maxForks : Nat)
    {casts : List InFlight}
    (owns : Owns round.arena (round.staying ++ (casts ++ rest))) :
    ∀ other ∈ round.staying ++ rest, ∀ id ∈ other.contexts,
      (casts.foldl (visit behaviour maxSteps maxForks) round).arena.get? id = round.arena.get? id := by
  -- another cast is still in the round after the first visit, with its contexts as they were
  induction casts generalizing round with
  | nil =>
      intro other _ id _
      rfl
  | cons first casts inductionHypothesis =>
      intro other member id listed
      have stillThere : other ∈ (visit behaviour maxSteps maxForks round first).staying ++ rest := by
        rcases List.mem_append.mp member with stays | waits
        · exact List.mem_append_left _ (visit_staying_mem stays)
        · exact List.mem_append_right _ waits
      have notVisited : other ∈ round.staying ++ (casts ++ rest) := by
        rcases List.mem_append.mp member with stays | waits
        · exact List.mem_append_left _ stays
        · exact List.mem_append_right _ (List.mem_append_right _ waits)
      have later := inductionHypothesis (visit_owns behaviour maxSteps maxForks owns) other stillThere id listed
      exact later.trans (visit_apart behaviour maxSteps maxForks owns other notVisited id listed)

variable {scheduler : Scheduler κ}

theorem tick_owns
    (owns : Owns scheduler.arena scheduler.casts)
    (realm : Realm) :
    Owns (scheduler.tick behaviour realm).2.1.arena (scheduler.tick behaviour realm).2.1.casts := by
  have opened :
      Owns (scheduler.opening realm).arena ((scheduler.opening realm).staying ++ (scheduler.casts ++ [])) := by
    simpa [opening] using owns
  have final := visits_own behaviour scheduler.maxSteps scheduler.maxForks opened
  rw [List.append_nil] at final
  exact final

theorem cast_owns
    (owns : Owns scheduler.arena scheduler.casts)
    (context : Context κ)
    (realm : Realm) :
    Owns (scheduler.cast context realm).2.1.arena (scheduler.cast context realm).2.1.casts :=
  owns.insert_root _ rfl rfl rfl

theorem cancelCast_owns
    (owns : Owns scheduler.arena scheduler.casts)
    (id : CastId)
    (reason : CancelReason)
    (realm : Realm) :
    Owns (scheduler.cancelCast behaviour id reason realm).2.1.arena
      (scheduler.cancelCast behaviour id reason realm).2.1.casts := by
  unfold cancelCast
  split
  · exact owns
  · split
    · exact owns
    · exact owns.set _ _

theorem terminateCast_owns
    (owns : Owns scheduler.arena scheduler.casts)
    (id : CastId)
    (realm : Realm) :
    Owns (scheduler.terminateCast id realm).2.1.arena (scheduler.terminateCast id realm).2.1.casts := by
  unfold terminateCast
  split
  · exact owns
  · split
    · exact owns
    · exact owns.set _ _

theorem Made.owns
    (made : scheduler.Made) :
    Owns scheduler.arena scheduler.casts ∧ scheduler.casts = [] := by
  have nothing (depth : Nat) : Owns (Arena.withDepth depth : Arena κ) [] :=
    ⟨List.Perm.refl [], List.nodup_nil, fun _ member => absurd member List.not_mem_nil,
      fun _ member => absurd member List.not_mem_nil⟩
  induction made with
  | empty =>
      exact ⟨nothing _, rfl⟩
  | ofConfig config =>
      exact ⟨nothing _, rfl⟩
  | withMaxSteps maxSteps _ inductionHypothesis =>
      exact inductionHypothesis
  | withMaxForks maxForks _ inductionHypothesis =>
      exact inductionHypothesis

end Scheduler

/-- The casts in flight own the contexts in the arena. -/
def History.Owns (history : History κ) : Prop :=
  Spellcast.Owns history.scheduler.arena history.scheduler.casts

theorem History.owns_stable (behaviour : Behaviour κ) (rules : Rules κ) : Stable rules behaviour History.Owns where
  cast history context owns := Scheduler.cast_owns owns context history.realm
  tick history owns := Scheduler.tick_owns owns history.realm
  cancel history id reason _ owns := Scheduler.cancelCast_owns owns id reason history.realm
  terminate history id _ owns := Scheduler.terminateCast_owns owns id history.realm
  outside _ _ owns := owns

theorem Reaches.owns
    {rules : Rules κ}
    {scheduler : Scheduler κ}
    {realm : Realm}
    {history : History κ}
    (made : scheduler.Made)
    (reached : Reaches rules behaviour (.start scheduler realm) history) :
    history.Owns := by
  have initially : (History.start scheduler realm).Owns := made.owns.1
  exact (History.owns_stable behaviour rules).reaches initially reached

end Spellcast
