import Spellcast.Proofs.Lineage.History

/-!
# Waiting for a suspension to end

A cast whose active context is suspended waits for exactly as many ticks as the suspension says: `History.Waited`
holds after every tick before the last one, whatever happens to other casts meanwhile, and then `History.Resumes`. A
suspension that is not positive has ended already, so the next tick is the last one.
-/

namespace Spellcast

variable {κ : Type} {behaviour : Behaviour κ}

namespace Turn

variable {maxSteps maxForks budget : Nat} {turn next woken : Turn κ} {context : Context κ} {others : List InFlight}
  {instruction : Instruction κ}

theorem executedIn_of_go
    (stepped : turn.step behaviour maxForks = (next, true)) :
    turn.executedIn behaviour maxForks (budget + 1) =
      turn.next?.toList.map (turn.cast.active, ·) ++ next.executedIn behaviour maxForks budget := by
  simp [executedIn, stepped]

theorem executedIn_of_stop
    (stepped : turn.step behaviour maxForks = (next, false)) :
    turn.executedIn behaviour maxForks (budget + 1) = turn.next?.toList.map (turn.cast.active, ·) := by
  simp [executedIn, stepped]

theorem executedIn_of_exhausted
    (behaviour : Behaviour κ)
    (maxForks budget : Nat)
    (live : turn.arena.get? turn.cast.active = some context)
    (exhausted : context.hasNext = false) :
    turn.executedIn behaviour maxForks budget = [] := by
  have nothing := (run_of_exhausted behaviour maxForks live exhausted budget).2
  rw [← executedIn_map] at nothing
  exact List.map_eq_nil_iff.mp nothing

/-- What may run is run first, in the active context. -/
theorem executedIn_of_next
    (behaviour : Behaviour κ)
    (maxForks : Nat)
    (positive : 0 < budget)
    (next : turn.next? = some instruction) :
    ∃ rest, turn.executedIn behaviour maxForks budget = (turn.cast.active, instruction) :: rest := by
  obtain ⟨less, rfl⟩ : ∃ less, budget = less + 1 := ⟨budget - 1, by omega⟩
  rcases stepped : turn.step behaviour maxForks with ⟨after, goesOn⟩
  cases goesOn with
  | true =>
      rw [executedIn_of_go stepped, next]
      exact ⟨_, rfl⟩
  | false =>
      rw [executedIn_of_stop stepped, next]
      exact ⟨[], rfl⟩

theorem takenIn_of_waits
    (live : turn.arena.get? turn.cast.active = some context)
    (woke : turn.announced.wake context = (woken, true)) :
    turn.takenIn behaviour maxSteps maxForks = [] := by
  simp [takenIn, live, woke]

theorem takenIn_of_wakes
    (live : turn.arena.get? turn.cast.active = some context)
    (woke : turn.announced.wake context = (woken, false)) :
    turn.takenIn behaviour maxSteps maxForks = woken.executedIn behaviour maxForks maxSteps := by
  simp [takenIn, live, woke]

/-- A turn in which nothing can run ends where it woke up. -/
theorem take_of_exhausted
    {held : Context κ}
    (behaviour : Behaviour κ)
    (maxSteps maxForks : Nat)
    (live : turn.arena.get? turn.cast.active = some context)
    (woke : turn.announced.wake context = (woken, false))
    (still : woken.arena.get? woken.cast.active = some held)
    (exhausted : held.hasNext = false) :
    turn.take behaviour maxSteps maxForks = (woken.counted.left, woken.verdict) := by
  rw [take_of_wakes live woke, (run_of_exhausted behaviour maxForks still exhausted maxSteps).1]

/-- The same turn, if the active context had no suspension. -/
def unsuspended (turn : Turn κ) (context : Context κ) : Turn κ :=
  { turn with arena := turn.arena.set turn.cast.active { context with suspension := none } }

/-- The rest of a turn that has been announced, once the cast need not wait. -/
def proceeded (behaviour : Behaviour κ) (maxSteps maxForks : Nat) (turn : Turn κ) : Turn κ × Verdict :=
  let ran := turn.run behaviour maxForks maxSteps
  (ran.counted.left, ran.verdict)

theorem take_of_unsuspended
    (live : turn.arena.get? turn.cast.active = some context) :
    (turn.unsuspended context).take behaviour maxSteps maxForks =
      (turn.unsuspended context).announced.proceeded behaviour maxSteps maxForks := by
  have cleared : (turn.unsuspended context).arena.get? (turn.unsuspended context).cast.active =
      some { context with suspension := none } :=
    Arena.get?_set_self live
  have woke : (turn.unsuspended context).announced.wake { context with suspension := none } =
      ((turn.unsuspended context).announced, false) := by
    simp [wake]
  exact take_of_wakes cleared woke

end Turn

namespace History

variable {history later start : History κ} {rules : Rules κ} {cast : InFlight} {context : Context κ} {id : CastId}
  {entries : List (ContextId × Instruction κ)} {n : Int} {k : Nat}

/-- In the next tick the cast runs these instructions, each in the context with the number. -/
def RunsNext (behaviour : Behaviour κ) (history : History κ) (id : CastId)
    (entries : List (ContextId × Instruction κ)) : Prop :=
  ∃ earlier cast later, history.scheduler.casts = earlier ++ cast :: later ∧ cast.id = id ∧
    ((history.scheduler.roundAfter behaviour history.realm earlier).turn cast).takenIn behaviour
      history.scheduler.maxSteps history.scheduler.maxForks = entries

/-- The next tick is the first one in which a suspended cast does not wait: its turn is the one that it would take
without the suspension, but for the event that says so. If there is an instruction at the counter, this one runs first,
and otherwise the cast is completed. -/
structure Resumes (behaviour : Behaviour κ) (history : History κ) (cast : InFlight) (context : Context κ) : Prop where
  unsuspended : ∀ earlier later, history.scheduler.casts = earlier ++ cast :: later →
    let turn := (history.scheduler.roundAfter behaviour history.realm earlier).turn cast
    let cleared := (turn.unsuspended context).announced
    let noted := { cleared with realm := cleared.realm.emit (.castResumed cast.id context.counter) }
    (turn.unsuspended context).take behaviour history.scheduler.maxSteps history.scheduler.maxForks =
        cleared.proceeded behaviour history.scheduler.maxSteps history.scheduler.maxForks ∧
      turn.take behaviour history.scheduler.maxSteps history.scheduler.maxForks =
        noted.proceeded behaviour history.scheduler.maxSteps history.scheduler.maxForks
  runs : context.counter < context.program.length →
    ∃ instruction rest, context.program.get? context.counter = some instruction ∧
      history.RunsNext behaviour cast.id ((cast.active, instruction) :: rest)
  completes : context.program.length ≤ context.counter →
    history.RunsNext behaviour cast.id [] ∧
      Scheduler.outcome { cast with ticks := cast.ticks + 1 } (some { context with suspension := none }) ∈
        (history.scheduler.tick behaviour history.realm).1.completed

/-- After so many ticks of waiting the cast is where it was, and nothing has run and nothing has changed but the number
of ticks to wait. -/
structure Waited (start : History κ) (cast : InFlight) (context : Context κ) (n : Int) (k : Nat) (later : History κ) :
    Prop where
  member : { cast with ticks := cast.ticks + k } ∈ later.scheduler.casts
  active : later.scheduler.arena.get? cast.active = some { context with suspension := some ⟨n - k⟩ }
  others : ∀ id ∈ cast.contexts, id ≠ cast.active →
    later.scheduler.arena.get? id = start.scheduler.arena.get? id
  executed : later.executedBy cast.id = start.executedBy cast.id

theorem Waited.refl
    (member : cast ∈ history.scheduler.casts)
    (active : history.scheduler.arena.get? cast.active = some context)
    (suspended : context.suspension = some ⟨n⟩) :
    history.Waited cast context n 0 history where
  member := member
  active := by
    rw [active, Int.natCast_zero, Int.sub_zero, ← suspended]
  others _ _ _ := rfl
  executed := rfl

/-- What others do in between makes no difference. -/
theorem Waited.of_same
    {next : History κ}
    (waited : start.Waited cast context n k later)
    (casts : ∀ other ∈ later.scheduler.casts, other ∈ next.scheduler.casts)
    (contexts : ∀ id ∈ cast.contexts, next.scheduler.arena.get? id = later.scheduler.arena.get? id)
    (coherent : cast.active ∈ cast.contexts)
    (executed : next.executed = later.executed) :
    start.Waited cast context n k next where
  member := casts _ waited.member
  active := (contexts _ coherent).trans waited.active
  others id listed different := (contexts id listed).trans (waited.others id listed different)
  executed := by
    rw [executedBy, executed]
    exact waited.executed

/-- A cast that has to wait longer than one tick is left alone by the next one. -/
theorem tick_of_waiting
    (owns : history.Owns)
    (accounts : history.Accounts)
    (member : cast ∈ history.scheduler.casts)
    (live : history.scheduler.arena.get? cast.active = some context)
    (running : context.canceled = false)
    (suspended : context.suspension = some ⟨n⟩)
    (long : 1 < n) :
    history.RunsNext behaviour cast.id [] ∧
      history.Waited cast context n 1 (history.tick behaviour) := by
  obtain ⟨earlier, behind, split⟩ := List.append_of_mem member
  have turned := Scheduler.turned_of_split behaviour owns accounts.castIds_nodup split history.realm
  have turnLive := turned_live turned owns member live
  generalize isTurn : (history.scheduler.roundAfter behaviour history.realm earlier).turn cast = turn at turned turnLive
  have woke : turn.announced.wake context = (turn.announced.waited context (n - 1), true) :=
    Turn.wake_of_waiting running suspended long
  have active : cast.active ∈ cast.contexts := (owns.coherent _ member).active_mem
  have started : turn.cast.active = cast.active := by rw [turned.started]
  obtain ⟨staysInFlight, sameContexts⟩ := turned.running _ (Turn.take_of_waits turnLive woke)
  have sameCast : (turn.announced.waited context (n - 1)).left.cast = { cast with ticks := cast.ticks + 1 } :=
    turned.started
  rw [sameCast] at staysInFlight sameContexts
  refine ⟨⟨earlier, cast, behind, split, rfl, ?_⟩, staysInFlight, ?_, ?_, ?_⟩
  · rw [isTurn]
    exact Turn.takenIn_of_waits turnLive woke
  · refine (sameContexts _ active).trans ?_
    rw [← started]
    exact Arena.get?_set_self turnLive
  · intro id listed different
    refine (sameContexts id listed).trans ?_
    have notActive : id ≠ turn.announced.cast.active := fun same => different (same.trans started)
    exact (Arena.get?_set_of_ne notActive).trans (turned.same id listed)
  · rw [executedBy_tick_of_turned turned, Turn.taken_of_waits turnLive woke, List.append_nil]

theorem resumes_of_due
    (owns : history.Owns)
    (accounts : history.Accounts)
    (positive : 0 < history.scheduler.maxSteps)
    (member : cast ∈ history.scheduler.casts)
    (live : history.scheduler.arena.get? cast.active = some context)
    (running : context.canceled = false)
    (suspended : context.suspension = some ⟨n⟩)
    (due : n ≤ 1) :
    history.Resumes behaviour cast context := by
  -- the turn wakes up without the suspension, and what it runs first depends on the counter alone
  have resumed {turn : Turn κ} (live : turn.arena.get? turn.cast.active = some context) :
      turn.announced.wake context = (turn.announced.resumed context, false) ∧
        (turn.announced.resumed context).arena.get? (turn.announced.resumed context).cast.active =
          some { context with suspension := none } :=
    ⟨Turn.wake_of_due running suspended due, Arena.get?_set_self live⟩
  obtain ⟨earlier, behind, split⟩ := List.append_of_mem member
  have turned := Scheduler.turned_of_split behaviour owns accounts.castIds_nodup split history.realm
  have turnLive := turned_live turned owns member live
  obtain ⟨woke, wokenLive⟩ := resumed turnLive
  refine ⟨?_, ?_, ?_⟩
  · intro earlier behind split turn cleared noted
    have turned := Scheduler.turned_of_split behaviour owns accounts.castIds_nodup split history.realm
    have turnLive := turned_live turned owns member live
    exact ⟨Turn.take_of_unsuspended turnLive, Turn.take_of_wakes turnLive (resumed turnLive).1⟩
  · intro inside
    have next : ({ context with suspension := none } : Context κ).hasNext = true :=
      Context.hasNext_iff.mpr ⟨running, rfl, inside⟩
    obtain ⟨instruction, found⟩ := Context.exists_get?_of_hasNext next
    obtain ⟨rest, first⟩ := Turn.executedIn_of_next behaviour history.scheduler.maxForks positive
      (Turn.next?_eq wokenLive next found)
    refine ⟨instruction, rest, found, earlier, cast, behind, split, rfl, ?_⟩
    rw [Turn.takenIn_of_wakes turnLive woke]
    exact first
  · intro past
    have exhausted : ({ context with suspension := none } : Context κ).hasNext = false := by
      rw [Bool.eq_false_iff]
      intro next
      exact Nat.not_lt.mpr past (Context.hasNext_iff.mp next).2.2
    refine ⟨⟨earlier, cast, behind, split, rfl, ?_⟩, ?_⟩
    · rw [Turn.takenIn_of_wakes turnLive woke]
      exact Turn.executedIn_of_exhausted behaviour _ _ wokenLive exhausted
    · have final := Turn.take_of_exhausted behaviour history.scheduler.maxSteps history.scheduler.maxForks turnLive
        woke wokenLive exhausted
      rw [Turn.verdict_of_exhausted wokenLive exhausted rfl] at final
      have reported := reported_of_finished turned final wokenLive
      have sameCast : ((history.scheduler.roundAfter behaviour history.realm earlier).turn cast |>.announced.resumed
          context).counted.left.cast = { cast with ticks := cast.ticks + 1 } :=
        turned.started
      rw [sameCast] at reported
      exact reported

/-- As long as nobody interrupts the cast, it waits until its suspension is over. -/
theorem waited_stable
    (spare : rules.Spare cast.id)
    (running : context.canceled = false)
    (coherent : cast.active ∈ cast.contexts) :
    Stable rules behaviour fun later =>
      (later.Owns ∧ later.Accounts) ∧
        ∃ k, later.scheduler.ticks = start.scheduler.ticks + k ∧
          ((k : Int) < max n 1 → start.Waited cast context n k later) where
  cast later added holds := by
    obtain ⟨both, k, counted, waits⟩ := holds
    refine ⟨(accounts_stable behaviour rules).cast later added both, k, counted, fun early => ?_⟩
    have waited := waits early
    refine waited.of_same (fun _ member => List.mem_append_left _ member) ?_ coherent rfl
    exact Scheduler.cast_apart both.1 waited.member added later.realm
  tick later holds := by
    obtain ⟨both, k, counted, waits⟩ := holds
    refine ⟨(accounts_stable behaviour rules).tick later both, k + 1, congrArg (· + 1) counted, fun early => ?_⟩
    have waited := waits (by omega)
    have long : 1 < n - k := by omega
    have ticked : later.Waited _ _ _ 1 (later.tick behaviour) :=
      (tick_of_waiting both.1 both.2 waited.member waited.active running rfl long).2
    refine ⟨ticked.member, ?_, ?_, ticked.executed.trans waited.executed⟩
    · have shorter : n - k - 1 = n - (k + 1 : Nat) := by omega
      rw [ticked.active]
      simp only [shorter, Int.natCast_one]
    · intro id listed different
      exact (ticked.others id listed different).trans (waited.others id listed different)
  cancel later id reason allowed holds := by
    obtain ⟨both, k, counted, waits⟩ := holds
    have foreign : cast.id ≠ id := fun same => spare _ allowed same.symm
    obtain ⟨arena, unchanged⟩ := Scheduler.cancelCast_arena behaviour later.scheduler id reason later.realm
    refine ⟨(accounts_stable behaviour rules).cancel later id reason allowed both, k, ?_, fun early => ?_⟩
    · simp only [cancel, unchanged]
      exact counted
    · have waited := waits early
      refine waited.of_same ?_ ?_ coherent rfl
      · simp only [cancel, unchanged]
        exact fun _ member => member
      · exact Scheduler.cancelCast_apart both.1 waited.member foreign reason later.realm
  terminate later id allowed holds := by
    obtain ⟨both, k, counted, waits⟩ := holds
    have foreign : cast.id ≠ id := fun same => spare _ allowed same.symm
    obtain ⟨arena, unchanged⟩ := Scheduler.terminateCast_arena later.scheduler id later.realm
    refine ⟨(accounts_stable behaviour rules).terminate later id allowed both, k, ?_, fun early => ?_⟩
    · simp only [terminate, unchanged]
      exact counted
    · have waited := waits early
      refine waited.of_same ?_ ?_ coherent rfl
      · simp only [terminate, unchanged]
        exact fun _ member => member
      · exact Scheduler.terminateCast_apart both.1 waited.member foreign later.realm
  outside later realm holds := by
    obtain ⟨both, k, counted, waits⟩ := holds
    refine ⟨(accounts_stable behaviour rules).outside later realm both, k, counted, fun early => ?_⟩
    exact (waits early).of_same (fun _ member => member) (fun _ _ => rfl) coherent rfl

end History

/-- A cast that is suspended for so many ticks and that nobody interrupts waits in all but the last of them, where a
suspension that is over takes one tick to be noticed. -/
theorem Reaches.waits_out
    {history later : History κ}
    {rules : Rules κ}
    {cast : InFlight}
    {context : Context κ}
    {n : Int}
    {k : Nat}
    (owns : history.Owns)
    (accounts : history.Accounts)
    (positive : 0 < history.scheduler.maxSteps)
    (member : cast ∈ history.scheduler.casts)
    (live : history.scheduler.arena.get? cast.active = some context)
    (running : context.canceled = false)
    (suspended : context.suspension = some ⟨n⟩)
    (spare : rules.Spare cast.id)
    (further : Reaches rules behaviour history later)
    (counted : later.scheduler.ticks = history.scheduler.ticks + k) :
    ((k : Int) < max n 1 → history.Waited cast context n k later) ∧
      ((k : Int) + 1 < max n 1 → later.RunsNext behaviour cast.id []) ∧
      ((k : Int) + 1 = max n 1 →
        later.Resumes behaviour { cast with ticks := cast.ticks + k } { context with suspension := some ⟨n - k⟩ }) := by
  have coherent := (owns.coherent cast member).active_mem
  obtain ⟨⟨laterOwns, laterAccounts⟩, k', counted', waits⟩ :=
    (History.waited_stable spare running coherent).reaches
      ⟨⟨owns, accounts⟩, 0, rfl, fun _ => .refl member live suspended⟩ further
  obtain rfl : k' = k := by omega
  have limits := (History.limits_stable behaviour rules history.scheduler.maxSteps history.scheduler.maxForks).reaches
    ⟨rfl, rfl⟩ further
  refine ⟨waits, fun early => ?_, fun last => ?_⟩
  · have waited := waits (by omega)
    exact (History.tick_of_waiting laterOwns laterAccounts waited.member waited.active running rfl (by omega)).1
  · have waited := waits (by omega)
    exact History.resumes_of_due laterOwns laterAccounts (limits.1 ▸ positive) waited.member waited.active running rfl
      (by omega)

end Spellcast
