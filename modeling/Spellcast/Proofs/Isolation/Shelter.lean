import Spellcast.Proofs.Isolation.Deeds

/-!
# A cast among others

`History.Shelters` follows one cast from its registration to its report. It is kept by what others do, which leaves the
context and the cells of the cast as they are, and it is carried on by ticks and interrupts of the cast itself, of which
only its context, its cells and the limits of the scheduler decide what they do.
-/

namespace Spellcast

variable {κ : Type} {behaviour : Behaviour κ}

namespace History

variable {history : History κ} {id : CastId} {target : InFlight} {context : Context κ}

/-- A cast is in flight at this context, and nobody else in flight holds any of its cells. -/
structure Shelters (history : History κ) (target : InFlight) (context : Context κ) : Prop where
  sheltered : history.Sheltered target.id context.cells
  member : target ∈ history.scheduler.casts
  live : history.scheduler.arena.get? target.active = some context

def newcomer (history : History κ) : InFlight :=
  { id := history.scheduler.nextCast, active := history.scheduler.arena.nextId
    contexts := [history.scheduler.arena.nextId], steps := 0, forks := 0, ticks := 0 }

/-- In a tick a cast takes its turn from one context to another. The cells of its context have the values then that they
had before the tick, and what the turn leaves in the cells of the other context is still there after the tick. -/
structure TakesTurn (history : History κ) (behaviour : Behaviour κ) (target : InFlight) (context : Context κ)
    (turn after : Turn κ) (verdict : Turn.Verdict) (final : Context κ) : Prop where
  turned : Scheduler.Turned behaviour history.scheduler history.realm target turn
  live : turn.arena.get? turn.cast.active = some context
  given : ∀ cell ∈ context.cells, turn.realm.cells.read? cell = history.realm.cells.read? cell
  taken : turn.take behaviour history.scheduler.maxSteps history.scheduler.maxForks = (after, verdict)
  finalLive : after.arena.get? after.cast.active = some final
  kept : ∀ cell ∈ final.cells, (history.tick behaviour).realm.cells.read? cell = after.realm.cells.read? cell
  guarded : Guarded target.id final.cells (history.tick behaviour).scheduler.arena (history.tick behaviour).realm.cells
    (history.tick behaviour).scheduler.casts

namespace Shelters

theorem of_cast
    (spares : history.Spares [])
    (fair : (Deed.cast context).Fair history) :
    (history.cast context).Shelters history.newcomer { context with parent := none } := by
  have owns := spares.owns
  obtain ⟨nextOwns, nextAccounts⟩ := accounts_after owns spares.accounts (Behaviour.inert κ) (.cast context)
  have has : ∀ cell ∈ context.cells, history.realm.cells.Has cell := fun cell listed => (fair cell listed).1
  refine ⟨⟨nextOwns, nextAccounts, has, ?_⟩, List.mem_append_right _ (List.mem_singleton_self _),
    Arena.get?_insert_self⟩
  intro cast member different found live cell listed
  rcases List.mem_append.mp member with old | new
  · have same := Scheduler.cast_apart owns old context history.realm _ (owns.coherent cast old).active_mem
    have oldLive := same.symm.trans live
    have unnamed : cast.id ≠ history.scheduler.nextCast := different
    refine ⟨(spares.guarded.others cast old unnamed found oldLive cell listed).1, ?_⟩
    intro taken
    exact (fair cell taken).2 ⟨cast, old, found, oldLive, listed⟩
  · obtain rfl := List.mem_singleton.mp new
    exact absurd rfl different

theorem holds
    (shelters : history.Shelters target context)
    {cell : CellId}
    (listed : cell ∈ context.cells) :
    history.Holds cell :=
  ⟨target, shelters.member, context, shelters.live, listed⟩

/-- Whatever others do, the cast stays where it is, and the values of its cells stay what they are. -/
theorem after_other
    (discreet : behaviour.Discreet)
    (shelters : history.Shelters target context)
    {deed : Deed κ}
    (fair : deed.Fair history)
    {id' : CastId}
    (foreign : deed.own target.id id' = none) :
    (history.after behaviour deed).Shelters target context ∧
      ∀ cell ∈ context.cells,
        (history.after behaviour deed).realm.cells.read? cell = history.realm.cells.read? cell := by
  have owns := shelters.sheltered.owns
  have active := (owns.coherent target shelters.member).active_mem
  cases deed with
  | cast new =>
      have apart : ∀ cell ∈ new.cells, cell ∉ context.cells :=
        fun cell isNew listed => (fair cell isNew).2 (shelters.holds listed)
      refine ⟨⟨shelters.sheltered.cast fair apart, List.mem_append_left _ shelters.member, ?_⟩, fun _ _ => rfl⟩
      exact (Scheduler.cast_apart owns shelters.member new history.realm _ active).trans shelters.live
  | tick =>
      cases foreign
  | cancel other reason =>
      have different : other ≠ target.id := by
        intro same
        simp [Deed.own, same] at foreign
      obtain ⟨sheltered, kept⟩ := shelters.sheltered.cancel discreet (fun _ => different) reason
      obtain ⟨arena, casts⟩ :=
        Scheduler.cancelCast_arena behaviour history.scheduler other reason history.realm
      refine ⟨⟨sheltered, ?_, ?_⟩, kept⟩
      · change target ∈ (history.scheduler.cancelCast behaviour other reason history.realm).2.1.casts
        rw [casts]
        exact shelters.member
      · exact (Scheduler.cancelCast_apart owns shelters.member (Ne.symm different) reason history.realm _ active).trans
          shelters.live
  | terminate other =>
      have different : other ≠ target.id := by
        intro same
        simp [Deed.own, same] at foreign
      obtain ⟨sheltered, kept⟩ := shelters.sheltered.terminate fun _ => different
      obtain ⟨arena, casts⟩ := Scheduler.terminateCast_arena history.scheduler other history.realm
      refine ⟨⟨sheltered, ?_, ?_⟩, kept⟩
      · change target ∈ (history.scheduler.terminateCast other history.realm).2.1.casts
        rw [casts]
        exact shelters.member
      · exact (Scheduler.terminateCast_apart owns shelters.member (Ne.symm different) history.realm _ active).trans
          shelters.live
  | outside realm =>
      refine ⟨⟨shelters.sheltered.outside fair, shelters.member, shelters.live⟩, ?_⟩
      intro cell listed
      exact (fair cell (shelters.sheltered.guarded.has cell listed)).2 (shelters.holds listed)

theorem takesTurn_of_split
    {earlier later : List InFlight}
    (discreet : behaviour.Discreet)
    (shelters : history.Shelters target context)
    (split : history.scheduler.casts = earlier ++ target :: later) :
    let turn := (history.scheduler.roundAfter behaviour history.realm earlier).turn target
    ∃ after verdict final, history.TakesTurn behaviour target context turn after verdict final := by
  obtain ⟨⟨owns, accounts, guarded⟩, member, live⟩ := shelters
  let scheduler := history.scheduler
  have distinct := accounts.castIds_nodup
  have ids : scheduler.castIds = earlier.map (·.id) ++ target.id :: later.map (·.id) := by
    simp [scheduler, Scheduler.castIds, split]
  have notEarlier : ∀ cast ∈ earlier, cast.id ≠ target.id := by
    intro cast castMember same
    rw [ids] at distinct
    exact (List.nodup_append.mp distinct).2.2 _ (List.mem_map_of_mem castMember) _ List.mem_cons_self same
  have notLater : ∀ cast ∈ later, cast.id ≠ target.id := by
    intro cast castMember same
    rw [ids] at distinct
    exact (List.nodup_cons.mp (List.nodup_append.mp distinct).2.1).1 (same ▸ List.mem_map_of_mem castMember)
  -- the visits before the turn of the cast, this turn, and the visits after it
  have opened : Spellcast.Owns (scheduler.opening history.realm).arena
      ((scheduler.opening history.realm).staying ++ (earlier ++ target :: later)) := split ▸ owns
  have openedGuarded : Guarded target.id context.cells (scheduler.opening history.realm).arena
      (scheduler.opening history.realm).realm.cells
      ((scheduler.opening history.realm).staying ++ (earlier ++ target :: later)) := split ▸ guarded
  let round := scheduler.roundAfter behaviour history.realm earlier
  have roundOwns : Spellcast.Owns round.arena (round.staying ++ target :: later) :=
    Scheduler.visits_own _ _ _ opened
  obtain ⟨roundGuarded, roundKept⟩ :=
    Scheduler.visits_guarded discreet scheduler.maxSteps scheduler.maxForks opened notEarlier openedGuarded
  have roundLive : round.arena.get? target.active = some context := by
    have active := (owns.coherent target member).active_mem
    have apart := Scheduler.visits_apart behaviour scheduler.maxSteps scheduler.maxForks opened target
      (List.mem_append_right _ List.mem_cons_self) _ active
    exact apart.trans live
  obtain ⟨final, finalLive, nextGuarded⟩ :=
    Scheduler.visit_guarded_own discreet scheduler.maxSteps scheduler.maxForks roundOwns roundLive roundGuarded
  have nextOwns := Scheduler.visit_owns behaviour scheduler.maxSteps scheduler.maxForks roundOwns
  rw [← List.append_nil later] at nextOwns nextGuarded
  obtain ⟨lastGuarded, lastKept⟩ :=
    Scheduler.visits_guarded discreet scheduler.maxSteps scheduler.maxForks nextOwns notLater nextGuarded
  have last : scheduler.roundAfter behaviour history.realm scheduler.casts =
      later.foldl (Scheduler.visit behaviour scheduler.maxSteps scheduler.maxForks)
        (Scheduler.visit behaviour scheduler.maxSteps scheduler.maxForks round target) := by
    change scheduler.roundAfter behaviour history.realm history.scheduler.casts = _
    rw [split, Scheduler.roundAfter, List.foldl_append, List.foldl_cons]
    rfl
  rw [← last] at lastGuarded lastKept
  rw [List.append_nil] at lastGuarded
  refine ⟨_, _, final, Scheduler.turned_of_split behaviour owns distinct split history.realm, roundLive, roundKept, rfl,
    finalLive, ?_, lastGuarded⟩
  intro cell listed
  have left := lastKept cell listed
  rw [Scheduler.visit_cells] at left
  exact left

theorem exists_turn
    (discreet : behaviour.Discreet)
    (shelters : history.Shelters target context) :
    ∃ turn after verdict final, history.TakesTurn behaviour target context turn after verdict final := by
  obtain ⟨earlier, later, split⟩ := List.append_of_mem shelters.member
  exact ⟨_, shelters.takesTurn_of_split discreet split⟩

/-- An interrupt of the cast itself: only its context and its cells have changed. -/
theorem interrupted
    (shelters : history.Shelters target context)
    {after : Context κ}
    {realm : Realm}
    (handles : Cells.Handles context.cells history.realm.cells after.cells realm.cells)
    {next : History κ}
    (changed : next = { history with
      scheduler := { history.scheduler with arena := history.scheduler.arena.set target.active after }, realm })
    (accounts : next.Owns ∧ next.Accounts) :
    next.Shelters target after := by
  obtain ⟨⟨owns, oldAccounts, guarded⟩, member, live⟩ := shelters
  subst changed
  refine ⟨⟨accounts.1, accounts.2, guarded.by_own handles ?_⟩, member, Arena.get?_set_self live⟩
  intro other otherMember different
  have active := (owns.coherent other otherMember).active_mem
  exact ⟨otherMember, Scheduler.set_apart owns otherMember member different after _ active⟩

theorem cancel
    (discreet : behaviour.Discreet)
    (shelters : history.Shelters target context)
    (reason : CancelReason) :
    ∃ noted, history.realm.SameWorld noted ∧
      (history.cancel behaviour target.id reason).Shelters target (context.cancel behaviour reason noted).1 ∧
      (context.cancel behaviour reason noted).2.SameWorld (history.cancel behaviour target.id reason).realm := by
  have distinct := shelters.sheltered.accounts.castIds_nodup
  obtain ⟨noted, same, canceled⟩ :=
    Scheduler.cancelCast_of_mem behaviour distinct shelters.member shelters.live reason history.realm
  have has : ∀ cell ∈ context.cells, noted.cells.Has cell := by
    rw [same.cells]
    exact shelters.sheltered.guarded.has
  have handles : Cells.Handles context.cells noted.cells (context.cancel behaviour reason noted).1.cells
      (context.cancel behaviour reason noted).2.leave.cells :=
    Context.cancel_handles discreet reason noted has
  rw [same.cells] at handles
  have changed : history.cancel behaviour target.id reason = { history with
      scheduler := { history.scheduler with
        arena := history.scheduler.arena.set target.active (context.cancel behaviour reason noted).1 }
      realm := (context.cancel behaviour reason noted).2.leave } := by
    simp only [History.cancel, canceled]
  refine ⟨noted, same, ?_, ?_⟩
  · exact shelters.interrupted handles changed
      (accounts_after shelters.sheltered.owns shelters.sheltered.accounts behaviour (.cancel target.id reason))
  · rw [changed]
    exact (Realm.SameWorld.refl _).leave

theorem terminate
    (shelters : history.Shelters target context) :
    (history.terminate target.id).Shelters target context.stopped ∧
      history.realm.SameWorld (history.terminate target.id).realm := by
  have distinct := shelters.sheltered.accounts.castIds_nodup
  obtain ⟨noted, same, terminated⟩ :=
    Scheduler.terminateCast_of_mem distinct shelters.member shelters.live history.realm
  have handles : Cells.Handles context.cells history.realm.cells context.stopped.cells noted.cells := by
    rw [same.cells]
    exact .refl shelters.sheltered.guarded.has
  have changed : history.terminate target.id = { history with
      scheduler := { history.scheduler with arena := history.scheduler.arena.set target.active context.stopped }
      realm := noted } := by
    simp only [History.terminate, terminated]
  refine ⟨?_, ?_⟩
  · exact shelters.interrupted handles changed
      (accounts_after shelters.sheltered.owns shelters.sheltered.accounts (Behaviour.inert κ) (.terminate target.id))
  · rw [changed]
    exact same

end Shelters

def reported (behaviour : Behaviour κ) (history : History κ) (id : CastId) : Deed κ → List (Outcome κ)
  | .tick => (history.scheduler.tick behaviour history.realm).1.completed.filter (·.id == id)
  | .cast _ | .cancel _ _ | .terminate _ | .outside _ => []

/-- A cast has been registered and is no longer in flight. -/
structure Gone (history : History κ) (id : CastId) : Prop where
  owns : history.Owns
  accounts : history.Accounts
  given : id < history.scheduler.nextCast
  absent : id ∉ history.scheduler.castIds

section

variable {turn after : Turn κ} {verdict : Turn.Verdict} {final : Context κ}

theorem TakesTurn.keeps
    (takes : history.TakesTurn behaviour target context turn after verdict final) :
    ∃ others, Turn.Keeps others turn after := by
  obtain ⟨others, owns⟩ := takes.turned.owns
  have keeps := Turn.keeps_take behaviour history.scheduler.maxSteps history.scheduler.maxForks owns
  rw [takes.taken] at keeps
  exact ⟨others, keeps⟩

theorem TakesTurn.sameId
    (takes : history.TakesTurn behaviour target context turn after verdict final) :
    after.cast.id = target.id := by
  obtain ⟨others, keeps⟩ := takes.keeps
  rw [keeps.sameId, takes.turned.started]

theorem TakesTurn.active_mem
    (takes : history.TakesTurn behaviour target context turn after verdict final) :
    after.cast.active ∈ after.cast.contexts := by
  obtain ⟨others, keeps⟩ := takes.keeps
  exact (keeps.owns.coherent _ List.mem_cons_self).active_mem

theorem TakesTurn.steps
    (takes : history.TakesTurn behaviour target context turn after verdict final) :
    after.cast.steps =
      target.steps + (turn.taken behaviour history.scheduler.maxSteps history.scheduler.maxForks).length := by
  obtain ⟨others, owns⟩ := takes.turned.owns
  have steps := Turn.take_steps behaviour history.scheduler.maxSteps history.scheduler.maxForks owns
    takes.turned.uncounted
  rw [takes.taken, takes.turned.started] at steps
  exact steps

theorem TakesTurn.ticks
    (takes : history.TakesTurn behaviour target context turn after verdict final) :
    after.cast.ticks = target.ticks + 1 := by
  obtain ⟨others, keeps⟩ := takes.keeps
  rw [keeps.sameTicks, takes.turned.started]

/-- A cast whose turn has not ended it is in flight after the tick. -/
theorem Shelters.running
    (shelters : history.Shelters target context)
    (takes : history.TakesTurn behaviour target context turn after .running final) :
    (history.tick behaviour).Shelters after.cast final ∧ history.reported behaviour target.id .tick = [] := by
  have sheltered := shelters.sheltered
  obtain ⟨nextOwns, nextAccounts⟩ := accounts_after sheltered.owns sheltered.accounts behaviour .tick
  have sameId := takes.sameId
  have guarded := takes.guarded
  obtain ⟨member, same⟩ := takes.turned.running after takes.taken
  rw [← sameId] at guarded ⊢
  refine ⟨⟨⟨nextOwns, nextAccounts, guarded⟩, member, (same _ takes.active_mem).trans takes.finalLive⟩, ?_⟩
  apply List.filter_eq_nil_iff.mpr
  intro outcome reported sameOutcome
  have outcomeId : outcome.id = after.cast.id := by simpa using sameOutcome
  have gone := (Scheduler.reported_alone sheltered.owns sheltered.accounts.castIds_nodup reported).2
  rw [outcomeId] at gone
  exact gone (List.mem_map_of_mem member)

/-- A cast that its turn has ended is reported and gone. -/
theorem Shelters.finished
    (shelters : history.Shelters target context)
    (takes : history.TakesTurn behaviour target context turn after .finished final) :
    (history.tick behaviour).Gone target.id ∧
      history.reported behaviour target.id .tick = [Scheduler.outcome after.cast (some final)] := by
  have sheltered := shelters.sheltered
  obtain ⟨nextOwns, nextAccounts⟩ := accounts_after sheltered.owns sheltered.accounts behaviour .tick
  have sameId := takes.sameId
  have member := takes.turned.finished after takes.taken
  rw [takes.finalLive] at member
  obtain ⟨alone, gone⟩ := Scheduler.reported_alone sheltered.owns sheltered.accounts.castIds_nodup member
  refine ⟨⟨nextOwns, nextAccounts, ?_, ?_⟩, ?_⟩
  · exact sheltered.accounts.given _ (sheltered.accounts.inFlight.subset (List.mem_map_of_mem shelters.member))
  · exact sameId ▸ gone
  · rw [← sameId]
    exact alone

end

theorem gone_stable (behaviour : Behaviour κ) (rules : Rules κ) (id : CastId) :
    Stable rules behaviour fun history => history.Gone id where
  cast history context gone := by
    obtain ⟨nextOwns, nextAccounts⟩ := accounts_after gone.owns gone.accounts behaviour (.cast context)
    refine ⟨nextOwns, nextAccounts, Nat.lt_succ_of_lt gone.given, ?_⟩
    intro inFlight
    have listed : id ∈ history.scheduler.castIds ++ [history.scheduler.nextCast] := by
      simpa [History.cast, Scheduler.cast, Scheduler.castIds] using inFlight
    rcases List.mem_append.mp listed with old | new
    · exact gone.absent old
    · exact Nat.ne_of_lt gone.given (List.mem_singleton.mp new)
  tick history gone := by
    obtain ⟨nextOwns, nextAccounts⟩ := accounts_after gone.owns gone.accounts behaviour .tick
    obtain ⟨kept, -⟩ := Scheduler.tick_ids behaviour gone.owns history.realm
    exact ⟨nextOwns, nextAccounts, gone.given, fun inFlight => gone.absent (kept.subset inFlight)⟩
  cancel history other reason _ gone := by
    obtain ⟨nextOwns, nextAccounts⟩ := accounts_after gone.owns gone.accounts behaviour (.cancel other reason)
    obtain ⟨arena, unchanged⟩ := Scheduler.cancelCast_arena behaviour history.scheduler other reason history.realm
    refine ⟨nextOwns, nextAccounts, ?_, ?_⟩
    · simp only [cancel, unchanged]
      exact gone.given
    · simp only [cancel, unchanged]
      exact gone.absent
  terminate history other _ gone := by
    obtain ⟨nextOwns, nextAccounts⟩ := accounts_after gone.owns gone.accounts behaviour (.terminate other)
    obtain ⟨arena, unchanged⟩ := Scheduler.terminateCast_arena history.scheduler other history.realm
    refine ⟨nextOwns, nextAccounts, ?_, ?_⟩
    · simp only [terminate, unchanged]
      exact gone.given
    · simp only [terminate, unchanged]
      exact gone.absent
  outside history realm gone := by
    obtain ⟨nextOwns, nextAccounts⟩ := accounts_after gone.owns gone.accounts behaviour (.outside realm)
    exact ⟨nextOwns, nextAccounts, gone.given, gone.absent⟩

/-- What is gone is not reported again. -/
theorem Gone.silent
    (gone : history.Gone id)
    (behaviour : Behaviour κ)
    (deed : Deed κ) :
    history.reported behaviour id deed = [] := by
  cases deed with
  | tick =>
      obtain ⟨-, done, -⟩ := Scheduler.tick_ids behaviour gone.owns history.realm
      apply List.filter_eq_nil_iff.mpr
      intro outcome member same
      have sameId : outcome.id = id := by simpa using same
      exact gone.absent (sameId ▸ done.subset (List.mem_map_of_mem member))
  | cast _ | cancel _ _ | terminate _ | outside _ => rfl

end History

end Spellcast
