import Spellcast.Proofs.Focus
import Spellcast.Proofs.Isolation.Cells

/-!
# What others do

A cast is registered, and then things happen to it and around it: ticks, interrupts, other casts, and changes of the
realm. `Deed` lists them, and `Deed.Fair` asks that no context is cast with cells that somebody in flight holds.
Whatever others do then, they leave the cast, its context and its cells alone.
-/

namespace Spellcast

variable {κ : Type} {behaviour : Behaviour κ}

/-- Something that happens to a scheduler: a call of its owner, or a change of the realm by others. -/
inductive Deed (κ : Type) where
  | cast (context : Context κ)
  | tick
  | cancel (id : CastId) (reason : CancelReason)
  | terminate (id : CastId)
  | outside (realm : Realm)

namespace History

def after (behaviour : Behaviour κ) (history : History κ) : Deed κ → History κ
  | .cast context => history.cast context
  | .tick => history.tick behaviour
  | .cancel id reason => history.cancel behaviour id reason
  | .terminate id => history.terminate id
  | .outside realm => { history with realm }

def afterAll (behaviour : Behaviour κ) (history : History κ) (deeds : List (Deed κ)) : History κ :=
  deeds.foldl (after behaviour) history

def Holds (history : History κ) (cell : CellId) : Prop :=
  ∃ cast ∈ history.scheduler.casts, ∃ context, history.scheduler.arena.get? cast.active = some context ∧
    cell ∈ context.cells

end History

def Rules.free : Rules κ := ⟨fun _ => True, fun _ _ => True⟩

namespace Stable

variable {property : History κ → Prop} {history : History κ}

theorem after
    (stable : Stable .free behaviour property)
    (holds : property history)
    (deed : Deed κ) :
    property (history.after behaviour deed) := by
  cases deed with
  | cast context => exact stable.cast history context holds
  | tick => exact stable.tick history holds
  | cancel id reason => exact stable.cancel history id reason trivial holds
  | terminate id => exact stable.terminate history id trivial holds
  | outside realm => exact stable.outside history realm holds

theorem afterAll
    (stable : Stable .free behaviour property)
    (holds : property history)
    (deeds : List (Deed κ)) :
    property (history.afterAll behaviour deeds) := by
  induction deeds generalizing history with
  | nil =>
      exact holds
  | cons deed deeds inductionHypothesis =>
      exact inductionHypothesis (stable.after holds deed)

end Stable

section

variable {origin history : History κ}

theorem History.exists_ticks
    (behaviour : Behaviour κ)
    (history : History κ)
    (limit : Nat) :
    ∃ count, history.runUntilIdle behaviour limit = history.afterAll behaviour (List.replicate count .tick) := by
  induction limit generalizing history with
  | zero =>
      exact ⟨0, rfl⟩
  | succ limit inductionHypothesis =>
      by_cases idle : history.scheduler.isIdle
      · refine ⟨0, ?_⟩
        rw [runUntilIdle, if_pos idle]
        rfl
      · obtain ⟨count, ticked⟩ := inductionHypothesis (history.tick behaviour)
        refine ⟨count + 1, ?_⟩
        rw [runUntilIdle, if_neg idle, ticked]
        rfl

/-- Every history that can be reached comes about by deeds. -/
theorem Reaches.exists_deeds
    {rules : Rules κ}
    (reached : Reaches rules behaviour origin history) :
    ∃ deeds, history = origin.afterAll behaviour deeds := by
  have further {history : History κ} {earlier : List (Deed κ)} (same : history = origin.afterAll behaviour earlier)
      (later : List (Deed κ)) :
      history.afterAll behaviour later = origin.afterAll behaviour (earlier ++ later) := by
    rw [same, History.afterAll, History.afterAll, History.afterAll, List.foldl_append]
  induction reached with
  | origin =>
      exact ⟨[], rfl⟩
  | call call _ _ inductionHypothesis =>
      obtain ⟨earlier, same⟩ := inductionHypothesis
      cases call with
      | cast context => exact ⟨_, further same [.cast context]⟩
      | tick => exact ⟨_, further same [.tick]⟩
      | runUntilIdle limit =>
          obtain ⟨count, ticked⟩ := History.exists_ticks behaviour _ limit
          exact ⟨_, ticked.trans (further same (List.replicate count .tick))⟩
      | cancel id reason => exact ⟨_, further same [.cancel id reason]⟩
      | terminate id => exact ⟨_, further same [.terminate id]⟩
  | outside realm _ _ inductionHypothesis =>
      obtain ⟨earlier, same⟩ := inductionHypothesis
      exact ⟨_, further same [.outside realm]⟩

end

/-- Casts are registered with cells of their own, and others change no cells that casts in flight hold. -/
def Deed.Fair (history : History κ) : Deed κ → Prop
  | .cast context => ∀ cell ∈ context.cells, history.realm.cells.Has cell ∧ ¬ history.Holds cell
  | .outside realm => ∀ cell, history.realm.cells.Has cell →
      realm.cells.Has cell ∧ (history.Holds cell → realm.cells.read? cell = history.realm.cells.read? cell)
  | .tick | .cancel _ _ | .terminate _ => True

def Deed.brought : Deed κ → List CellId
  | .cast context => context.cells
  | .tick | .cancel _ _ | .terminate _ | .outside _ => []

/-- What a deed is to one cast alone, when it has another number: ticks, and interrupts of this cast. -/
def Deed.own (id id' : CastId) : Deed κ → Option (Deed κ)
  | .tick => some .tick
  | .cancel other reason => if other = id then some (.cancel id' reason) else none
  | .terminate other => if other = id then some (.terminate id') else none
  | .cast _ | .outside _ => none

namespace Scheduler

variable {scheduler : Scheduler κ} {cast : InFlight} {context : Context κ}

theorem find?_eq_of_mem
    (distinct : scheduler.castIds.Nodup)
    (member : cast ∈ scheduler.casts) :
    scheduler.find? cast.id = some cast := by
  cases found : scheduler.find? cast.id with
  | none =>
      rw [find?, List.find?_eq_none] at found
      exact absurd (beq_self_eq_true cast.id) (found cast member)
  | some other =>
      obtain ⟨otherMember, sameId⟩ := find?_mem found
      rw [List.inj_on_of_nodup_map distinct otherMember member sameId]

theorem cancelCast_of_mem
    (behaviour : Behaviour κ)
    (distinct : scheduler.castIds.Nodup)
    (member : cast ∈ scheduler.casts)
    (live : scheduler.arena.get? cast.active = some context)
    (reason : CancelReason)
    (realm : Realm) :
    ∃ noted, realm.SameWorld noted ∧
      scheduler.cancelCast behaviour cast.id reason realm =
        ((context.cancel behaviour reason noted).1.canceled,
          { scheduler with arena := scheduler.arena.set cast.active (context.cancel behaviour reason noted).1 },
          (context.cancel behaviour reason noted).2.leave) := by
  have active : scheduler.activeContext? cast.id = some cast.active := by
    rw [activeContext?, find?_eq_of_mem distinct member]
    rfl
  let interrupted := Event.castInterrupted cast.id reason.text true
  refine ⟨(realm.enter interrupted.spanName).emit interrupted, ((Realm.SameWorld.refl realm).enter _).emit _, ?_⟩
  simp only [cancelCast, active, live, interrupted]

theorem terminateCast_of_mem
    (distinct : scheduler.castIds.Nodup)
    (member : cast ∈ scheduler.casts)
    (live : scheduler.arena.get? cast.active = some context)
    (realm : Realm) :
    ∃ noted, realm.SameWorld noted ∧
      scheduler.terminateCast cast.id realm =
        (true, { scheduler with arena := scheduler.arena.set cast.active context.stopped }, noted) := by
  have active : scheduler.activeContext? cast.id = some cast.active := by
    rw [activeContext?, find?_eq_of_mem distinct member]
    rfl
  let interrupted := Event.castInterrupted cast.id "external" false
  refine ⟨(context.terminate ((realm.enter interrupted.spanName).emit interrupted)).2.leave,
    ((((Realm.SameWorld.refl realm).enter _).emit _).emit _).leave, ?_⟩
  simp only [terminateCast, active, live, interrupted]
  rfl

end Scheduler

namespace History

variable {history : History κ} {id other : CastId} {held : List CellId} {target : InFlight} {context : Context κ}

theorem accounts_after
    (owns : history.Owns)
    (accounts : history.Accounts)
    (behaviour : Behaviour κ)
    (deed : Deed κ) :
    (history.after behaviour deed).Owns ∧ (history.after behaviour deed).Accounts :=
  (accounts_stable behaviour .free).after ⟨owns, accounts⟩ deed

/-- No cast in flight but the one with the number holds any of these cells. -/
structure Sheltered (history : History κ) (id : CastId) (held : List CellId) : Prop where
  owns : history.Owns
  accounts : history.Accounts
  guarded : Guarded id held history.scheduler.arena history.realm.cells history.scheduler.casts

namespace Sheltered

/-- As long as a number is given to no cast in flight, it does not matter which one it is. -/
theorem readdress
    (sheltered : history.Sheltered id held)
    (absent : id ∉ history.scheduler.castIds)
    (id' : CastId) :
    history.Sheltered id' held := by
  refine ⟨sheltered.owns, sheltered.accounts, sheltered.guarded.has, ?_⟩
  intro cast member _
  exact sheltered.guarded.others cast member fun same => absent (same ▸ List.mem_map_of_mem member)

theorem cast
    (sheltered : history.Sheltered id held)
    (fair : (Deed.cast context).Fair history)
    (apart : ∀ cell ∈ context.cells, cell ∉ held) :
    (history.cast context).Sheltered id held := by
  have owns := sheltered.owns
  obtain ⟨nextOwns, nextAccounts⟩ := accounts_after owns sheltered.accounts (Behaviour.inert κ) (.cast context)
  refine ⟨nextOwns, nextAccounts, sheltered.guarded.has, ?_⟩
  intro cast member different found live cell listed
  rcases List.mem_append.mp member with old | new
  · have same := Scheduler.cast_apart owns old context history.realm _ (owns.coherent cast old).active_mem
    exact sheltered.guarded.others cast old different found (same.symm.trans live) cell listed
  · obtain rfl := List.mem_singleton.mp new
    have isNew : (history.cast context).scheduler.arena.get? history.scheduler.arena.nextId =
        some { context with parent := none } := Arena.get?_insert_self
    obtain rfl := Option.some.inj (isNew.symm.trans live)
    exact ⟨(fair cell listed).1, apart cell listed⟩

theorem outside
    (sheltered : history.Sheltered id held)
    {realm : Realm}
    (fair : (Deed.outside realm).Fair history) :
    Sheltered { history with realm } id held := by
  obtain ⟨nextOwns, nextAccounts⟩ :=
    accounts_after sheltered.owns sheltered.accounts (Behaviour.inert κ) (.outside realm)
  refine ⟨nextOwns, nextAccounts, fun cell isHeld => (fair cell (sheltered.guarded.has cell isHeld)).1, ?_⟩
  intro cast member different found live cell listed
  obtain ⟨has, foreign⟩ := sheltered.guarded.others cast member different found live cell listed
  exact ⟨(fair cell has).1, foreign⟩

/-- An interrupt of another cast. -/
theorem interrupted
    (sheltered : history.Sheltered id held)
    (member : target ∈ history.scheduler.casts)
    (different : target.id ≠ id)
    (live : history.scheduler.arena.get? target.active = some context)
    {after : Context κ}
    {realm : Realm}
    (handles : Cells.Handles context.cells history.realm.cells after.cells realm.cells) :
    Guarded id held (history.scheduler.arena.set target.active after) realm.cells history.scheduler.casts ∧
      ∀ cell ∈ held, realm.cells.read? cell = history.realm.cells.read? cell := by
  refine sheltered.guarded.by_other member different live handles ?_
  intro other otherMember _ found foundLive
  by_cases same : other.active = target.active
  · rw [same, Arena.get?_set_self live] at foundLive
    exact .inr (Option.some.inj foundLive).symm
  · rw [Arena.get?_set_of_ne same] at foundLive
    exact .inl ⟨otherMember, foundLive⟩

theorem cancel
    (discreet : behaviour.Discreet)
    (sheltered : history.Sheltered id held)
    (different : other ∈ history.scheduler.castIds → other ≠ id)
    (reason : CancelReason) :
    (history.cancel behaviour other reason).Sheltered id held ∧
      ∀ cell ∈ held,
        (history.cancel behaviour other reason).realm.cells.read? cell = history.realm.cells.read? cell := by
  have distinct := sheltered.accounts.castIds_nodup
  obtain ⟨nextOwns, nextAccounts⟩ :=
    accounts_after sheltered.owns sheltered.accounts behaviour (.cancel other reason)
  by_cases inFlight : other ∈ history.scheduler.castIds
  · obtain ⟨cast, member, rfl⟩ := List.mem_map.mp inFlight
    obtain ⟨context, live⟩ := sheltered.owns.active_live member
    obtain ⟨noted, same, canceled⟩ :=
      Scheduler.cancelCast_of_mem behaviour distinct member live reason history.realm
    have has : ∀ cell ∈ context.cells, noted.cells.Has cell := by
      intro cell listed
      rw [same.cells]
      exact (sheltered.guarded.others cast member (different inFlight) context live cell listed).1
    have handles := Context.cancel_handles discreet reason noted has
    rw [same.cells] at handles
    have guarded := sheltered.interrupted member (different inFlight) live handles
    have after : history.cancel behaviour cast.id reason = { history with
        scheduler := { history.scheduler with
          arena := history.scheduler.arena.set cast.active (context.cancel behaviour reason noted).1 }
        realm := (context.cancel behaviour reason noted).2.leave } := by
      simp only [History.cancel, canceled]
    simp only [History.after] at nextOwns nextAccounts
    rw [after] at nextOwns nextAccounts ⊢
    exact ⟨⟨nextOwns, nextAccounts, guarded.1⟩, guarded.2⟩
  · have unchanged : history.cancel behaviour other reason = history := by
      simp only [History.cancel, Scheduler.cancelCast_eq inFlight]
    rw [unchanged]
    exact ⟨sheltered, fun _ _ => rfl⟩

theorem terminate
    (sheltered : history.Sheltered id held)
    (different : other ∈ history.scheduler.castIds → other ≠ id) :
    (history.terminate other).Sheltered id held ∧
      ∀ cell ∈ held, (history.terminate other).realm.cells.read? cell = history.realm.cells.read? cell := by
  have distinct := sheltered.accounts.castIds_nodup
  obtain ⟨nextOwns, nextAccounts⟩ :=
    accounts_after sheltered.owns sheltered.accounts (Behaviour.inert κ) (.terminate other)
  by_cases inFlight : other ∈ history.scheduler.castIds
  · obtain ⟨cast, member, rfl⟩ := List.mem_map.mp inFlight
    obtain ⟨context, live⟩ := sheltered.owns.active_live member
    obtain ⟨noted, same, terminated⟩ := Scheduler.terminateCast_of_mem distinct member live history.realm
    have has : ∀ cell ∈ context.cells, history.realm.cells.Has cell := fun cell listed =>
      (sheltered.guarded.others cast member (different inFlight) context live cell listed).1
    have handles : Cells.Handles context.cells history.realm.cells context.stopped.cells history.realm.cells :=
      .refl has
    have guarded := sheltered.interrupted member (different inFlight) live handles
    have after : history.terminate cast.id = { history with
        scheduler := { history.scheduler with
          arena := history.scheduler.arena.set cast.active context.stopped }
        realm := noted } := by
      simp only [History.terminate, terminated]
    simp only [History.after] at nextOwns nextAccounts
    rw [after] at nextOwns nextAccounts ⊢
    refine ⟨⟨nextOwns, nextAccounts, ?_⟩, ?_⟩
    · rw [same.cells]
      exact guarded.1
    · rw [same.cells]
      exact guarded.2
  · have unchanged : history.terminate other = history := by
      simp only [History.terminate, Scheduler.terminateCast_eq inFlight]
    rw [unchanged]
    exact ⟨sheltered, fun _ _ => rfl⟩

/-- A tick in which the cast has no turn leaves its cells as they are. -/
theorem tick_kept
    (discreet : behaviour.Discreet)
    (sheltered : history.Sheltered id held)
    (absent : id ∉ history.scheduler.castIds) :
    (history.tick behaviour).Sheltered id held ∧
      ∀ cell ∈ held, (history.tick behaviour).realm.cells.read? cell = history.realm.cells.read? cell := by
  obtain ⟨nextOwns, nextAccounts⟩ := accounts_after sheltered.owns sheltered.accounts behaviour .tick
  have opened : Spellcast.Owns (history.scheduler.opening history.realm).arena
      ((history.scheduler.opening history.realm).staying ++ (history.scheduler.casts ++ [])) := by
    rw [List.append_nil]
    exact sheltered.owns
  have openedGuarded : Guarded id held (history.scheduler.opening history.realm).arena
      (history.scheduler.opening history.realm).realm.cells
      ((history.scheduler.opening history.realm).staying ++ (history.scheduler.casts ++ [])) := by
    rw [List.append_nil]
    exact sheltered.guarded
  have different : ∀ cast ∈ history.scheduler.casts, cast.id ≠ id :=
    fun cast member same => absent (same ▸ List.mem_map_of_mem member)
  obtain ⟨guarded, kept⟩ := Scheduler.visits_guarded discreet history.scheduler.maxSteps history.scheduler.maxForks
    opened different openedGuarded
  rw [List.append_nil] at guarded
  exact ⟨⟨nextOwns, nextAccounts, guarded⟩, kept⟩

theorem tick
    (discreet : behaviour.Discreet)
    (sheltered : history.Sheltered id held)
    (absent : id ∉ history.scheduler.castIds) :
    (history.tick behaviour).Sheltered id held :=
  (sheltered.tick_kept discreet absent).1

end Sheltered

theorem Accounts.nextCast_not_mem
    (accounts : history.Accounts) :
    history.scheduler.nextCast ∉ history.scheduler.castIds :=
  fun inFlight => Nat.lt_irrefl _ (accounts.given _ (accounts.inFlight.subset inFlight))

/-- Everything that happens is fair. -/
def Orderly (behaviour : Behaviour κ) : History κ → List (Deed κ) → Prop
  | _, [] => True
  | history, deed :: rest => deed.Fair history ∧ Orderly behaviour (history.after behaviour deed) rest

theorem Orderly.append
    {earlier later : List (Deed κ)}
    (orderly : Orderly behaviour history (earlier ++ later)) :
    Orderly behaviour history earlier ∧ Orderly behaviour (history.afterAll behaviour earlier) later := by
  induction earlier generalizing history with
  | nil =>
      exact ⟨trivial, orderly⟩
  | cons deed earlier inductionHypothesis =>
      obtain ⟨first, rest⟩ := orderly
      obtain ⟨restOrderly, laterOrderly⟩ := inductionHypothesis rest
      exact ⟨⟨first, restOrderly⟩, laterOrderly⟩

/-- All casts in flight hold cells that exist, and none of these. -/
def Spares (history : History κ) (held : List CellId) : Prop := history.Sheltered history.scheduler.nextCast held

namespace Spares

theorem after
    (discreet : behaviour.Discreet)
    (spares : history.Spares held)
    {deed : Deed κ}
    (fair : deed.Fair history)
    (apart : ∀ cell ∈ deed.brought, cell ∉ held) :
    (history.after behaviour deed).Spares held := by
  have absent := spares.accounts.nextCast_not_mem
  have different {other : CastId} (inFlight : other ∈ history.scheduler.castIds) :
      other ≠ history.scheduler.nextCast :=
    fun same => absent (same ▸ inFlight)
  cases deed with
  | cast context =>
      exact Sheltered.cast (spares.readdress absent _) fair apart
  | tick =>
      exact Sheltered.tick discreet spares absent
  | cancel other reason =>
      obtain ⟨arena, unchanged⟩ := Scheduler.cancelCast_arena behaviour history.scheduler other reason history.realm
      have scheduler : (history.cancel behaviour other reason).scheduler = { history.scheduler with arena } := unchanged
      simp only [Spares, History.after, scheduler]
      exact (Sheltered.cancel discreet spares different reason).1
  | terminate other =>
      obtain ⟨arena, unchanged⟩ := Scheduler.terminateCast_arena history.scheduler other history.realm
      have scheduler : (history.terminate other).scheduler = { history.scheduler with arena } := unchanged
      simp only [Spares, History.after, scheduler]
      exact (Sheltered.terminate spares different).1
  | outside realm =>
      exact Sheltered.outside spares fair

theorem afterAll
    (discreet : behaviour.Discreet)
    (spares : history.Spares [])
    {deeds : List (Deed κ)}
    (orderly : Orderly behaviour history deeds) :
    (history.afterAll behaviour deeds).Spares [] := by
  induction deeds generalizing history with
  | nil =>
      exact spares
  | cons deed deeds inductionHypothesis =>
      exact inductionHypothesis (spares.after discreet orderly.1 fun _ _ => List.not_mem_nil) orderly.2

theorem fewer
    {fewer : List CellId}
    (spares : history.Spares held)
    (subset : fewer ⊆ held) :
    history.Spares fewer := by
  refine ⟨spares.owns, spares.accounts, fun cell member => spares.guarded.has cell (subset member), ?_⟩
  intro cast member different context live cell listed
  obtain ⟨has, foreign⟩ := spares.guarded.others cast member different context live cell listed
  exact ⟨has, fun taken => foreign (subset taken)⟩

/-- Everything is fair as long as contexts are cast that hold cells of their own from the start. -/
theorem orderly
    (discreet : behaviour.Discreet)
    {deeds : List (Deed κ)}
    (spares : history.Spares (deeds.flatMap Deed.brought))
    (apart : deeds.Pairwise fun deed later => ∀ cell ∈ deed.brought, cell ∉ later.brought)
    (undisturbed : ∀ realm, Deed.outside realm ∉ deeds) :
    Orderly behaviour history deeds := by
  induction deeds generalizing history with
  | nil =>
      trivial
  | cons deed deeds inductionHypothesis =>
      obtain ⟨apartHere, apartLater⟩ := List.pairwise_cons.mp apart
      rw [List.flatMap_cons] at spares
      have fair : deed.Fair history := by
        cases deed with
        | cast context =>
            intro cell listed
            have brought : cell ∈ context.cells ++ deeds.flatMap Deed.brought := List.mem_append_left _ listed
            refine ⟨spares.guarded.has cell brought, ?_⟩
            rintro ⟨cast, member, found, live, holds⟩
            have different : cast.id ≠ history.scheduler.nextCast :=
              fun same => spares.accounts.nextCast_not_mem (same ▸ List.mem_map_of_mem member)
            exact (spares.guarded.others cast member different found live cell holds).2 brought
        | outside realm =>
            exact absurd List.mem_cons_self (undisturbed realm)
        | tick | cancel _ _ | terminate _ =>
            trivial
      have apartFromRest : ∀ cell ∈ deed.brought, cell ∉ deeds.flatMap Deed.brought := by
        intro cell listed inRest
        obtain ⟨later, member, brought⟩ := List.mem_flatMap.mp inRest
        exact apartHere later member cell listed brought
      have restSpares := (spares.fewer (List.subset_append_right _ _)).after discreet fair apartFromRest
      exact ⟨fair, inductionHypothesis restSpares apartLater fun realm member =>
        undisturbed realm (List.mem_cons_of_mem _ member)⟩

end Spares

theorem spares_start
    {scheduler : Scheduler κ}
    (made : scheduler.Made)
    {realm : Realm}
    (has : ∀ cell ∈ held, realm.cells.Has cell) :
    (History.start scheduler realm).Spares held := by
  have unchanged : Reaches .free (Behaviour.inert κ) (.start scheduler realm)
      (.start scheduler realm) := .origin
  refine ⟨unchanged.owns made, unchanged.accounts made, has, ?_⟩
  intro cast member
  change cast ∈ scheduler.casts at member
  rw [made.owns.2] at member
  exact absurd member List.not_mem_nil

end History

end Spellcast
