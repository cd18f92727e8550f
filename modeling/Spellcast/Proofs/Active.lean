import Spellcast.Proofs.Act
import Spellcast.Proofs.Simulation

/-!
# What the active contexts have in common

A property of contexts that survives everything that can happen to the active context of a cast (`Preserves`) holds of
the active contexts of all casts in flight, as long as it holds of the contexts that are cast. So it holds of every
context in which an instruction runs.
-/

namespace Spellcast

variable {κ : Type} {behaviour : Behaviour κ} {maxSteps maxForks : Nat} {others : List InFlight}
  {property : Context κ → Prop}

/-- The property survives everything that can happen to an active context. -/
structure Behaviour.Preserves (behaviour : Behaviour κ) (property : Context κ → Prop) : Prop where
  registered : ∀ context, property context → property { context with parent := none }
  suspended : ∀ context suspension, property context → property { context with suspension }
  ran : ∀ context instruction, context.program.get? context.counter = some instruction → ∀ realm,
    property context → property (behaviour.cast instruction.effect.code context.stepped realm).2.1
  stopped : ∀ context, property context → property context.stopped
  canceled : ∀ context reason realm, property context → property (context.cancel behaviour reason realm).1
  child : ∀ context self realm, property context → property (context.makeChild behaviour self realm).1.context

namespace Turn

variable {turn : Turn κ} {context : Context κ}

def Active (property : Context κ → Prop) (turn : Turn κ) : Prop :=
  ∀ context, turn.arena.get? turn.cast.active = some context → property context

theorem active_of_live
    (live : turn.arena.get? turn.cast.active = some context)
    (holds : property context) :
    turn.Active property := by
  intro other otherLive
  rw [live] at otherLive
  exact Option.some.inj otherLive ▸ holds

theorem Active.wake
    (preserves : behaviour.Preserves property)
    (live : turn.arena.get? turn.cast.active = some context)
    (active : turn.Active property) :
    (turn.wake context).1.Active property := by
  have holds := active context live
  have cases := wake_cases turn context
  generalize (turn.wake context).1 = woken at cases ⊢
  generalize (turn.wake context).2 = waits at cases
  cases cases with
  | awake _ =>
      exact active
  | waits _ _ _ =>
      exact active_of_live (Arena.get?_set_self live) (preserves.suspended context _ holds)
  | resumes _ _ _ =>
      exact active_of_live (Arena.get?_set_self live) (preserves.suspended context _ holds)

theorem Active.step
    (preserves : behaviour.Preserves property)
    (owns : Owns turn.arena (turn.cast :: others))
    (active : turn.Active property) :
    (turn.step behaviour maxForks).1.Active property := by
  obtain ⟨context, live⟩ := active_live owns
  have isKnown := known owns
  have cases := step_cases behaviour maxForks live isKnown
  generalize (turn.step behaviour maxForks).1 = after at cases ⊢
  generalize (turn.step behaviour maxForks).2 = goesOn at cases
  have ran {context after : Context κ} {instruction : Instruction κ} {resolution : Resolution} {realm : Realm}
      (runs : turn.Runs behaviour context instruction resolution after realm) :
      property after := by
    have answered := preserves.ran context instruction runs.found (turn.castingRealm behaviour instruction)
      (active context runs.live)
    rw [runs.cast] at answered
    exact answered
  cases cases with
  | exhausted _ _ =>
      exact active
  | proceed runs =>
      exact active_of_live (ran_live runs.live) (ran runs)
  | limit runs _ =>
      exact active_of_live (Arena.get?_set_self (ran_live runs.live)) (preserves.stopped _ (ran runs))
  | @fork _ after _ realm runs _ =>
      have ranKnown : (turn.ran after realm).cast.active ≠ (turn.ran after realm).arena.nextId := isKnown
      exact active_of_live (movedOn_live ranKnown after) (preserves.child _ _ _ (ran runs))

theorem active_lasting
    (preserves : behaviour.Preserves property)
    (maxForks : Nat)
    (others : List InFlight) :
    Lasting behaviour maxForks others (Active property) where
  announced _ active := active
  wake _ _ _ live active := active.wake preserves live
  step _ owns active := active.step preserves owns
  counted _ active := active
  left _ active := active

/-- Instructions only run in contexts with the property. -/
theorem acts_recounting
    (preserves : behaviour.Preserves property)
    (maxForks : Nat)
    (others : List InFlight) :
    Recounting behaviour maxForks others fun acts turn =>
      (∀ act ∈ acts, property act.context) ∧ turn.Active property where
  announced _ _ holds := holds
  wake _ _ _ _ live holds := ⟨holds.1, holds.2.wake preserves live⟩
  step acts turn owns holds := by
    refine ⟨?_, holds.2.step preserves owns⟩
    intro act member
    rcases List.mem_append.mp member with old | new
    · exact holds.1 act old
    · exact holds.2 act.context (live_of_act? (Option.mem_toList.mp new))
  counted _ _ holds := holds
  left _ _ holds := holds

end Turn

namespace History

variable {rules : Rules κ} {history : History κ} {context : Context κ}

def Active (property : Context κ → Prop) (history : History κ) : Prop :=
  ∀ cast ∈ history.scheduler.casts, ∀ context,
    history.scheduler.arena.get? cast.active = some context → property context

/-- An active context is exchanged for another one. -/
theorem Active.set
    {target : InFlight}
    {held : Context κ}
    (active : history.Active property)
    (live : history.scheduler.arena.get? target.active = some held)
    (holds : property context) :
    ∀ cast ∈ history.scheduler.casts, ∀ other,
      (history.scheduler.arena.set target.active context).get? cast.active = some other → property other := by
  intro cast member other otherLive
  by_cases exchanged : cast.active = target.active
  · rw [exchanged, Arena.get?_set_self live] at otherLive
    exact Option.some.inj otherLive ▸ holds
  · rw [Arena.get?_set_of_ne exchanged] at otherLive
    exact active cast member other otherLive

theorem Active.cast
    (preserves : behaviour.Preserves property)
    (owns : history.Owns)
    (active : history.Active property)
    (holds : property context) :
    (history.cast context).Active property := by
  intro cast member other live
  rcases List.mem_append.mp member with old | new
  · have same := Scheduler.cast_apart owns old context history.realm _ (owns.coherent cast old).active_mem
    exact active cast old other (same.symm.trans live)
  · obtain rfl := List.mem_singleton.mp new
    have isNew : (history.cast context).scheduler.arena.get? history.scheduler.arena.nextId =
        some { context with parent := none } := Arena.get?_insert_self
    obtain rfl := Option.some.inj (isNew.symm.trans live)
    exact preserves.registered context holds

/-- A turn of a tick starts from an active context with the property. -/
theorem Active.turned
    {cast : InFlight}
    {turn : Turn κ}
    (active : history.Active property)
    (owns : history.Owns)
    (member : cast ∈ history.scheduler.casts)
    (turned : Scheduler.Turned behaviour history.scheduler history.realm cast turn) :
    turn.Active property := by
  obtain ⟨held, live⟩ := owns.active_live member
  exact Turn.active_of_live (turned_live turned owns member live) (active _ member _ live)

theorem Active.tick
    (preserves : behaviour.Preserves property)
    (owns : history.Owns)
    (accounts : history.Accounts)
    (active : history.Active property) :
    (history.tick behaviour).Active property := by
  intro cast member context live
  obtain ⟨before, beforeMember, -, turn, after, turned, taken, rfl⟩ :=
    Scheduler.exists_turned_of_mem owns accounts.castIds_nodup member
  obtain ⟨others, turnOwns⟩ := turned.owns
  have ended := (Turn.active_lasting preserves history.scheduler.maxForks others).take history.scheduler.maxSteps
    turnOwns (active.turned owns beforeMember turned)
  have keepsTurn := Turn.keeps_take behaviour history.scheduler.maxSteps history.scheduler.maxForks turnOwns
  rw [taken] at ended keepsTurn
  have isActive := (keepsTurn.owns.coherent _ List.mem_cons_self).active_mem
  exact ended context (((turned.running after taken).2 _ isActive).symm.trans live)

theorem Active.cancel
    (preserves : behaviour.Preserves property)
    (active : history.Active property)
    (id : CastId)
    (reason : CancelReason) :
    (history.cancel behaviour id reason).Active property := by
  simp only [History.Active, History.cancel]
  rcases Scheduler.cancelCast_cases behaviour history.scheduler id reason history.realm with
    unchanged | ⟨target, found, context, noted, live, canceled⟩
  · rw [unchanged]
    exact active
  · have targetMember := (Scheduler.find?_mem found).1
    rw [canceled]
    exact active.set live (preserves.canceled _ reason noted (active target targetMember context live))

theorem Active.terminate
    (preserves : behaviour.Preserves property)
    (active : history.Active property)
    (id : CastId) :
    (history.terminate id).Active property := by
  simp only [History.Active, History.terminate]
  rcases Scheduler.terminateCast_cases history.scheduler id history.realm with
    unchanged | ⟨target, found, context, live, terminated⟩
  · rw [unchanged]
    exact active
  · have targetMember := (Scheduler.find?_mem found).1
    rw [terminated]
    exact active.set live (preserves.stopped _ (active target targetMember context live))

/-- Every instruction that a tick runs runs in a context with the property. -/
theorem Active.acts
    (preserves : behaviour.Preserves property)
    (owns : history.Owns)
    (accounts : history.Accounts)
    (active : history.Active property) :
    ∀ entry ∈ history.scheduler.acts behaviour history.realm, property entry.2.context := by
  intro entry member
  obtain ⟨earlier, cast, later, split, -, ran⟩ := Scheduler.exists_split_of_mem_traced member
  have castMember : cast ∈ history.scheduler.casts := by
    rw [split]
    exact List.mem_append_right _ List.mem_cons_self
  have turned := Scheduler.turned_of_split behaviour owns accounts.castIds_nodup split history.realm
  obtain ⟨others, turnOwns⟩ := turned.owns
  have recounted := (Turn.acts_recounting preserves history.scheduler.maxForks others).take
    history.scheduler.maxSteps turnOwns
    ⟨fun _ nothing => absurd nothing List.not_mem_nil, active.turned owns castMember turned⟩
  exact recounted.1 entry.2 ran

end History

/-- If only contexts with the property are cast, then all active contexts have it. -/
theorem Reaches.active
    {rules : Rules κ}
    {scheduler : Scheduler κ}
    {realm : Realm}
    {history : History κ}
    (preserves : behaviour.Preserves property)
    (made : scheduler.Made)
    (allowed : ∀ context, rules.calls (.cast context) → property context)
    (reached : Reaches rules behaviour (.start scheduler realm) history) :
    history.Active property := by
  have start : Reaches rules behaviour (.start scheduler realm) (.start scheduler realm) := .origin
  have initially : (History.start scheduler realm).Active property := by
    intro cast member
    have noCasts : scheduler.casts = [] := made.owns.2
    exact absurd (noCasts ▸ member) List.not_mem_nil
  have stable := History.accounts_stable behaviour rules
  refine (reached.lasts (fun history => (history.Owns ∧ history.Accounts) ∧ history.Active property)
    ⟨⟨start.owns made, start.accounts made⟩, initially⟩ ?_ ?_ ?_ ?_ ?_).2
  · intro history context isAllowed holds
    exact ⟨stable.cast history context holds.1, holds.2.cast preserves holds.1.1 (allowed context isAllowed)⟩
  · intro history holds
    exact ⟨stable.tick history holds.1, holds.2.tick preserves holds.1.1 holds.1.2⟩
  · intro history id reason isAllowed holds
    exact ⟨stable.cancel history id reason isAllowed holds.1, holds.2.cancel preserves id reason⟩
  · intro history id isAllowed holds
    exact ⟨stable.terminate history id isAllowed holds.1, holds.2.terminate preserves id⟩
  · intro history realm holds
    exact ⟨stable.outside history realm holds.1, holds.2⟩

end Spellcast
