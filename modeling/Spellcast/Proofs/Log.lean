import Spellcast.Glyph
import Spellcast.Proofs.Turn

/-!
# What is logged about casts

The log only grows. `Realm.Logs` says which of the added events carry the number of a cast, and that each move of a cast
into a child stands right behind the fork that made the child. Effects, observers and manipulators say nothing about
casts (`Behaviour.ReportsNoCasts`), so whatever is done to a single context adds no such event.
-/

namespace Spellcast

namespace Event

/-- What an event says about the cast whose number it carries. -/
inductive Kind where
  | started
  | stepping
  | suspended
  | resumed
  | forked
  | limited
  | interrupted
  | completed
deriving DecidableEq

/-- The cast whose number the event carries, and what the event says about it. -/
def about? : Event → Option (CastId × Kind)
  | castStarted cast .. => some (cast, .started)
  | castStepping cast .. => some (cast, .stepping)
  | castSuspended cast _ => some (cast, .suspended)
  | castResumed cast _ => some (cast, .resumed)
  | castForked cast .. => some (cast, .forked)
  | forkLimitExceeded cast _ => some (cast, .limited)
  | castInterrupted cast .. => some (cast, .interrupted)
  | castCompleted cast .. => some (cast, .completed)
  | _ => none

/-- The cast whose number the event carries. -/
def cast? (event : Event) : Option CastId := event.about?.map (·.1)

def tells (kind : Kind) (event : Event) : Bool := event.about?.map (·.2) == some kind

/-- An event is about a cast if and only if its number is among the reported values. -/
theorem cast?_eq_some_iff
    {event : Event}
    {id : CastId} :
    event.cast? = some id ↔ ("cast_id", .nat id) ∈ event.details := by
  cases event with
  | castCompleted cast steps forks ticks reason =>
      cases reason with
      | none => simp [cast?, about?, details, eq_comm]
      | some reason => simp [cast?, about?, details, eq_comm]
  | _ => simp [cast?, about?, details, eq_comm]

end Event

/-- Every move of a cast into a child stands right behind the fork that made the child. -/
def MovesFollowForks (events : List Event) : Prop :=
  ∀ earlier id parent child forks later, events = earlier ++ .castForked id parent child forks :: later →
    ∃ before depth remaining, earlier = before ++ [.contextForked parent child depth remaining]

theorem MovesFollowForks.append
    {first second : List Event}
    (followFirst : MovesFollowForks first)
    (followSecond : MovesFollowForks second) :
    MovesFollowForks (first ++ second) := by
  intro earlier id parent child forks later split
  rcases List.append_eq_append_iff.mp split with ⟨between, isEarlier, isSecond⟩ | ⟨between, isFirst, rest⟩
  · obtain ⟨before, depth, remaining, rfl⟩ := followSecond between id parent child forks later isSecond
    exact ⟨first ++ before, depth, remaining, by rw [isEarlier, List.append_assoc]⟩
  · cases between with
    | nil =>
        obtain ⟨before, depth, remaining, nothing⟩ := followSecond [] id parent child forks later rest.symm
        exact absurd nothing.symm (by simp)
    | cons event between =>
        obtain ⟨rfl, -⟩ := List.cons.inj rest
        exact followFirst earlier id parent child forks between isFirst

theorem movesFollowForks_of_notMove
    {events : List Event}
    (noMove : ∀ event ∈ events, event.tells .forked = false) :
    MovesFollowForks events := by
  intro earlier id parent child forks later split
  have moves := noMove (.castForked id parent child forks) (by simp [split])
  cases moves

namespace Realm

variable {realm middle later : Realm} {event : Event} {entries more : List Event}

def events (realm : Realm) : List Event := realm.log.toList.map (·.event)

@[simp]
theorem events_emit (realm : Realm) (event : Event) : (realm.emit event).events = realm.events ++ [event] := by
  simp [emit, events]

@[simp]
theorem events_enter (realm : Realm) (span : String) : (realm.enter span).events = realm.events := rfl

@[simp]
theorem events_leave (realm : Realm) : realm.leave.events = realm.events := rfl

/-- The log has grown by events that carry the number of no cast. -/
def Quiet (realm later : Realm) : Prop :=
  ∃ added, later.events = realm.events ++ added ∧ ∀ event ∈ added, event.cast? = none

theorem Quiet.of_events_eq
    (same : later.events = realm.events) :
    realm.Quiet later :=
  ⟨[], by rw [same, List.append_nil], fun _ nothing => absurd nothing List.not_mem_nil⟩

theorem Quiet.refl (realm : Realm) : realm.Quiet realm := .of_events_eq rfl

theorem Quiet.trans
    (earlier : realm.Quiet middle)
    (further : middle.Quiet later) :
    realm.Quiet later := by
  obtain ⟨first, grownFirst, quietFirst⟩ := earlier
  obtain ⟨second, grownSecond, quietSecond⟩ := further
  refine ⟨first ++ second, by rw [grownSecond, grownFirst, List.append_assoc], ?_⟩
  intro event member
  rcases List.mem_append.mp member with inFirst | inSecond
  · exact quietFirst event inFirst
  · exact quietSecond event inSecond

theorem quiet_emit
    (realm : Realm)
    (silent : event.cast? = none) :
    realm.Quiet (realm.emit event) := by
  refine ⟨[event], events_emit realm event, ?_⟩
  intro other member
  rw [List.mem_singleton.mp member]
  exact silent

/-- The log has grown, and these are the added events that carry the number of a cast. -/
def Logs (realm : Realm) (entries : List Event) (later : Realm) : Prop :=
  ∃ added, later.events = realm.events ++ added ∧ added.filter (·.cast?.isSome) = entries ∧ MovesFollowForks added

theorem Quiet.logs
    (quiet : realm.Quiet later) :
    realm.Logs [] later := by
  obtain ⟨added, grown, silent⟩ := quiet
  refine ⟨added, grown, ?_, movesFollowForks_of_notMove ?_⟩
  · apply List.filter_eq_nil_iff.mpr
    intro event member
    simp [silent event member]
  · intro event member
    have nobody : event.about? = none := Option.map_eq_none_iff.mp (silent event member)
    simp [Event.tells, nobody]

theorem Logs.trans
    (earlier : realm.Logs entries middle)
    (further : middle.Logs more later) :
    realm.Logs (entries ++ more) later := by
  obtain ⟨first, grownFirst, rfl, followFirst⟩ := earlier
  obtain ⟨second, grownSecond, rfl, followSecond⟩ := further
  exact ⟨first ++ second, by rw [grownSecond, grownFirst, List.append_assoc], List.filter_append _ _,
    followFirst.append followSecond⟩

theorem Logs.quiet
    (logs : realm.Logs entries middle)
    (quiet : middle.Quiet later) :
    realm.Logs entries later := by
  have both := logs.trans quiet.logs
  rwa [List.append_nil] at both

theorem Quiet.logs_trans
    (quiet : realm.Quiet middle)
    (logs : middle.Logs entries later) :
    realm.Logs entries later :=
  quiet.logs.trans logs

/-- An event about a cast that is no move is logged by itself. -/
theorem logs_emit
    (realm : Realm)
    (spoken : event.cast?.isSome = true)
    (noMove : event.tells .forked = false) :
    realm.Logs [event] (realm.emit event) := by
  refine ⟨[event], events_emit realm event, by simp [spoken], ?_⟩
  apply movesFollowForks_of_notMove
  intro other member
  rw [List.mem_singleton.mp member]
  exact noMove

theorem logs_enter_emit
    (realm : Realm)
    (span : String)
    (spoken : event.cast?.isSome = true)
    (noMove : event.tells .forked = false) :
    realm.Logs [event] ((realm.enter span).emit event) :=
  (Quiet.of_events_eq rfl).logs_trans (logs_emit (realm.enter span) spoken noMove)

/-- A move is logged behind the fork. -/
theorem logs_move
    (realm : Realm)
    (id : CastId)
    (parent child depth remaining forks : Nat)
    (span : String) :
    realm.Logs [.castForked id parent child forks]
      (((realm.emit (.contextForked parent child depth remaining)).enter span).emit
        (.castForked id parent child forks)) := by
  refine ⟨[.contextForked parent child depth remaining, .castForked id parent child forks], by simp, rfl, ?_⟩
  intro earlier otherId otherParent otherChild otherForks later split
  match earlier, split with
  | [_], split =>
      obtain ⟨rfl, rest⟩ := List.cons.inj split
      obtain ⟨same, -⟩ := List.cons.inj rest
      cases same
      exact ⟨[], depth, remaining, rfl⟩
  | _ :: _ :: _, split => simp at split

/-- What has been logged about a cast since the log had so many events. -/
def told (since : Nat) (realm : Realm) (id : CastId) : List Event :=
  (realm.events.drop since).filter (·.cast? == some id)

variable {since : Nat} {id : CastId}

theorem Logs.old
    (logs : realm.Logs entries later)
    (old : since ≤ realm.events.length) :
    since ≤ later.events.length := by
  obtain ⟨added, grown, -⟩ := logs
  rw [grown, List.length_append]
  exact Nat.le_add_right_of_le old

theorem Logs.told_eq
    (logs : realm.Logs entries later)
    (old : since ≤ realm.events.length)
    (id : CastId) :
    later.told since id = realm.told since id ++ entries.filter (·.cast? == some id) := by
  obtain ⟨added, grown, rfl, -⟩ := logs
  rw [told, grown, List.drop_append_of_le_length old, List.filter_append, List.filter_filter, told]
  congr 1
  apply List.filter_congr
  intro event _
  cases event.cast? with
  | none => rfl
  | some other => simp

theorem Logs.told_own
    (logs : realm.Logs entries later)
    (old : since ≤ realm.events.length)
    (about : ∀ event ∈ entries, event.cast? = some id) :
    later.told since id = realm.told since id ++ entries := by
  have own : entries.filter (·.cast? == some id) = entries := by
    apply List.filter_eq_self.mpr
    intro event member
    rw [about event member]
    exact beq_self_eq_true _
  rw [logs.told_eq old, own]

theorem Logs.told_other
    (logs : realm.Logs entries later)
    (old : since ≤ realm.events.length)
    (about : ∀ event ∈ entries, event.cast? ≠ some id) :
    later.told since id = realm.told since id := by
  have nothing : entries.filter (·.cast? == some id) = [] := by
    apply List.filter_eq_nil_iff.mpr
    intro event member same
    exact about event member (beq_iff_eq.mp same)
  rw [logs.told_eq old, nothing, List.append_nil]

theorem Logs.told_filter
    {kind : Event.Kind}
    (logs : realm.Logs entries later)
    (old : since ≤ realm.events.length)
    (otherKind : ∀ event ∈ entries, event.tells kind = false)
    (id : CastId) :
    (later.told since id).filter (·.tells kind) = (realm.told since id).filter (·.tells kind) := by
  have nothing : (entries.filter (·.cast? == some id)).filter (·.tells kind) = [] := by
    apply List.filter_eq_nil_iff.mpr
    intro event member
    rw [otherKind event (List.mem_filter.mp member).1]
    exact Bool.false_ne_true
  rw [logs.told_eq old, List.filter_append, nothing, List.append_nil]

end Realm

/-- No effect, no observer and no manipulator logs anything about a cast. -/
structure Behaviour.ReportsNoCasts {κ : Type} (behaviour : Behaviour κ) : Prop where
  cast : ∀ code context (realm : Realm), realm.Quiet (behaviour.cast code context realm).2.2
  notify : ∀ code context (realm : Realm), realm.Quiet (behaviour.notify code context realm).2.2
  wantsPush : ∀ code context (realm : Realm), realm.Quiet (behaviour.wantsPush code context realm).2
  propose : ∀ code context (realm : Realm), realm.Quiet (behaviour.propose code context realm).2

namespace Context

variable {κ : Type} {behaviour : Behaviour κ}

theorem cancel_quiet
    (silent : behaviour.ReportsNoCasts)
    (reason : CancelReason)
    (context : Context κ)
    (realm : Realm) :
    realm.Quiet (context.cancel behaviour reason realm).2 := by
  let canceled : Context κ := { context with canceled := true, cancelReason := some reason }
  have told : ∀ instruction ∈ canceled.remainder.instructions, ∀ observer, instruction.observer = some observer →
      ∀ (told : Context κ) before, realm.Quiet before → realm.Quiet (behaviour.notify observer told before).2.2 :=
    fun _ _ observer _ told before quiet => quiet.trans (silent.notify observer told before)
  have walked := walk_lasts told { context := canceled, realm, told := 0, absorbed := false } (.refl realm)
  exact walked.trans (Realm.quiet_emit _ rfl)

theorem terminate_quiet
    (context : Context κ)
    (realm : Realm) :
    realm.Quiet (context.terminate realm).2 :=
  Realm.quiet_emit realm rfl

theorem consult_quiet
    (silent : behaviour.ReportsNoCasts)
    (context : Context κ)
    (position : Nat)
    (instructions : List (Instruction κ))
    (realm : Realm) :
    realm.Quiet (consult behaviour context position instructions realm).2 := by
  induction instructions generalizing position realm with
  | nil => exact .refl realm
  | cons instruction rest inductionHypothesis =>
      cases manipulates : instruction.manipulator with
      | none =>
          rw [consult, manipulates]
          exact inductionHypothesis (position + 1) realm
      | some manipulator =>
          have asked := silent.wantsPush manipulator context realm
          rcases wish : behaviour.wantsPush manipulator context realm with ⟨wants, asking⟩
          rw [wish] at asked
          have proposed := silent.propose manipulator context asking
          rcases answer : behaviour.propose manipulator context asking with ⟨child, answering⟩
          rw [answer] at proposed
          have both : realm.Quiet answering := asked.trans proposed
          have goesOn := both.trans (inductionHypothesis (position + 1) answering)
          simp only [consult, manipulates, wish, answer]
          split
          · exact both.trans (Realm.quiet_emit _ rfl)
          · exact goesOn

theorem makeChild_quiet
    (silent : behaviour.ReportsNoCasts)
    (context : Context κ)
    (self : ContextId)
    (realm : Realm) :
    realm.Quiet (context.makeChild behaviour self realm).2 := by
  have consulted := consult_quiet silent context 0 context.remainder.instructions realm
  rw [makeChild]
  split
  · next asked =>
    rw [asked] at consulted
    exact consulted
  · next asked =>
    rw [asked] at consulted
    exact consulted

end Context

/-- Glyphs say nothing about casts. -/
theorem Glyph.behaviour_reportsNoCasts : Glyph.behaviour.ReportsNoCasts where
  cast glyph context realm := by
    cases glyph with
    | mark counter =>
        simp only [Glyph.behaviour, Glyph.cast, castMark]
        split
        · exact .of_events_eq rfl
        · exact Realm.quiet_emit { realm with cells := _ } rfl
    | jump strength => exact .of_events_eq rfl
    | delay ticks => exact .refl realm
    | ward => exact .refl realm
    | echo id times => exact .refl realm
  notify glyph context realm := by
    cases glyph with
    | ward => exact .refl realm
    | jump strength => exact .refl realm
    | delay ticks => exact .refl realm
    | mark counter => exact .refl realm
    | echo id times => exact .refl realm
  wantsPush _ _ realm := .refl realm
  propose _ _ realm := .refl realm

end Spellcast
