import Spellcast.Glyph
import Spellcast.Proofs.Attachment
import Spellcast.Proofs.Simulation

/-!
# Who holds which cells

Attachments lie in cells that everything in a realm has in common. Whoever is handed a context can change the cells
that this context holds, and can make new ones, but has no way to any other cell. `Handles` says so of a change of the
cells, and `Behaviour.Discreet` of instructions. `Guarded` describes cells that nobody else in flight holds; they stay
as they are while other casts take their turns.
-/

namespace Spellcast

variable {κ : Type} {behaviour : Behaviour κ}

namespace Cells

variable {cells : Cells} {id : CellId}

/-- Somebody who held some cells has changed no others, and holds now at most those and new ones. -/
structure Handles (held : List CellId) (cells : Cells) (held' : List CellId) (cells' : Cells) : Prop where
  grown : ∀ id, cells.Has id → cells'.Has id
  spared : ∀ id, cells.Has id → id ∉ held → cells'.read? id = cells.read? id
  held : ∀ id ∈ held', cells'.Has id ∧ (id ∈ held ∨ ¬ cells.Has id)

namespace Handles

variable {held held' held'' : List CellId} {cells' cells'' : Cells}

theorem refl
    (has : ∀ id ∈ held, cells.Has id) :
    Handles held cells held cells :=
  ⟨fun _ has => has, fun _ _ _ => rfl, fun id member => ⟨has id member, .inl member⟩⟩

theorem trans
    (earlier : Handles held cells held' cells')
    (later : Handles held' cells' held'' cells'') :
    Handles held cells held'' cells'' where
  grown id has := later.grown id (earlier.grown id has)
  spared id has foreign := by
    have foreign' : id ∉ held' := by
      intro member
      rcases (earlier.held id member).2 with old | new
      · exact foreign old
      · exact new has
    exact (later.spared id (earlier.grown id has) foreign').trans (earlier.spared id has foreign)
  held id member := by
    obtain ⟨has, origin⟩ := later.held id member
    refine ⟨has, ?_⟩
    rcases origin with fromMiddle | new
    · exact (earlier.held id fromMiddle).2
    · exact .inr fun old => new (earlier.grown id old)

/-- What somebody else does who held the same cells at the start does not matter. -/
theorem beside
    (own : Handles held cells held' cells')
    (beside : Handles held cells' held'' cells'') :
    Handles held cells held' cells'' where
  grown id has := beside.grown id (own.grown id has)
  spared id has foreign := (beside.spared id (own.grown id has) foreign).trans (own.spared id has foreign)
  held id member := ⟨beside.grown id (own.held id member).1, (own.held id member).2⟩

theorem allocate
    (has : ∀ id ∈ held, cells.Has id)
    (value : CellValue) :
    Handles held cells (held ++ [(cells.allocate value).1]) (cells.allocate value).2 where
  grown _ old := has_allocate_of_has old
  spared _ old _ := read?_allocate_of_has old
  held id member := by
    rcases List.mem_append.mp member with old | new
    · exact ⟨has_allocate_of_has (has id old), .inl old⟩
    · obtain rfl := List.mem_singleton.mp new
      exact ⟨has_iff.mpr ⟨value, read?_allocate_self⟩, .inr not_has_allocated⟩

theorem add
    (has : ∀ id ∈ held, cells.Has id)
    (member : id ∈ held)
    (amount : Nat) :
    Handles held cells held (cells.add id amount) where
  grown _ old := has_add.mpr old
  spared _ _ foreign := read?_add_of_ne fun same => foreign (same ▸ member)
  held other otherMember := ⟨has_add.mpr (has other otherMember), .inl otherMember⟩

end Handles

end Cells

def Context.cells (context : Context κ) : List CellId := context.attachments.entries.map (·.2)

/-- Effects, observers and manipulators change no cells but those of the context that they are handed, and leave no
other old cells in it. -/
structure Behaviour.Discreet (behaviour : Behaviour κ) : Prop where
  cast (code : κ) {context : Context κ} {realm : Realm} :
    (∀ id ∈ context.cells, realm.cells.Has id) →
      let answer := behaviour.cast code context realm
      Cells.Handles context.cells realm.cells answer.2.1.cells answer.2.2.cells
  notify (code : κ) {context : Context κ} {realm : Realm} :
    (∀ id ∈ context.cells, realm.cells.Has id) →
      let answer := behaviour.notify code context realm
      Cells.Handles context.cells realm.cells answer.2.1.cells answer.2.2.cells
  wantsPush (code : κ) {context : Context κ} {realm : Realm} :
    (∀ id ∈ context.cells, realm.cells.Has id) →
      Cells.Handles context.cells realm.cells context.cells (behaviour.wantsPush code context realm).2.cells
  propose (code : κ) {context : Context κ} {realm : Realm} :
    (∀ id ∈ context.cells, realm.cells.Has id) →
      let answer := behaviour.propose code context realm
      Cells.Handles context.cells realm.cells context.cells answer.2.cells ∧
        ∀ child ∈ answer.1, Cells.Handles context.cells realm.cells child.cells answer.2.cells

namespace Context

variable {context : Context κ} {realm : Realm}

theorem cancel_handles
    (discreet : behaviour.Discreet)
    (reason : CancelReason)
    (realm : Realm)
    (has : ∀ id ∈ context.cells, realm.cells.Has id) :
    Cells.Handles context.cells realm.cells (context.cancel behaviour reason realm).1.cells
      (context.cancel behaviour reason realm).2.cells := by
  let handled (told : Context κ) (noted : Realm) : Prop :=
    Cells.Handles context.cells realm.cells told.cells noted.cells
  have kept (observer : κ) (told : Context κ) (noted : Realm) (handles : handled told noted) :
      handled (behaviour.notify observer told noted).2.1 (behaviour.notify observer told noted).2.2 :=
    handles.trans (discreet.notify observer fun id member => (handles.held id member).1)
  exact walk_lasts (fun _ _ observer _ => kept observer) ⟨_, realm, 0, false⟩ (.refl has)

theorem consult_handles
    (discreet : behaviour.Discreet)
    (position : Nat)
    (instructions : List (Instruction κ))
    (has : ∀ id ∈ context.cells, realm.cells.Has id) :
    let answer := consult behaviour context position instructions realm
    Cells.Handles context.cells realm.cells context.cells answer.2.cells ∧
      ∀ chosen ∈ answer.1, Cells.Handles context.cells realm.cells chosen.2.cells answer.2.cells := by
  induction instructions generalizing position realm with
  | nil =>
      exact ⟨.refl has, fun _ member => absurd member (Option.not_mem_none _)⟩
  | cons instruction rest inductionHypothesis =>
      cases manipulates : instruction.manipulator with
      | none =>
          simp only [consult, manipulates]
          exact inductionHypothesis (position + 1) has
      | some manipulator =>
          have asked := discreet.wantsPush manipulator has
          rcases answer : behaviour.wantsPush manipulator context realm with ⟨wants, askedRealm⟩
          rw [answer] at asked
          have offered := discreet.propose manipulator fun id member => (asked.held id member).1
          rcases offer : behaviour.propose manipulator context askedRealm with ⟨proposed, offeredRealm⟩
          rw [offer] at offered
          have passed : Cells.Handles context.cells realm.cells context.cells offeredRealm.cells :=
            asked.trans offered.1
          have stillHas : ∀ id ∈ context.cells, offeredRealm.cells.Has id :=
            fun id member => (passed.held id member).1
          obtain ⟨later, laterChild⟩ := inductionHypothesis (position + 1) stillHas
          simp only [consult, manipulates, answer, offer]
          split
          · next child =>
            refine ⟨passed, ?_⟩
            intro chosen member
            obtain rfl : (position, child) = chosen := Option.some.inj member
            exact asked.trans (offered.2 child rfl)
          · exact ⟨passed.trans later, fun chosen member => passed.trans (laterChild chosen member)⟩

theorem makeChild_handles
    (discreet : behaviour.Discreet)
    (self : ContextId)
    (has : ∀ id ∈ context.cells, realm.cells.Has id) :
    let made := context.makeChild behaviour self realm
    Cells.Handles context.cells realm.cells made.1.context.cells made.2.cells := by
  have consulted := consult_handles discreet 0 context.remainder.instructions has
  simp only [makeChild]
  rcases chosen : consult behaviour context 0 context.remainder.instructions realm with ⟨_ | ⟨position, child⟩, after⟩
  · rw [chosen] at consulted
    exact consulted.1
  · rw [chosen] at consulted
    exact consulted.2 (position, child) rfl

end Context

namespace Turn

variable {maxForks : Nat} {others : List InFlight} {held : List CellId} {cells : Cells} {turn : Turn κ}
  {context : Context κ}

/-- Since the cells were like this, a turn that held some of them has handled no others. -/
def Handled (held : List CellId) (cells : Cells) (turn : Turn κ) : Prop :=
  ∃ context, turn.arena.get? turn.cast.active = some context ∧ Cells.Handles held cells context.cells turn.realm.cells

theorem Handled.movedOn
    (discreet : behaviour.Discreet)
    (known : turn.cast.active ≠ turn.arena.nextId)
    (handles : Cells.Handles held cells context.cells turn.realm.cells) :
    (turn.movedOn behaviour context).Handled held cells := by
  refine ⟨_, movedOn_live known context, ?_⟩
  have has : ∀ id ∈ context.cells, turn.realm.cells.Has id := fun id member => (handles.held id member).1
  have child : Cells.Handles context.cells turn.realm.cells (turn.madeChild behaviour context).1.cells
      (turn.madeChild behaviour context).2.cells :=
    Context.makeChild_handles discreet turn.cast.active has
  -- the parent is canceled after the child was made, and still holds what it held
  have canceled (noted : Realm) (same : noted.cells = (turn.madeChild behaviour context).2.cells) :
      Cells.Handles context.cells (turn.madeChild behaviour context).2.cells
        (context.cancel behaviour .newContext noted).1.cells
        (context.cancel behaviour .newContext noted).2.leave.cells := by
    have stillHas : ∀ id ∈ context.cells, noted.cells.Has id := by
      intro id member
      rw [same]
      exact child.grown id (has id member)
    rw [← same]
    exact Context.cancel_handles discreet .newContext noted stillHas
  exact handles.trans (child.beside (canceled _ rfl))

theorem Handled.step
    (discreet : behaviour.Discreet)
    (maxForks : Nat)
    (owns : Owns turn.arena (turn.cast :: others))
    (handled : turn.Handled held cells) :
    (turn.step behaviour maxForks).1.Handled held cells := by
  obtain ⟨context, live, handles⟩ := handled
  have ran {after : Context κ} {instruction : Instruction κ} {resolution : Resolution} {realm : Realm}
      (runs : turn.Runs behaviour context instruction resolution after realm) :
      Cells.Handles held cells after.cells realm.cells := by
    have has : ∀ id ∈ context.stepped.cells, (turn.castingRealm behaviour instruction).cells.Has id :=
      fun id member => (handles.held id member).1
    have answered := discreet.cast instruction.effect.code has
    rw [runs.cast] at answered
    exact handles.trans answered
  have cases := step_cases behaviour maxForks live (known owns)
  generalize (turn.step behaviour maxForks).1 = after at cases ⊢
  generalize (turn.step behaviour maxForks).2 = goesOn at cases
  cases cases with
  | exhausted _ _ =>
      exact ⟨context, live, handles⟩
  | @proceed runContext after _ realm runs =>
      obtain rfl : context = runContext := Option.some.inj (live.symm.trans runs.live)
      exact ⟨after, ran_live live, ran runs⟩
  | @limit runContext after _ realm runs _ =>
      obtain rfl : context = runContext := Option.some.inj (live.symm.trans runs.live)
      have handlesAfter := ran runs
      exact ⟨after.stopped, Arena.get?_set_self (ran_live live), handlesAfter⟩
  | @fork runContext after _ realm runs _ =>
      obtain rfl : context = runContext := Option.some.inj (live.symm.trans runs.live)
      have ranOwns : Owns (turn.ran after realm).arena ((turn.ran after realm).cast :: others) := owns.set _ _
      exact Handled.movedOn discreet (known ranOwns) (ran runs)

theorem handled_lasting
    (discreet : behaviour.Discreet)
    (maxForks : Nat)
    (others : List InFlight)
    (held : List CellId)
    (cells : Cells) :
    Lasting behaviour maxForks others (Handled (κ := κ) held cells) where
  announced _ handled := handled
  wake turn context _ live handled := by
    obtain ⟨same, sameLive, handles⟩ := handled
    obtain rfl : same = context := Option.some.inj (sameLive.symm.trans live)
    have cases := wake_cases turn same
    generalize (turn.wake same).1 = woken at cases ⊢
    generalize (turn.wake same).2 = waits at cases
    cases cases with
    | awake _ => exact ⟨same, live, handles⟩
    | waits _ _ _ => exact ⟨_, Arena.get?_set_self live, handles⟩
    | resumes _ _ _ => exact ⟨_, Arena.get?_set_self live, handles⟩
  step turn owns handled := handled.step discreet maxForks owns
  counted _ handled := handled
  left _ handled := handled

end Turn

/-- These cells exist, and no cast in flight holds any of them but the one with the number. -/
structure Guarded (id : CastId) (held : List CellId) (arena : Arena κ) (cells : Cells) (casts : List InFlight) :
    Prop where
  has : ∀ cell ∈ held, cells.Has cell
  others : ∀ cast ∈ casts, cast.id ≠ id → ∀ context, arena.get? cast.active = some context →
    ∀ cell ∈ context.cells, cells.Has cell ∧ cell ∉ held

namespace Guarded

variable {id : CastId} {held held' : List CellId} {arena arena' : Arena κ} {cells cells' : Cells}
  {casts casts' : List InFlight}

/-- The cast itself may change its cells and come to hold new ones. -/
theorem by_own
    (guarded : Guarded id held arena cells casts)
    (handles : Cells.Handles held cells held' cells')
    (others : ∀ cast ∈ casts', cast.id ≠ id → cast ∈ casts ∧ arena'.get? cast.active = arena.get? cast.active) :
    Guarded id held' arena' cells' casts' where
  has cell member := (handles.held cell member).1
  others cast member different context live cell listed := by
    obtain ⟨oldMember, same⟩ := others cast member different
    obtain ⟨has, foreign⟩ := guarded.others cast oldMember different context (same.symm.trans live) cell listed
    refine ⟨handles.grown cell has, ?_⟩
    intro taken
    rcases (handles.held cell taken).2 with old | new
    · exact foreign old
    · exact new has

/-- Another cast may do what it likes with its own cells. -/
theorem by_other
    {other : InFlight}
    {context after : Context κ}
    (guarded : Guarded id held arena cells casts)
    (member : other ∈ casts)
    (different : other.id ≠ id)
    (live : arena.get? other.active = some context)
    (handles : Cells.Handles context.cells cells after.cells cells')
    (others : ∀ cast ∈ casts', cast.id ≠ id → ∀ found, arena'.get? cast.active = some found →
      (cast ∈ casts ∧ arena.get? cast.active = some found) ∨ found = after) :
    Guarded id held arena' cells' casts' ∧ ∀ cell ∈ held, cells'.read? cell = cells.read? cell := by
  have apart := guarded.others other member different context live
  refine ⟨⟨fun cell isHeld => handles.grown cell (guarded.has cell isHeld), ?_⟩, ?_⟩
  · intro cast castMember castDifferent found foundLive cell listed
    rcases others cast castMember castDifferent found foundLive with ⟨oldMember, oldLive⟩ | rfl
    · obtain ⟨has, foreign⟩ := guarded.others cast oldMember castDifferent found oldLive cell listed
      exact ⟨handles.grown cell has, foreign⟩
    · obtain ⟨has, origin⟩ := handles.held cell listed
      refine ⟨has, ?_⟩
      intro isHeld
      rcases origin with old | new
      · exact (apart cell old).2 isHeld
      · exact new (guarded.has cell isHeld)
  · intro cell isHeld
    exact handles.spared cell (guarded.has cell isHeld) fun listed => (apart cell listed).2 isHeld

end Guarded

namespace Scheduler

variable {maxSteps maxForks : Nat} {round : Round κ} {cast : InFlight} {casts rest : List InFlight} {id : CastId}
  {held : List CellId} {context : Context κ}

theorem visit_cells
    (behaviour : Behaviour κ)
    (maxSteps maxForks : Nat) :
    (visit behaviour maxSteps maxForks round cast).realm.cells =
      ((round.turn cast).take behaviour maxSteps maxForks).1.realm.cells := by
  rcases taken : (round.turn cast).take behaviour maxSteps maxForks with ⟨turn, verdict⟩
  cases verdict with
  | running => rw [visit_of_running taken]
  | finished => rw [visit_of_finished taken]; rfl

/-- What a visit does to cells is done by the turn of the cast, with the cells of its context. -/
theorem visit_handles
    (discreet : behaviour.Discreet)
    (maxSteps maxForks : Nat)
    (owns : Owns round.arena (round.staying ++ cast :: rest))
    (live : round.arena.get? cast.active = some context)
    (has : ∀ cell ∈ context.cells, round.realm.cells.Has cell) :
    let after := ((round.turn cast).take behaviour maxSteps maxForks).1
    ∃ final, after.arena.get? after.cast.active = some final ∧
      Cells.Handles context.cells round.realm.cells final.cells
        (visit behaviour maxSteps maxForks round cast).realm.cells := by
  rw [visit_cells]
  exact (Turn.handled_lasting discreet maxForks _ _ _).take maxSteps (Round.turn_owns owns) ⟨context, live, .refl has⟩

/-- After a visit there are the casts that were there before it, with their contexts, and the visited one. -/
theorem mem_of_visit
    {other : InFlight}
    (behaviour : Behaviour κ)
    (maxSteps maxForks : Nat)
    (owns : Owns round.arena (round.staying ++ cast :: rest))
    (member : other ∈ (visit behaviour maxSteps maxForks round cast).staying ++ rest) :
    let next := visit behaviour maxSteps maxForks round cast
    let after := ((round.turn cast).take behaviour maxSteps maxForks).1
    (other ∈ round.staying ++ cast :: rest ∧ next.arena.get? other.active = round.arena.get? other.active) ∨
      (other = after.cast ∧ next.arena = after.arena) := by
  intro next after
  have older (stayed : other ∈ round.staying ++ rest) :
      other ∈ round.staying ++ cast :: rest ∧ next.arena.get? other.active = round.arena.get? other.active := by
    have pending : other ∈ round.staying ++ cast :: rest :=
      ((List.sublist_cons_self cast rest).append_left round.staying).subset stayed
    exact ⟨pending,
      visit_apart behaviour maxSteps maxForks owns other stayed _ (owns.coherent other pending).active_mem⟩
  rcases taken : (round.turn cast).take behaviour maxSteps maxForks with ⟨turn, verdict⟩
  cases verdict with
  | running =>
      rw [visit_of_running taken] at member
      simp only [List.append_assoc, List.mem_append, List.mem_singleton] at member
      rcases member with stays | same | waits
      · exact .inl (older (List.mem_append_left _ stays))
      · have sameAfter : after = turn := congrArg Prod.fst taken
        have sameNext : next = _ := visit_of_running taken
        rw [sameAfter, sameNext]
        exact .inr ⟨same, rfl⟩
      · exact .inl (older (List.mem_append_right _ waits))
  | finished =>
      rw [visit_of_finished taken] at member
      exact .inl (older member)

/-- A visit of another cast leaves guarded cells as they are. -/
theorem visit_guarded
    (discreet : behaviour.Discreet)
    (maxSteps maxForks : Nat)
    (owns : Owns round.arena (round.staying ++ cast :: rest))
    (different : cast.id ≠ id)
    (guarded : Guarded id held round.arena round.realm.cells (round.staying ++ cast :: rest)) :
    let next := visit behaviour maxSteps maxForks round cast
    Guarded id held next.arena next.realm.cells (next.staying ++ rest) ∧
      ∀ cell ∈ held, next.realm.cells.read? cell = round.realm.cells.read? cell := by
  have member : cast ∈ round.staying ++ cast :: rest := List.mem_append_right _ List.mem_cons_self
  obtain ⟨context, live⟩ := owns.active_live member
  have has : ∀ cell ∈ context.cells, round.realm.cells.Has cell :=
    fun cell listed => (guarded.others cast member different context live cell listed).1
  obtain ⟨final, finalLive, handles⟩ := visit_handles discreet maxSteps maxForks owns live has
  refine guarded.by_other member different live handles ?_
  intro other otherMember _ found foundLive
  rcases mem_of_visit behaviour maxSteps maxForks owns otherMember with ⟨pending, same⟩ | ⟨rfl, arena⟩
  · exact .inl ⟨pending, same.symm.trans foundLive⟩
  · rw [arena] at foundLive
    exact .inr (Option.some.inj (foundLive.symm.trans finalLive))

theorem visits_guarded
    (discreet : behaviour.Discreet)
    (maxSteps maxForks : Nat)
    (owns : Owns round.arena (round.staying ++ (casts ++ rest)))
    (different : ∀ cast ∈ casts, cast.id ≠ id)
    (guarded : Guarded id held round.arena round.realm.cells (round.staying ++ (casts ++ rest))) :
    let final := casts.foldl (visit behaviour maxSteps maxForks) round
    Guarded id held final.arena final.realm.cells (final.staying ++ rest) ∧
      ∀ cell ∈ held, final.realm.cells.read? cell = round.realm.cells.read? cell := by
  induction casts generalizing round with
  | nil =>
      exact ⟨guarded, fun _ _ => rfl⟩
  | cons first casts inductionHypothesis =>
      obtain ⟨firstGuarded, firstKept⟩ :=
        visit_guarded discreet maxSteps maxForks owns (different first List.mem_cons_self) guarded
      obtain ⟨restGuarded, restKept⟩ :=
        inductionHypothesis (visit_owns behaviour maxSteps maxForks owns)
          (fun cast member => different cast (List.mem_cons_of_mem _ member)) firstGuarded
      exact ⟨restGuarded, fun cell isHeld => (restKept cell isHeld).trans (firstKept cell isHeld)⟩

/-- After a visit of the cast that holds the cells, those are guarded that it holds then. -/
theorem visit_guarded_own
    (discreet : behaviour.Discreet)
    (maxSteps maxForks : Nat)
    (owns : Owns round.arena (round.staying ++ cast :: rest))
    (live : round.arena.get? cast.active = some context)
    (guarded : Guarded cast.id context.cells round.arena round.realm.cells (round.staying ++ cast :: rest)) :
    let next := visit behaviour maxSteps maxForks round cast
    let after := ((round.turn cast).take behaviour maxSteps maxForks).1
    ∃ final, after.arena.get? after.cast.active = some final ∧
      Guarded cast.id final.cells next.arena next.realm.cells (next.staying ++ rest) := by
  have keeps := Turn.keeps_take behaviour maxSteps maxForks (Round.turn_owns owns)
  obtain ⟨final, finalLive, handles⟩ := visit_handles discreet maxSteps maxForks owns live guarded.has
  refine ⟨final, finalLive, guarded.by_own handles ?_⟩
  intro other member different
  rcases mem_of_visit behaviour maxSteps maxForks owns member with pending | ⟨rfl, -⟩
  · exact pending
  · exact absurd keeps.sameId different

end Scheduler

end Spellcast
